import SorobanPay.Backend.KycWebhooks
import SorobanPay.Foundation.Listing

/-!
# Updates of a KYC record that overlap

A webhook is to change what it carries and nothing else. Since it writes back every column as it has
read it, this is so only as long as the columns that it carries nothing for are, when it writes,
still what they were when it read them. `throughout_nothingLost_iff` says that it is so exactly
then.

## Main definitions

* `NothingLost`: the record is what the updates make of it, one after the other.
* `Timely`: the columns that a webhook writes back have not changed since it has read them.

## Main results

* `nothingLost_webhook_iff`: what the update of a webhook leaves.
* `throughout_nothingLost_iff`: when no update is lost.
-/

set_option autoImplicit false

namespace SorobanPay.Kyc

open Foundation

variable {Raw Score : Type} {high : Score → Bool}

/-! ### What is asked for -/

namespace KycWrite

/-- The AML status that a webhook sets. -/
def amlResult : KycWrite Raw Score → Option String
  | webhook payload _ => payload.amlResult
  | reVerification => none

/-- The update is that of a webhook that sets `livenessCompleted`. -/
def completesLiveness : KycWrite Raw Score → Bool
  | webhook payload _ => payload.completesLiveness
  | reVerification => false

/-- The status that an approval, a rejection or a re-verification sets. -/
def decision : KycWrite Raw Score → Option KycStatus
  | webhook payload _ => payload.decision
  | reVerification => some .reVerificationRequired

/-- The entry of a webhook in the log. -/
def logEntry : KycWrite Raw Score → Option (LogEntry Raw)
  | webhook payload readings => some (payload.logEntry readings)
  | reVerification => none

/-- The payload of a webhook. -/
def payload : KycWrite Raw Score → Option (ProviderWebhookPayload Raw Score)
  | webhook payload _ => some payload
  | reVerification => none

end KycWrite

/-- The payload of a webhook whose update has been made. -/
def KycCall.handled (call : KycCall Raw Score) : Option (ProviderWebhookPayload Raw Score) :=
  match call.stage, call.task with
  | .received, _ | .read .., _ => none
  | _, .webhook payload => some payload
  | _, .reVerification => none

/-- The record is what it has been at first but for what has been written, each column for itself.
-/
structure Faithful (initial : KycVerification Raw Score) (table : KycTable Raw Score) : Prop where
  amlStatus : table.record.amlStatus =
    (table.written.filterMap KycWrite.amlResult).getLast?.getD initial.amlStatus
  livenessCompleted : table.record.livenessCompleted =
    (initial.livenessCompleted || table.written.any KycWrite.completesLiveness)
  status : table.record.status =
    (table.written.filterMap KycWrite.decision).getLast?.getD initial.status
  webhookLog : table.record.entries.rtake 50 =
    (initial.entries ++ table.written.filterMap KycWrite.logEntry).rtake 50

/-- The record is faithful to what has been written, and this is written for the webhooks whose
calls have got that far. -/
structure NothingLost (initial : KycVerification Raw Score) (p : KycPool Raw Score) : Prop where
  faithful : Faithful initial p.shared
  handled : (p.calls.filterMap KycCall.handled).Perm (p.shared.written.filterMap KycWrite.payload)

/-! ### The condition -/

/-- The columns for which a payload carries nothing are in a record what they have been in the one
that was read. -/
structure Unchanged (payload : ProviderWebhookPayload Raw Score)
    (read record : KycVerification Raw Score) : Prop where
  amlStatus : payload.amlResult = none → read.amlStatus = record.amlStatus
  livenessCompleted : payload.completesLiveness = false →
    read.livenessCompleted = record.livenessCompleted
  status : payload.decision = none → read.status = record.status
  webhookLog : read.entries.rtake 49 = record.entries.rtake 49

/-- If the statement is the update of a webhook, the columns that it writes back have not changed
since it has read them. -/
def Timely (p : KycPool Raw Score) : KycInput Raw Score → Prop
  | .call _ => True
  | .turn i _ => ∀ payload readings read,
      p.calls[i]? = some ⟨.webhook payload, .read readings read⟩ →
        Unchanged payload read p.shared.record

/-! ### What the updates leave -/

section Updates

variable {initial : KycVerification Raw Score} {table : KycTable Raw Score}

/-- What is set last, after one more write. -/
theorem getLast?_filterMap_append {A : Type} (set : KycWrite Raw Score → Option A)
    (written : List (KycWrite Raw Score)) (write : KycWrite Raw Score) (default : A) :
    ((written ++ [write]).filterMap set).getLast?.getD default =
      (set write).getD ((written.filterMap set).getLast?.getD default) := by
  rw [List.filterMap_append]
  cases hset : set write with
  | none => simp [hset]
  | some a => simp [hset]

theorem rtake_rtake {A : Type} {m n : ℕ} (h : m ≤ n) (l : List A) :
    (l.rtake n).rtake m = l.rtake m := by
  rw [List.rtake_eq_reverse_take_reverse, List.rtake_eq_reverse_take_reverse, List.reverse_reverse,
    List.take_take, min_eq_left h, ← List.rtake_eq_reverse_take_reverse]

/-- A value that is set, or else written back, is the right one if it is set or has not changed. -/
theorem getD_eq_getD_iff {A : Type} {set : Option A} {old now : A} :
    set.getD old = set.getD now ↔ (set = none → old = now) := by
  cases set <;> simp

/-- **What the update of a webhook leaves** is right if and only if what it writes back has not
changed. -/
theorem faithful_webhook_iff (h : Faithful initial table)
    (payload : ProviderWebhookPayload Raw Score) (readings : Readings)
    (read : KycVerification Raw Score) :
    Faithful initial ⟨table.record.update (updateFor payload readings read),
        table.written ++ [.webhook payload readings]⟩ ↔
      Unchanged payload read table.record := by
  let write : KycWrite Raw Score := .webhook payload readings
  have haml : (updateFor payload readings read).amlStatus =
      ((table.written ++ [write]).filterMap KycWrite.amlResult).getLast?.getD initial.amlStatus ↔
        (payload.amlResult = none → read.amlStatus = table.record.amlStatus) := by
    rw [getLast?_filterMap_append, ← h.amlStatus, updateFor_amlStatus]
    exact getD_eq_getD_iff
  have hstatus : (updateFor payload readings read).status =
      ((table.written ++ [write]).filterMap KycWrite.decision).getLast?.getD initial.status ↔
        (payload.decision = none → read.status = table.record.status) := by
    rw [getLast?_filterMap_append, ← h.status, updateFor_status]
    exact getD_eq_getD_iff
  have hliveness : (updateFor payload readings read).livenessCompleted =
      (initial.livenessCompleted ||
        (table.written ++ [write]).any KycWrite.completesLiveness) ↔
      (payload.completesLiveness = false →
        read.livenessCompleted = table.record.livenessCompleted) := by
    rw [List.any_append, ← Bool.or_assoc, ← h.livenessCompleted, updateFor_livenessCompleted]
    cases hcompletes : payload.completesLiveness <;>
      simp [write, KycWrite.completesLiveness, hcompletes]
  have hlog : (updateFor payload readings read).webhookLog.rtake 50 =
      (initial.entries ++ (table.written ++ [write]).filterMap KycWrite.logEntry).rtake 50 ↔
      read.entries.rtake 49 = table.record.entries.rtake 49 := by
    have hcurrent := congrArg (fun l => l.rtake 49) h.webhookLog
    simp only [rtake_rtake (show 49 ≤ 50 by decide)] at hcurrent
    have hone : [write].filterMap KycWrite.logEntry = [payload.logEntry readings] := rfl
    rw [List.filterMap_append, hone, ← List.append_assoc, List.rtake_concat_succ, ← hcurrent,
      updateFor, rtake_rtake le_rfl, List.rtake_concat_succ, List.append_cancel_right_eq]
  constructor
  · rintro ⟨h₁, h₂, h₃, h₄⟩
    exact ⟨haml.1 h₁, hliveness.1 h₂, hstatus.1 h₃, hlog.1 h₄⟩
  · rintro ⟨h₁, h₂, h₃, h₄⟩
    exact ⟨haml.2 h₁, hliveness.2 h₂, hstatus.2 h₃, hlog.2 h₄⟩

/-- A re-verification loses nothing. -/
theorem Faithful.reVerification (h : Faithful initial table) :
    Faithful initial
      ⟨table.record.requireReVerification, table.written ++ [.reVerification]⟩ where
  amlStatus := by
    rw [getLast?_filterMap_append]
    exact h.amlStatus
  livenessCompleted := by
    rw [List.any_append]
    exact h.livenessCompleted.trans (Bool.or_false _ ▸ rfl)
  status := by
    rw [getLast?_filterMap_append]
    rfl
  webhookLog := by
    have hnone : [(.reVerification : KycWrite Raw Score)].filterMap KycWrite.logEntry = [] := rfl
    rw [List.filterMap_append, hnone, List.append_nil]
    exact h.webhookLog

end Updates

/-! ### Calls that overlap -/

section Calls

variable {initial : KycVerification Raw Score} {p : KycPool Raw Score}
  {table : KycTable Raw Score} {call : KycCall Raw Score} {readings : Readings}

/-- What the statement of a call writes, and of which webhook. -/
inductive TurnSpec (table : KycTable Raw Score) :
    KycCall Raw Score → KycTable Raw Score → KycCall Raw Score → Prop
  | quiet {call call' : KycCall Raw Score} (hsame : call'.handled = call.handled)
      (hread : ∀ payload readings read, call ≠ ⟨.webhook payload, .read readings read⟩) :
      TurnSpec table call table call'
  | webhook {payload : ProviderWebhookPayload Raw Score} {readings : Readings}
      {read : KycVerification Raw Score} {call' : KycCall Raw Score}
      (hhandled : call'.handled = some payload) :
      TurnSpec table ⟨.webhook payload, .read readings read⟩
        ⟨table.record.update (updateFor payload readings read),
          table.written ++ [.webhook payload readings]⟩ call'
  | reVerification {task : KycTask Raw Score} :
      TurnSpec table ⟨task, .found⟩
        ⟨table.record.requireReVerification, table.written ++ [.reVerification]⟩ ⟨task, .done⟩

theorem turnSpec (high : Score → Bool) (table : KycTable Raw Score) (call : KycCall Raw Score)
    (readings : Readings) :
    TurnSpec table call (kycTurn high table call readings).1
      (kycTurn high table call readings).2 := by
  obtain ⟨task, stage⟩ := call
  unfold kycTurn
  cases stage with
  | received => cases task <;> exact .quiet rfl (by simp)
  | read readings' record =>
    cases task with
    | webhook payload =>
      refine .webhook ?_
      dsimp only
      split <;> rfl
    | reVerification => exact .quiet rfl (by simp)
  | triggered => cases task <;> exact .quiet rfl (by simp)
  | found => cases task <;> exact .reVerification
  | done => cases task <;> exact .quiet rfl (by simp)

/-- The turn of a call loses nothing if and only if it is no late update. -/
theorem NothingLost.turn_iff (h : NothingLost initial p) (i : ℕ) (readings : Readings) :
    NothingLost initial (kycStep high p (.turn i readings)) ↔ Timely p (.turn i readings) := by
  rw [kycStep]
  rcases hcall : p.calls[i]? with _ | call
  · rw [Pool.resume_of_none hcall]
    refine iff_of_true h fun payload readings read hread => ?_
    rw [hcall] at hread
    cases hread
  · have hperm := Pool.perm_filterMap_resume (kycTurn high) readings KycCall.handled hcall
    have hshared : (p.resume (kycTurn high) i readings).shared =
        (kycTurn high p.shared call readings).1 := by
      rw [Pool.resume_of_some hcall]
    have hspec := turnSpec high p.shared call readings
    generalize (kycTurn high p.shared call readings).1 = table' at hspec hshared
    generalize (kycTurn high p.shared call readings).2 = call' at hspec hperm
    -- the webhooks that are handled before and after the turn
    have hkept : call'.handled = call.handled →
        table'.written.filterMap KycWrite.payload = p.shared.written.filterMap KycWrite.payload →
        ((p.resume (kycTurn high) i readings).calls.filterMap KycCall.handled).Perm
          (table'.written.filterMap KycWrite.payload) := by
      intro hsame hwritten
      rw [hsame, List.perm_append_right_iff] at hperm
      exact hwritten ▸ hperm.trans h.handled
    cases hspec with
    | quiet hsame hread =>
      refine iff_of_true ⟨hshared ▸ h.faithful, hshared ▸ hkept hsame rfl⟩ ?_
      exact fun payload readings read heq => (hread payload readings read
        (Option.some.inj (hcall.symm.trans heq))).elim
    | @webhook payload readings' read call' hhandled =>
      have hwritten : ((p.resume (kycTurn high) i readings).calls.filterMap KycCall.handled).Perm
          ((p.shared.written ++ [KycWrite.webhook payload readings']).filterMap
            KycWrite.payload) := by
        rw [hhandled] at hperm
        rw [List.filterMap_append]
        exact (List.append_nil _ ▸ hperm).trans (h.handled.append_right [payload])
      have hfaithful := faithful_webhook_iff h.faithful payload readings' read
      constructor
      · rintro ⟨hnext, -⟩ payload' readings'' read' heq
        obtain ⟨⟨rfl⟩, ⟨rfl, rfl⟩⟩ := KycCall.mk.inj (Option.some.inj (hcall.symm.trans heq))
        exact hfaithful.1 (hshared ▸ hnext)
      · intro htimely
        exact ⟨hshared ▸ hfaithful.2 (htimely payload readings' read hcall), hshared ▸ hwritten⟩
    | @reVerification task =>
      refine iff_of_true ⟨hshared ▸ h.faithful.reVerification, hshared ▸ hkept ?_ ?_⟩ ?_
      · cases task <;> rfl
      · rw [List.filterMap_append]
        exact List.append_nil _
      · intro payload readings read heq
        cases (Option.some.inj (hcall.symm.trans heq))

/-- A new call has not been handled. -/
theorem NothingLost.start (h : NothingLost initial p) (task : KycTask Raw Score) :
    NothingLost initial (kycStep high p (.call task)) := by
  refine ⟨h.faithful, ?_⟩
  have hnew : [task.begin].filterMap KycCall.handled = [] := by cases task <;> rfl
  rw [kycStep, Pool.start, List.filterMap_append, hnew, List.append_nil]
  exact h.handled

theorem nothingLost_start (initial : KycVerification Raw Score) :
    NothingLost initial (kycStart initial) :=
  ⟨⟨rfl, (Bool.or_false _).symm, rfl, by rw [kycStart, Pool.idle]; simp⟩, .refl _⟩

/-- **No update is lost**, in any state of a run, if and only if each webhook writes while the
columns that it writes back are what it has read. -/
theorem throughout_nothingLost_iff (high : Score → Bool) (initial : KycVerification Raw Score)
    (inputs : List (KycInput Raw Score)) :
    Throughout (kycStep high) (NothingLost initial) (kycStart initial) inputs ↔
      Along (kycStep high) Timely (kycStart initial) inputs := by
  refine throughout_iff_along (NothingLost initial) (fun _ h => h) (fun p input h htimely => ?_)
    (fun p input h hnext => ?_) (nothingLost_start initial)
  · cases input with
    | call task => exact h.start task
    | turn i readings => exact (h.turn_iff i readings).2 htimely
  · cases input with
    | call task => trivial
    | turn i readings => exact (h.turn_iff i readings).1 hnext

end Calls

/-! ### A sample -/

/-- A record that has just been submitted. -/
def sampleRecord : KycVerification Unit ℕ where
  status := .submitted
  amlStatus := "pending"
  livenessCompleted := false
  riskScore := none
  approvedAt := none
  rejectedAt := none
  webhookLog := some []

/-- A webhook of Onfido. -/
def sampleWebhook (event : String) : KycInput Unit ℕ :=
  .call (.webhook ⟨.onfido, event, none, none, none, ()⟩)

/-- A flagged AML check is written while the webhook of a video is under way. -/
def sampleOverlap : List (KycInput Unit ℕ) :=
  [sampleWebhook "check.completed", sampleWebhook "video.created", .turn 1 ⟨10, 10⟩,
    .turn 0 ⟨11, 11⟩, .turn 0 ⟨12, 12⟩, .turn 1 ⟨13, 13⟩]

/-- Where the sample ends. -/
abbrev sampleEnd : KycPool Unit ℕ := after (kycStep (75 ≤ ·)) (kycStart sampleRecord) sampleOverlap

/-- When both calls are done, the AML status is pending, as before. -/
theorem flagged_lost :
    (sampleEnd.calls.map fun call => call.stage) = [.done, .done] ∧
      sampleEnd.shared.record.amlStatus = "pending" ∧ ¬ NothingLost sampleRecord sampleEnd := by
  refine ⟨rfl, rfl, fun h => ?_⟩
  have haml := h.faithful.amlStatus
  revert haml
  decide

end SorobanPay.Kyc
