import SorobanPay.Backend.RetryQueue
import SorobanPay.Foundation.Listing

/-!
# Scheduling retries once

A payment that fails is to be retried on one schedule, so that the table has at most one pending
row for each attempt of a pair. `enqueueRetries` looks for pending rows and inserts its own
afterwards, one after the other, and the table has no constraint on them. `one_pending_iff` says
that there is no second pending row exactly as long as no call makes its first insertion when there
are pending rows of the pair by then.

## Main definitions

* `OnePending`: at most one pending row for each attempt.
* `InsertsLate`: a call makes its first insertion beside pending rows of the pair.

## Main results

* `one_pending_iff`: when there is at most one pending row for each attempt.
-/

set_option autoImplicit false

namespace SorobanPay.RetryQueue

open Foundation

variable {db db' : RetryDb} {env : Option String} {call : Call} {reply : Reply} {id k n : ℕ}
  {subscriber merchant : String} {p : Pool RetryDb Call}

/-! ### What is asked for -/

/-- The row of this id is pending, for this attempt of the pair. -/
def PendingAt (db : RetryDb) (id : ℕ) (subscriber merchant : String) (attemptNumber : ℕ) : Prop :=
  ∃ row, db.retries.get id = some row ∧ row.status = .pending ∧ row.subscriber = subscriber ∧
    row.merchant = merchant ∧ row.attemptNumber = attemptNumber

/-- At most one row is pending for each attempt of a pair. -/
def OnePending (db : RetryDb) : Prop :=
  ∀ id id' subscriber merchant attemptNumber, PendingAt db id subscriber merchant attemptNumber →
    PendingAt db id' subscriber merchant attemptNumber → id = id'

/-- Some row of the pair is pending. -/
def HasPending (db : RetryDb) (subscriber merchant : String) : Prop :=
  ∃ id attemptNumber, PendingAt db id subscriber merchant attemptNumber

/-- Only `enqueueRetries` is called. -/
def OnlyEnqueues : Input → Prop
  | .enqueueRetries _ | .answer _ _ | .elapse _ => True
  | .cancelRetries _ _ | .processRetryJob _ => False

instance : DecidablePred OnlyEnqueues
  | .enqueueRetries _ | .answer _ _ | .elapse _ => instDecidableTrue
  | .cancelRetries _ _ | .processRetryJob _ => instDecidableFalse

/-- The turn is the first insertion of a call, and there are pending rows of the pair. -/
def LateInsertion (db : RetryDb) (call : Call) (reply : Reply) : Prop :=
  ∃ s r, call = .insert s ∧ s.index = 0 ∧ reply = .db r ∧ r.outcome ≠ .failed ∧
    HasPending db s.params.subscriber s.params.merchant

/-- A call takes such a turn. -/
def InsertsLate (p : Pool RetryDb Call) : Input → Prop
  | .answer i reply => ∃ call, p.calls[i]? = some call ∧ LateInsertion p.shared call reply
  | .enqueueRetries _ | .cancelRetries _ _ | .processRetryJob _ | .elapse _ => False

/-! ### Pending rows -/

theorem PendingAt.lt (h : PendingAt db id subscriber merchant k) (hfresh : FreshIds db) :
    id < db.nextId := by
  obtain ⟨row, hget, -⟩ := h
  exact hfresh id row hget

/-- What an insertion adds. -/
theorem pendingAt_create (hfresh : FreshIds db) {params : RetryParams}
    {attemptNumber scheduledAt : ℕ} :
    PendingAt (createRetryRecord db params attemptNumber scheduledAt) id subscriber merchant k ↔
      PendingAt db id subscriber merchant k ∨ id = db.nextId ∧ params.subscriber = subscriber ∧
        params.merchant = merchant ∧ attemptNumber = k := by
  by_cases hid : id = db.nextId
  · subst hid
    have hold : ¬ PendingAt db db.nextId subscriber merchant k :=
      fun h => lt_irrefl _ (h.lt hfresh)
    have hnew : (createRetryRecord db params attemptNumber scheduledAt).retries.get db.nextId =
        some { params with
          attemptNumber, scheduledAt
          status := .pending
          attemptedAt := none
          error := none
          jobId := none
          createdAt := db.now
          updatedAt := db.now } := by
      rw [createRetryRecord, InsertionMap.get_set, if_pos rfl]
    rw [or_iff_right hold]
    unfold PendingAt
    rw [hnew]
    simp
  · simp only [PendingAt, get_createRetryRecord hid, hid, false_and, or_false]

/-- An update of the job leaves the pending rows alone. -/
theorem pendingAt_update_jobId {retryId : ℕ} {jobId : Option String} :
    PendingAt (updateRetryRecord db retryId { jobId := some jobId }) id subscriber merchant k ↔
      PendingAt db id subscriber merchant k := by
  unfold PendingAt
  rw [get_updateRetryRecord]
  split_ifs with hid
  · cases db.retries.get id with
    | none => simp
    | some row => simp [PaymentRetry.update]
  · rfl

/-- The check finds the pending rows of the pair. -/
theorem hasPending_iff : HasPending db subscriber merchant ↔
    ∃ entry ∈ getRawRetries db subscriber merchant, entry.2.status = .pending := by
  unfold HasPending PendingAt getRawRetries
  simp only [List.mem_insertionSort, List.mem_filter, decide_eq_true_eq, Prod.exists,
    InsertionMap.mem_entries_iff]
  constructor
  · rintro ⟨id, _, row, hget, hstatus, hsubscriber, hmerchant, -⟩
    exact ⟨id, row, ⟨hget, hsubscriber, hmerchant⟩, hstatus⟩
  · rintro ⟨id, row, ⟨hget, hsubscriber, hmerchant⟩, hstatus⟩
    exact ⟨id, row.attemptNumber, row, hget, hstatus, hsubscriber, hmerchant, rfl⟩

/-! ### How far a call has come -/

/-- The calls of `enqueueRetries`. -/
def Call.Enqueues : Call → Prop
  | .check _ | .insert _ | .addJob _ _ | .backfill _ _ _ | .ended _ => True
  | .readPending _ _ | .remove _ _ _ | .cancel _ _ _ | .mark _ | .notify _ | .succeed _
  | .readRemaining _ | .fail _ _ | .escalate _ => False

/-- The payment of a call that is past its check, and how many rows it has inserted. -/
def Call.inserted : Call → Option (RetryParams × ℕ)
  | .insert s => some (s.params, s.index)
  | .addJob s _ | .backfill s _ _ => some (s.params, s.index + 1)
  | .check _ | .readPending _ _ | .remove _ _ _ | .cancel _ _ _ | .mark _ | .notify _ | .succeed _
  | .readRemaining _ | .fail _ _ | .escalate _ | .ended _ => none

/-- The next row of a schedule is inserted. -/
def Inserts (db : RetryDb) (s : Scheduling) (db' : RetryDb) : Prop :=
  ∀ id subscriber merchant k, PendingAt db' id subscriber merchant k ↔
    PendingAt db id subscriber merchant k ∨ id = db.nextId ∧ s.params.subscriber = subscriber ∧
      s.params.merchant = merchant ∧ s.index + 1 = k

/-- What the turn of a call of `enqueueRetries` does: it may pass the check, insert a row, or leave
the pending rows as they are. -/
inductive EnqueueTurn (db : RetryDb) : Call → Reply → RetryDb → Call → Prop
  | checked {params : RetryParams} {reply : Reply} {call' : Call}
      (hnone : ¬ HasPending db params.subscriber params.merchant)
      (hcall : ∀ payment ∈ call'.inserted, payment = (params, 0)) :
      EnqueueTurn db (.check params) reply db call'
  | inserted {s : Scheduling} {r : DbReply} {db' : RetryDb} {call' : Call}
      (hreply : r.outcome ≠ .failed)
      (hpending : Inserts db s db')
      (hcall : ∀ payment ∈ call'.inserted, payment = (s.params, s.index + 1)) :
      EnqueueTurn db (.insert s) (.db r) db' call'
  | quiet {call call' : Call} {reply : Reply} {db' : RetryDb}
      (hpending : ∀ id subscriber merchant k,
        PendingAt db' id subscriber merchant k ↔ PendingAt db id subscriber merchant k)
      (hcall : ∀ payment ∈ call'.inserted, call.inserted = some payment) :
      EnqueueTurn db call reply db' call'

theorem inserted_next {s : Scheduling} :
    ∀ payment ∈ s.next.inserted, payment = (s.params, s.index) := by
  intro payment hpayment
  unfold Scheduling.next at hpayment
  split_ifs at hpayment
  · exact (Option.some.inj hpayment).symm
  · cases hpayment

/-- A call that is ended by an error. -/
theorem inserted_afterStatement {r : DbReply} {next : Call} {Q : RetryParams × ℕ → Prop}
    (h : ∀ payment ∈ next.inserted, Q payment) :
    ∀ payment ∈ (Call.afterStatement r none next).inserted, Q payment := by
  unfold Call.afterStatement
  split_ifs
  · exact h
  · intro payment hpayment
    cases hpayment

theorem enqueues_next {s : Scheduling} : s.next.Enqueues := by
  unfold Scheduling.next
  split_ifs <;> trivial

theorem enqueues_afterStatement {r : DbReply} {next : Call} (h : next.Enqueues) :
    (Call.afterStatement r none next).Enqueues := by
  unfold Call.afterStatement
  split_ifs
  · exact h
  · trivial

/-- A call of `enqueueRetries` goes on as one. -/
theorem Call.Enqueues.callTurn (h : call.Enqueues) : (callTurn env db call reply).2.Enqueues := by
  cases call with
  | check params =>
    cases reply with
    | db r =>
      refine enqueues_afterStatement ?_
      unfold Call.afterCheck
      split_ifs
      · trivial
      · exact enqueues_next
    | added | removed | notified => trivial
  | insert s =>
    cases reply with
    | db r => exact enqueues_afterStatement trivial
    | added | removed | notified => trivial
  | addJob s retryId =>
    cases reply with
    | added result => cases result <;> trivial
    | db | removed | notified => trivial
  | backfill s retryId jobId =>
    cases reply with
    | db r => exact enqueues_afterStatement enqueues_next
    | added | removed | notified => trivial
  | ended result => cases reply <;> trivial
  | readPending | remove | cancel | mark | notify | succeed | readRemaining | fail | escalate =>
    exact h.elim

theorem enqueueTurn_callTurn (hfresh : FreshIds db) (h : call.Enqueues) :
    EnqueueTurn db call reply (callTurn env db call reply).1 (callTurn env db call reply).2 := by
  cases call with
  | check params =>
    cases reply with
    | db r =>
      by_cases hpending : HasPending db params.subscriber params.merchant
      · refine .quiet (fun _ _ _ _ => Iff.rfl) (inserted_afterStatement fun payment hpayment => ?_)
        rw [Call.afterCheck, if_pos (hasPending_iff.1 hpending)] at hpayment
        cases hpayment
      · refine .checked hpending (inserted_afterStatement fun payment hpayment => ?_)
        rw [Call.afterCheck, if_neg (fun h => hpending (hasPending_iff.2 h))] at hpayment
        exact inserted_next payment hpayment
    | added | removed | notified => exact .quiet (fun _ _ _ _ => Iff.rfl) fun _ h => h
  | insert s =>
    cases reply with
    | db r =>
      by_cases hreply : r.outcome = .failed
      · refine .quiet (fun _ _ _ _ => ?_) fun payment hpayment => ?_
        · rw [callTurn, execute, if_pos hreply]
        · rw [callTurn, Call.afterStatement, if_neg (by rw [hreply]; decide)] at hpayment
          cases hpayment
      · refine .inserted hreply (fun _ _ _ _ => ?_)
          (inserted_afterStatement fun payment hpayment => (Option.some.inj hpayment).symm)
        rw [callTurn, execute, if_neg hreply, pendingAt_create hfresh]
    | added | removed | notified => exact .quiet (fun _ _ _ _ => Iff.rfl) fun _ h => h
  | addJob s retryId =>
    refine .quiet (fun _ _ _ _ => ?_) fun payment hpayment => ?_
    · cases reply <;> rfl
    · cases reply with
      | added result =>
        cases result with
        | ok jobId => exact hpayment
        | error msg => cases hpayment
      | db | removed | notified => exact hpayment
  | backfill s retryId jobId =>
    cases reply with
    | db r =>
      refine .quiet (fun _ _ _ _ => ?_) (inserted_afterStatement fun payment hpayment => ?_)
      · simp only [callTurn, execute]
        split_ifs
        · rfl
        · exact pendingAt_update_jobId
      · rw [inserted_next payment hpayment]
        rfl
    | added | removed | notified => exact .quiet (fun _ _ _ _ => Iff.rfl) fun _ h => h
  | ended result =>
    cases reply <;> exact .quiet (fun _ _ _ _ => Iff.rfl) fun _ h => h
  | readPending | remove | cancel | mark | notify | succeed | readRemaining | fail | escalate =>
    exact h.elim

/-! ### One schedule for each pair -/

/-- A call that has inserted rows has found the pair without pending ones, and what is pending is
what it has inserted; before, the rows that others have inserted begin with the first attempt. -/
def Scheduled (db : RetryDb) (params : RetryParams) (n : ℕ) : Prop :=
  (0 < n ∨ HasPending db params.subscriber params.merchant →
    ∃ id, PendingAt db id params.subscriber params.merchant 1) ∧
  (0 < n → ∀ id k, PendingAt db id params.subscriber params.merchant k → k ≤ n)

/-- The local invariant of the calls of `enqueueRetries`. -/
def EnqueueLocal (db : RetryDb) (call : Call) : Prop :=
  call.Enqueues ∧ ∀ params n, call.inserted = some (params, n) → Scheduled db params n

/-- Two calls have not both inserted rows of a pair. -/
def EnqueueApart (_ : RetryDb) (call call' : Call) : Prop :=
  ∀ params n params' n', call.inserted = some (params, n) → call'.inserted = some (params', n') →
    params.subscriber = params'.subscriber → params.merchant = params'.merchant →
    ¬ (0 < n ∧ 0 < n')

/-- The invariant of the runs in which no insertion is late. -/
def EnqueueInv (p : Pool RetryDb Call) : Prop :=
  p.Holds (fun db => FreshIds db ∧ OnePending db) EnqueueLocal EnqueueApart

theorem EnqueueApart.symm {call call' : Call} (h : EnqueueApart db call call') :
    EnqueueApart db call' call :=
  fun params n params' n' hcall hcall' hsubscriber hmerchant hboth =>
    h params' n' params n hcall' hcall hsubscriber.symm hmerchant.symm hboth.symm

theorem Scheduled.congr {params : RetryParams}
    (h : ∀ id k, PendingAt db' id params.subscriber params.merchant k ↔
      PendingAt db id params.subscriber params.merchant k) :
    Scheduled db' params n ↔ Scheduled db params n := by
  simp only [Scheduled, HasPending, h]

/-- A call whose turn is no insertion. -/
theorem EnqueueLocal.congr
    (h : ∀ id subscriber merchant k,
      PendingAt db' id subscriber merchant k ↔ PendingAt db id subscriber merchant k) :
    EnqueueLocal db' call ↔ EnqueueLocal db call := by
  have hscheduled : ∀ params n, Scheduled db' params n ↔ Scheduled db params n :=
    fun _ _ => Scheduled.congr fun _ _ => h _ _ _ _
  simp only [EnqueueLocal, hscheduled]

section Inserts

variable {s : Scheduling}

/-- An insertion that is not late finds no pending row with its attempt number. -/
theorem Scheduled.fresh (h : Scheduled db s.params s.index)
    (hlate : s.index = 0 → ¬ HasPending db s.params.subscriber s.params.merchant) :
    ¬ PendingAt db id s.params.subscriber s.params.merchant (s.index + 1) := by
  intro hpending
  rcases Nat.eq_zero_or_pos s.index with hzero | hpos
  · exact hlate hzero ⟨id, s.index + 1, hpending⟩
  · have hle : s.index + 1 ≤ s.index := h.2 hpos id _ hpending
    omega

theorem OnePending.insert (h : OnePending db) (hscheduled : Scheduled db s.params s.index)
    (hlate : s.index = 0 → ¬ HasPending db s.params.subscriber s.params.merchant)
    (hinsert : Inserts db s db') : OnePending db' := by
  intro id id' subscriber merchant k hid hid'
  rcases (hinsert _ _ _ _).1 hid with hid | ⟨rfl, rfl, rfl, rfl⟩
  · rcases (hinsert _ _ _ _).1 hid' with hid' | ⟨rfl, rfl, rfl, rfl⟩
    · exact h _ _ _ _ _ hid hid'
    · exact absurd hid (hscheduled.fresh hlate)
  · rcases (hinsert _ _ _ _).1 hid' with hid' | ⟨rfl, -, -, -⟩
    · exact absurd hid' (hscheduled.fresh hlate)
    · rfl

/-- The first attempt of a pair is pending after an insertion. -/
theorem Scheduled.first (h : Scheduled db s.params s.index) (hinsert : Inserts db s db') :
    ∃ id, PendingAt db' id s.params.subscriber s.params.merchant 1 := by
  rcases Nat.eq_zero_or_pos s.index with hzero | hpos
  · exact ⟨db.nextId, (hinsert _ _ _ _).2 (.inr ⟨rfl, rfl, rfl, by rw [hzero]⟩)⟩
  · obtain ⟨id, hid⟩ := h.1 (.inl hpos)
    exact ⟨id, (hinsert _ _ _ _).2 (.inl hid)⟩

/-- The call that inserts. -/
theorem Scheduled.insert (h : Scheduled db s.params s.index)
    (hlate : s.index = 0 → ¬ HasPending db s.params.subscriber s.params.merchant)
    (hinsert : Inserts db s db') : Scheduled db' s.params (s.index + 1) := by
  refine ⟨fun _ => h.first hinsert, fun _ id k hid => ?_⟩
  rcases (hinsert _ _ _ _).1 hid with hid | ⟨-, -, -, rfl⟩
  · rcases Nat.eq_zero_or_pos s.index with hzero | hpos
    · exact absurd ⟨id, k, hid⟩ (hlate hzero)
    · exact (h.2 hpos id k hid).trans (Nat.le_succ _)
  · exact le_rfl

/-- Another call of the pair has not inserted any rows. -/
theorem Scheduled.eq_zero {params : RetryParams} (h : Scheduled db params n)
    (hlate : s.index = 0 → ¬ HasPending db s.params.subscriber s.params.merchant)
    (hapart : ¬ (0 < s.index ∧ 0 < n)) (hsubscriber : s.params.subscriber = params.subscriber)
    (hmerchant : s.params.merchant = params.merchant) : n = 0 := by
  by_contra hn
  have hpos : 0 < n := Nat.pos_of_ne_zero hn
  obtain ⟨id, hid⟩ := h.1 (.inl hpos)
  rcases Nat.eq_zero_or_pos s.index with hzero | hindex
  · rw [← hsubscriber, ← hmerchant] at hid
    exact hlate hzero ⟨id, 1, hid⟩
  · exact hapart ⟨hindex, hpos⟩

/-- The other calls. -/
theorem Scheduled.insert_other {params : RetryParams} (h : Scheduled db params n)
    (hscheduled : Scheduled db s.params s.index)
    (hlate : s.index = 0 → ¬ HasPending db s.params.subscriber s.params.merchant)
    (hapart : s.params.subscriber = params.subscriber → s.params.merchant = params.merchant →
      ¬ (0 < s.index ∧ 0 < n))
    (hinsert : Inserts db s db') : Scheduled db' params n := by
  by_cases hpair : s.params.subscriber = params.subscriber ∧ s.params.merchant = params.merchant
  · obtain ⟨hsubscriber, hmerchant⟩ := hpair
    obtain rfl := h.eq_zero hlate (hapart hsubscriber hmerchant) hsubscriber hmerchant
    refine ⟨fun _ => ?_, fun hpos => absurd hpos (lt_irrefl 0)⟩
    rw [← hsubscriber, ← hmerchant]
    exact hscheduled.first hinsert
  · refine (Scheduled.congr fun id k => ?_).2 h
    rw [hinsert, or_iff_left]
    rintro ⟨-, hsubscriber, hmerchant, -⟩
    exact hpair ⟨hsubscriber, hmerchant⟩

end Inserts

/-- What a turn that is not late leaves of the pending rows, and for the call itself. -/
theorem EnqueueTurn.own {call' : Call} (h : EnqueueTurn db call reply db' call')
    (hlate : ¬ LateInsertion db call reply) (hone : OnePending db)
    (hlocal : ∀ params n, call.inserted = some (params, n) → Scheduled db params n) :
    OnePending db' ∧
      ∀ params n, call'.inserted = some (params, n) → Scheduled db' params n := by
  cases h with
  | checked hnone hcall =>
    refine ⟨hone, fun params n hparams => ?_⟩
    obtain ⟨rfl, rfl⟩ := Prod.mk.inj (hcall _ hparams)
    exact ⟨fun hpending => (hpending.elim (lt_irrefl 0) hnone).elim,
      fun hpos => (lt_irrefl 0 hpos).elim⟩
  | @inserted s r _ _ hreply hinsert hcall =>
    have hlate : s.index = 0 → ¬ HasPending db s.params.subscriber s.params.merchant :=
      fun hzero hpending => hlate ⟨s, r, rfl, hzero, rfl, hreply, hpending⟩
    have hscheduled : Scheduled db s.params s.index := hlocal _ _ rfl
    refine ⟨hone.insert hscheduled hlate hinsert, fun params n hparams => ?_⟩
    obtain ⟨rfl, rfl⟩ := Prod.mk.inj (hcall _ hparams)
    exact hscheduled.insert hlate hinsert
  | quiet hpending hcall =>
    refine ⟨fun id id' subscriber merchant k hid hid' => ?_, fun params n hparams => ?_⟩
    · rw [hpending] at hid hid'
      exact hone _ _ _ _ _ hid hid'
    · exact (Scheduled.congr fun id k => hpending _ _ _ _).2 (hlocal params n (hcall _ hparams))

/-- What it leaves for the other calls. -/
theorem EnqueueTurn.other {call' other : Call} (h : EnqueueTurn db call reply db' call')
    (hlate : ¬ LateInsertion db call reply)
    (hlocal : ∀ params n, call.inserted = some (params, n) → Scheduled db params n)
    (hother : EnqueueLocal db other) (hapart : EnqueueApart db call other) :
    EnqueueLocal db' other ∧ EnqueueApart db' call' other := by
  cases h with
  | checked hnone hcall =>
    refine ⟨hother, fun params n params' n' hparams _ _ _ hboth => ?_⟩
    obtain ⟨-, rfl⟩ := Prod.mk.inj (hcall _ hparams)
    exact lt_irrefl 0 hboth.1
  | @inserted s r _ _ hreply hinsert hcall =>
    have hlate : s.index = 0 → ¬ HasPending db s.params.subscriber s.params.merchant :=
      fun hzero hpending => hlate ⟨s, r, rfl, hzero, rfl, hreply, hpending⟩
    have hscheduled : Scheduled db s.params s.index := hlocal _ _ rfl
    refine ⟨⟨hother.1, fun params n hparams => ?_⟩, fun params n params' n' hparams hparams' => ?_⟩
    · exact (hother.2 params n hparams).insert_other hscheduled hlate
        (hapart _ _ _ _ rfl hparams) hinsert
    · obtain ⟨rfl, rfl⟩ := Prod.mk.inj (hcall _ hparams)
      intro hsubscriber hmerchant hboth
      have hzero : n' = 0 := (hother.2 params' n' hparams').eq_zero hlate
        (hapart _ _ _ _ rfl hparams' hsubscriber hmerchant) hsubscriber hmerchant
      exact hboth.2.ne' hzero
  | quiet hpending hcall =>
    exact ⟨(EnqueueLocal.congr hpending).2 hother,
      fun params n params' n' hparams => hapart params n params' n' (hcall _ hparams)⟩

/-- The turn of a call keeps the invariant unless it inserts late. -/
theorem EnqueueInv.resume {i : ℕ} (h : EnqueueInv p) (hlate : ¬ InsertsLate p (.answer i reply)) :
    EnqueueInv (p.resume (callTurn env) i reply) := by
  have hturn : ∀ call, p.calls[i]? = some call → EnqueueTurn p.shared call reply
      (callTurn env p.shared call reply).1 (callTurn env p.shared call reply).2 :=
    fun call hcall => enqueueTurn_callTurn h.shared.1 (h.each i call hcall).1
  refine Pool.Holds.resume h (fun call hcall => ?_) (fun call hcall j other hji hother => ?_)
    fun call hcall k k' hapart => hapart
  · obtain ⟨henqueues, hlocal⟩ := h.each i call hcall
    obtain ⟨hone, hown⟩ :=
      (hturn call hcall).own (fun hturn => hlate ⟨call, hcall, hturn⟩) h.shared.2 hlocal
    exact ⟨⟨h.shared.1.callTurn, hone⟩, henqueues.callTurn, hown⟩
  · obtain ⟨hlocal, hapart⟩ := (hturn call hcall).other
      (fun hturn => hlate ⟨call, hcall, hturn⟩) (h.each i call hcall).2 (h.each j other hother)
      (h.apart i j call other hji.symm hcall hother)
    exact ⟨hlocal, hapart, hapart.symm⟩

/-- An input that is no late insertion keeps the invariant. -/
theorem EnqueueInv.step {input : Input} (h : EnqueueInv p) (hinput : OnlyEnqueues input)
    (hlate : ¬ InsertsLate p input) : EnqueueInv (retryStep env p input) := by
  cases input with
  | enqueueRetries params =>
    refine Pool.Holds.start h ⟨trivial, fun _ _ hcall => ?_⟩ fun i k _ => ⟨?_, ?_⟩
    · cases hcall
    · intro _ _ _ _ hcall
      cases hcall
    · intro _ _ _ _ _ hcall
      cases hcall
  | cancelRetries | processRetryJob => exact hinput.elim
  | answer i reply => exact h.resume hlate
  | elapse ms =>
    rw [retryStep]
    exact Pool.Holds.act h h.shared (fun _ _ hlocal => hlocal) fun _ _ hapart => hapart

/-- A late insertion makes a second pending row for the first attempt. -/
theorem not_onePending_of_late {i : ℕ} {call : Call} (h : EnqueueInv p)
    (hcall : p.calls[i]? = some call) (hlate : LateInsertion p.shared call reply) :
    ¬ OnePending (callTurn env p.shared call reply).1 := by
  obtain ⟨s, r, rfl, hzero, rfl, hreply, hpending⟩ := hlate
  intro hone
  have hcreate : (callTurn env p.shared (.insert s) (.db r)).1 =
      createRetryRecord p.shared s.params (s.index + 1)
        (s.startedAt + s.delays.getD s.index 0) := by
    rw [callTurn, execute, if_neg hreply]
  rw [hcreate, hzero] at hone
  obtain ⟨id, hid⟩ := ((h.each i _ hcall).2 _ _ rfl).1 (.inr hpending)
  have hsame : id = p.shared.nextId := hone _ _ _ _ _
    ((pendingAt_create h.shared.1).2 (.inl hid))
    ((pendingAt_create h.shared.1).2 (.inr ⟨rfl, rfl, rfl, rfl⟩))
  exact (hid.lt h.shared.1).ne hsame

variable {inputs : List Input}

/-- **When retries are scheduled once.** However calls of `enqueueRetries` interleave, there is at
most one pending row for each attempt in all states exactly if no call makes its first insertion
when there are pending rows of the pair. -/
theorem one_pending_iff (hfresh : FreshIds db) (hone : OnePending db)
    (hinputs : ∀ input ∈ inputs, OnlyEnqueues input) :
    Throughout (retryStep env) (fun p => OnePending p.shared) (.idle db) inputs ↔
      Along (retryStep env) (fun p input => ¬ InsertsLate p input) (.idle db) inputs := by
  refine throughout_iff_along_of_admitted EnqueueInv (fun _ input => OnlyEnqueues input)
    (fun p h => h.shared.2) (fun p input h hinput hlate => h.step hinput hlate)
    (fun p input h _ hgood hlate => ?_) (Pool.holds_idle ⟨hfresh, hone⟩)
    (along_of_forall_mem fun input hinput _ => hinputs input hinput)
  cases input with
  | enqueueRetries | cancelRetries | processRetryJob | elapse => exact hlate
  | answer i reply =>
    obtain ⟨call, hcall, hturn⟩ := hlate
    rw [retryStep, Pool.shared_resume, hcall] at hgood
    exact not_onePending_of_late h hcall hturn hgood

/-- An empty table. -/
def emptyRetryDb : RetryDb where
  retries := InsertionMap.empty
  nextId := 1
  now := 0
  escalations := []

/-- Two calls for one pair, both of which find it without pending rows before either inserts. -/
def sampleOverlap : List Input :=
  [.enqueueRetries ⟨"GSUB", "GMER", "100", "CTOKEN"⟩,
    .enqueueRetries ⟨"GSUB", "GMER", "100", "CTOKEN"⟩,
    .answer 0 (.db .done), .answer 1 (.db .done), .answer 0 (.db .done)]

theorem one_pending_sample :
    Throughout (retryStep none) (fun p => OnePending p.shared) (.idle emptyRetryDb)
        sampleOverlap ↔
      Along (retryStep none) (fun p input => ¬ InsertsLate p input) (.idle emptyRetryDb)
        sampleOverlap := by
  refine one_pending_iff (fun id row hget => ?_) (fun _ _ _ _ _ hpending => ?_) (by decide)
  · cases hget
  · obtain ⟨row, hget, -⟩ := hpending
    cases hget

/-- The second call inserts another row for the first attempt. -/
theorem not_one_pending_overlap :
    ¬ Throughout (retryStep none) (fun p => OnePending p.shared) (.idle emptyRetryDb)
      (sampleOverlap ++ [.answer 1 (.db .done)]) := by
  intro h
  have hone : OnePending (after (retryStep none) (.idle emptyRetryDb)
      (sampleOverlap ++ [.answer 1 (.db .done)])).shared := h _ [] (List.append_nil _).symm
  have hfirst : PendingAt (after (retryStep none) (.idle emptyRetryDb)
      (sampleOverlap ++ [.answer 1 (.db .done)])).shared 1 "GSUB" "GMER" 1 :=
    ⟨_, rfl, by decide, by decide, by decide, by decide⟩
  have hsecond : PendingAt (after (retryStep none) (.idle emptyRetryDb)
      (sampleOverlap ++ [.answer 1 (.db .done)])).shared 2 "GSUB" "GMER" 1 :=
    ⟨_, rfl, by decide, by decide, by decide, by decide⟩
  exact absurd (hone 1 2 _ _ _ hfirst hsecond) (by decide)

end SorobanPay.RetryQueue
