import Mathlib.Algebra.Order.BigOperators.Group.List
import SorobanPay.Backend.SmsService
import SorobanPay.Foundation.Run

/-!
# The limits of the SMS service

However the calls of `sendSms` interleave, the limits of the service hold in every run with a clock
that does not go back (`smsLimits`). The rate limiter asks and records in one step, and what it has
forgotten of a user is never recent again, so it is a limiter with a sliding window
(`Limited.step`). A call whose number has opted out is stopped at its first step, and then whatever
happens to the number afterwards does not matter (`Stopped.no_message`).

## Main definitions

* `admittedTimes`: when messages of a user have been admitted.
* `beforeCheck`: what happens before a call looks whether the number has opted out.
* `SmsLimits`: the limits of the service.

## Main results

* `asked_smsStep`: what a step does about the rate limiter.
* `limited_after`: the times that the rate limiter keeps are enough.
* `smsLimits`: the limits hold.
-/

set_option autoImplicit false

namespace SorobanPay.Sms

open Foundation

/-! ### The limits -/

/-- The time at which a message of the user is admitted. -/
def SmsNote.admittedAt? (userId : String) : SmsNote → Option ℕ
  | .admitted user now => if user = userId then some now else none
  | .refused .. | .message .. => none

/-- The times at which messages of the user have been admitted. -/
def admittedTimes (userId : String) (notes : List SmsNote) : List ℕ :=
  notes.filterMap (SmsNote.admittedAt? userId)

/-- The step of a call. -/
def SmsAct.isTurn (i : ℕ) : SmsAct → Bool
  | .turn j _ => j = i
  | _ => false

/-- What happens before the first step of a call, in which it looks whether the number has opted
out. -/
def beforeCheck (i : ℕ) (inputs : List (ℕ × SmsAct)) : List (ℕ × SmsAct) :=
  inputs.takeWhile fun input => !input.2.isTurn i

/-- The process starts, and the rate limiter knows of no message. -/
def SmsState.restart (state : SmsState) : SmsState := { state with rateLimitMap := .empty }

/-- The limits of the service, in a run from a state. -/
structure SmsLimits (config : SmsConfig) (state : SmsState) (inputs : List (ℕ × SmsAct)) :
    Prop where
  /-- No hour that contains its beginning but not its end has more than five messages of a user. -/
  window : ∀ userId start,
    (admittedTimes userId (history (smsStep config) smsNotes (.idle state) inputs)).countP
      (fun t => start ≤ t ∧ t < start + rateLimitWindowMs) ≤ rateLimitMax
  /-- Nor has an hour that contains its end but not its beginning. -/
  windowUpTo : ∀ userId start,
    (admittedTimes userId (history (smsStep config) smsNotes (.idle state) inputs)).countP
      (fun t => start < t ∧ t ≤ start + rateLimitWindowMs) ≤ rateLimitMax
  /-- When a message of a user is refused, five have been admitted in the hour before. -/
  refused : ∀ userId now pre post,
    history (smsStep config) smsNotes (.idle state) inputs = pre ++ .refused userId now :: post →
      (admittedTimes userId pre).countP (fun t => t ≤ now ∧ now < t + rateLimitWindowMs) =
        rateLimitMax
  /-- A call to a number that has opted out before sends nothing, if the number does not opt in
  again before the call looks. -/
  optOut : ∀ before now options later, inputs = before ++ (now, .send options) :: later →
    (after (smsStep config) (.idle state) before).shared.isOptedOut options.to = true →
      (∀ input ∈ beforeCheck (after (smsStep config) (.idle state) before).calls.length later,
        input.2 ≠ .removeOptOut options.to) →
      ∀ number body, .message (after (smsStep config) (.idle state) before).calls.length number body
        ∉ history (smsStep config) smsNotes (.idle state) inputs

variable {config : SmsConfig} {p p' : SmsPool} {userId : String} {now now' : ℕ} {times : List ℕ}
  {notes : List SmsNote} {input : ℕ × SmsAct} {inputs : List (ℕ × SmsAct)}

/-! ### The rate limiter -/

/-- What a step does about the rate limiter. -/
inductive Asked (p p' : SmsPool) (now : ℕ) (notes : List SmsNote) : Prop
  | nothing (hsame : p'.shared.rateLimitMap = p.shared.rateLimitMap)
      (hnotes : ∀ note ∈ notes, ∃ i number body, note = .message i number body)
  | refused (userId : String)
      (hfull : rateLimitMax ≤ (recent rateLimitWindowMs now (p.shared.times userId)).length)
      (hsame : p'.shared.rateLimitMap = p.shared.rateLimitMap)
      (hnotes : notes = [.refused userId now])
  | admitted (userId : String)
      (hfree : (recent rateLimitWindowMs now (p.shared.times userId)).length < rateLimitMax)
      (hmap : p'.shared.rateLimitMap = p.shared.rateLimitMap.set userId
        (recent rateLimitWindowMs now (p.shared.times userId) ++ [now]))
      (hnotes : notes = [.admitted userId now])

theorem asked_of_unchanged (hsame : p'.shared.rateLimitMap = p.shared.rateLimitMap)
    (hnotes : notes = []) : Asked p p' now notes :=
  .nothing hsame (by simp [hnotes])

theorem asked_smsStep (config : SmsConfig) (p : SmsPool) (input : ℕ × SmsAct) :
    Asked p (smsStep config p input) input.1 (smsNotes p input) := by
  obtain ⟨now, act⟩ := input
  cases act with
  | send options => exact asked_of_unchanged rfl rfl
  | recordOptOut phoneNumber userId =>
    refine asked_of_unchanged ?_ rfl
    dsimp only [smsStep, Pool.act, recordOptOut]
    split_ifs <;> rfl
  | removeOptOut phoneNumber => exact asked_of_unchanged rfl rfl
  | turn i answer =>
    rcases hcall : p.calls[i]? with _ | ⟨options, stage⟩
    · have hsame : smsStep config p (now, .turn i answer) = p := Pool.resume_of_none hcall
      exact asked_of_unchanged (by rw [hsame]) (by simp only [smsNotes, hcall])
    · have hstep : (smsStep config p (now, .turn i answer)).shared =
          (smsTurn config p.shared ⟨options, stage⟩ (now, answer)).1 :=
        congrArg Pool.shared (Pool.resume_of_some hcall)
      cases stage with
      | starting =>
        refine asked_of_unchanged ?_ (by simp only [smsNotes, hcall])
        rw [hstep, smsTurn]
        cases resolveBody options <;> rfl
      | looked body optedOut =>
        cases optedOut with
        | true => exact asked_of_unchanged (by rw [hstep]; rfl) (by simp only [smsNotes, hcall])
        | false =>
          by_cases hfull : rateLimitMax ≤
              (recent rateLimitWindowMs now (p.shared.times options.userId)).length
          · refine .refused options.userId hfull ?_ ?_
            · simp only [hstep, smsTurn, checkRateLimit, if_pos hfull]
            · simp [smsNotes, hcall, checkRateLimit, if_pos hfull]
          · refine .admitted options.userId (Nat.lt_of_not_le hfull) ?_ ?_
            · simp only [hstep, smsTurn, checkRateLimit, if_neg hfull]
            · simp [smsNotes, hcall, checkRateLimit, if_neg hfull]
      | queued body log => exact .nothing (by rw [hstep]; rfl) (by simp [smsNotes, hcall])
      | answered log result =>
        refine asked_of_unchanged ?_ (by simp only [smsNotes, hcall])
        rw [hstep]
        cases result <;> rfl
      | limited | admitted | finished | thrown =>
        exact asked_of_unchanged (by rw [hstep]; rfl) (by simp only [smsNotes, hcall])

/-- A refusal is all that its step shows, and the limiter keeps five recent times of the user. -/
theorem full_of_refused (config : SmsConfig) {os os' : List SmsNote}
    (h : smsNotes p input = os ++ .refused userId now :: os') : os = [] ∧ now = input.1 ∧
      rateLimitMax ≤ (recent rateLimitWindowMs input.1 (p.shared.times userId)).length := by
  have hmem : .refused userId now ∈ smsNotes p input := by
    rw [h]
    exact List.mem_append_right _ List.mem_cons_self
  cases asked_smsStep config p input with
  | nothing hsame hmessages =>
    obtain ⟨_, _, _, hmessage⟩ := hmessages _ hmem
    exact absurd hmessage (by simp)
  | admitted user hfree hmap hadmitted =>
    rw [hadmitted] at hmem
    exact absurd (List.mem_singleton.1 hmem) (by simp)
  | refused user hfull hsame hrefused =>
    rw [hrefused] at h hmem
    obtain ⟨rfl, rfl⟩ : userId = user ∧ now = input.1 := by simpa using hmem
    refine ⟨?_, rfl, hfull⟩
    cases os with
    | nil => rfl
    | cons o os => simp at h

/-- The times that are kept for a user serve as well as those at which the messages of the user have
been admitted. -/
structure Limited (userId : String) (now : ℕ) (p : SmsPool) (times : List ℕ) : Prop where
  retains : Retains rateLimitWindowMs now (p.shared.times userId) times
  spaced : Spaced rateLimitWindowMs rateLimitMax times
  past : ∀ t ∈ times, t ≤ now

namespace Limited

theorem mono (h : Limited userId now p times) (hle : now ≤ now') : Limited userId now' p times :=
  ⟨h.retains.mono hle, h.spaced, fun t ht => (h.past t ht).trans hle⟩

theorem length_recent (h : Limited userId now p times) :
    (recent rateLimitWindowMs now (p.shared.times userId)).length =
      times.countP fun t => t ≤ now ∧ now < t + rateLimitWindowMs := by
  rw [h.retains.recent_eq, recent, ← List.countP_eq_length_filter]
  refine List.countP_congr fun t ht => ?_
  simp [h.past t ht]

theorem length_recent_le (h : Limited userId now p times) :
    (recent rateLimitWindowMs now (p.shared.times userId)).length ≤ rateLimitMax := by
  rw [h.length_recent]
  refine h.spaced.countP_le fun s t hs ht => ?_
  simp only [decide_eq_true_eq] at hs ht
  omega

/-- Nothing changes for a user whom the rate limiter is not asked about, or refuses. -/
theorem unchanged (h : Limited userId now p times) (htimes : p'.shared.times userId =
    p.shared.times userId) (hnone : admittedTimes userId notes = []) :
    Limited userId now p' (times ++ admittedTimes userId notes) := by
  rw [hnone, List.append_nil]
  exact ⟨htimes ▸ h.retains, h.spaced, h.past⟩

/-- A message of the user is admitted. -/
theorem concat (h : Limited userId now p times)
    (hfree : (recent rateLimitWindowMs now (p.shared.times userId)).length < rateLimitMax)
    (htimes : p'.shared.times userId =
      recent rateLimitWindowMs now (p.shared.times userId) ++ [now]) :
    Limited userId now p' (times ++ [now]) := by
  refine ⟨htimes ▸ h.retains.concat, spaced_append_singleton.2 ⟨h.spaced, ?_⟩, fun t ht => ?_⟩
  · rwa [← h.retains.recent_eq]
  · rcases List.mem_append.1 ht with ht | ht
    · exact h.past t ht
    · exact (List.mem_singleton.1 ht).le

/-- **One step of the service**, as the rate limiter sees it. -/
theorem step (config : SmsConfig) (h : Limited userId now p times) (hle : now ≤ input.1) :
    Limited userId input.1 (smsStep config p input)
      (times ++ admittedTimes userId (smsNotes p input)) := by
  have h := h.mono hle
  have hasked := asked_smsStep config p input
  generalize smsStep config p input = p' at hasked ⊢
  generalize smsNotes p input = notes at hasked ⊢
  cases hasked with
  | nothing hsame hnotes =>
    refine h.unchanged (by rw [SmsState.times, hsame, SmsState.times]) ?_
    refine List.filterMap_eq_nil_iff.2 fun note hnote => ?_
    obtain ⟨i, number, body, rfl⟩ := hnotes note hnote
    rfl
  | refused user hfull hsame hnotes =>
    exact h.unchanged (by rw [SmsState.times, hsame, SmsState.times]) (by rw [hnotes]; rfl)
  | admitted user hfree hmap hnotes =>
    by_cases huser : user = userId
    · subst huser
      have hadmitted : admittedTimes user notes = [input.1] := by
        simp [hnotes, admittedTimes, SmsNote.admittedAt?]
      rw [hadmitted]
      refine h.concat hfree ?_
      rw [SmsState.times, hmap, InsertionMap.get_set, if_pos rfl, Option.getD_some]
    · refine h.unchanged ?_ (by simp [hnotes, admittedTimes, SmsNote.admittedAt?, huser])
      rw [SmsState.times, hmap, InsertionMap.get_set, if_neg (Ne.symm huser), SmsState.times]

end Limited

/-- **Runs, as the rate limiter sees them.** -/
theorem limited_after (config : SmsConfig) (state : SmsState) (userId : String)
    (hclock : inputs.Pairwise fun input input' => input.1 ≤ input'.1)
    (hnow : ∀ input ∈ inputs, input.1 ≤ now) :
    Limited userId now (after (smsStep config) (.idle state.restart) inputs)
      (admittedTimes userId (history (smsStep config) smsNotes (.idle state.restart) inputs)) := by
  induction inputs using List.reverseRecOn generalizing now with
  | nil => exact ⟨Retains.refl _ _ _, spaced_nil, by simp [admittedTimes]⟩
  | append_singleton inputs input ih =>
    obtain ⟨hclock, -, hlast⟩ := List.pairwise_append.1 hclock
    have hbefore := ih hclock fun earlier h => hlast earlier h input List.mem_cons_self
    have hstep := hbefore.step config le_rfl
    rw [after_append, history_append, admittedTimes, List.filterMap_append, history_cons,
      history_nil, List.append_nil]
    exact hstep.mono (hnow input (by simp))

/-! ### Opting out -/

theorem isOptedOut_recordOptOut {state : SmsState} {number : String}
    (h : state.isOptedOut number = true) (phoneNumber : String) (userId : Option String) :
    (recordOptOut state phoneNumber userId).isOptedOut number = true := by
  rw [recordOptOut]
  split_ifs
  · exact h
  · rw [SmsState.isOptedOut, InsertionMap.get_set]
    split_ifs
    · rfl
    · exact h

theorem isOptedOut_removeOptOut {state : SmsState} {number phoneNumber : String}
    (h : state.isOptedOut number = true) (hne : phoneNumber ≠ number) :
    (removeOptOut state phoneNumber).isOptedOut number = true := by
  rw [SmsState.isOptedOut, removeOptOut, InsertionMap.get_erase, if_neg hne.symm]
  exact h

/-- No step of a call touches the numbers that have opted out. -/
theorem optOuts_smsTurn (config : SmsConfig) (state : SmsState) (call : SmsCall)
    (input : ℕ × Except String String) :
    (smsTurn config state call input).1.optOuts = state.optOuts := by
  obtain ⟨options, stage⟩ := call
  cases stage with
  | starting =>
    rw [smsTurn]
    cases resolveBody options <;> rfl
  | looked body optedOut =>
    cases optedOut with
    | true => rfl
    | false =>
      rw [smsTurn, checkRateLimit]
      split_ifs <;> rfl
  | answered log result => cases result <;> rfl
  | limited | admitted | queued | finished | thrown => rfl

/-- A message is handed over by a step of its call. -/
theorem exists_of_message {i : ℕ} {number body : String}
    (h : .message i number body ∈ smsNotes p input) : ∃ answer options text log,
      input.2 = .turn i answer ∧ p.calls[i]? = some ⟨options, .queued text log⟩ := by
  obtain ⟨now, act⟩ := input
  cases act with
  | send | recordOptOut | removeOptOut => simp [smsNotes] at h
  | turn j answer =>
    rcases hcall : p.calls[j]? with _ | ⟨options, stage⟩
    · simp [smsNotes, hcall] at h
    · cases stage with
      | queued text log =>
        obtain ⟨rfl, -, -⟩ : i = j ∧ number = options.to ∧ body = text := by
          simpa [smsNotes, hcall] using h
        exact ⟨answer, options, text, log, rfl, hcall⟩
      | looked text optedOut =>
        cases optedOut with
        | true => simp [smsNotes, hcall] at h
        | false =>
          simp only [smsNotes, hcall] at h
          split_ifs at h <;> simp at h
      | starting | limited | admitted | answered | finished | thrown =>
        simp [smsNotes, hcall] at h

/-- A call that has been made is there after a step that is not its own. -/
theorem getElem?_smsStep {i : ℕ} {call : SmsCall} (hcall : p.calls[i]? = some call)
    (hturn : input.2.isTurn i = false) : (smsStep config p input).calls[i]? = some call := by
  obtain ⟨now, act⟩ := input
  cases act with
  | send options => exact Pool.getElem?_start_of_some hcall
  | recordOptOut | removeOptOut => exact hcall
  | turn j answer =>
    have hne : j ≠ i := of_decide_eq_false hturn
    exact (Pool.getElem?_resume_of_ne hne).trans hcall

/-- Calls are not taken back. -/
theorem length_le_smsStep (config : SmsConfig) (p : SmsPool) (input : ℕ × SmsAct) :
    p.calls.length ≤ (smsStep config p input).calls.length := by
  obtain ⟨now, act⟩ := input
  cases act with
  | send options => simp [smsStep, Pool.start]
  | recordOptOut | removeOptOut => exact le_rfl
  | turn j answer => exact Pool.length_resume.ge

/-- The messages of a run are those of the calls that have been made. -/
theorem lt_length_of_message {i : ℕ} {number body : String}
    (h : .message i number body ∈ history (smsStep config) smsNotes p inputs) :
    i < (after (smsStep config) p inputs).calls.length := by
  induction inputs using List.reverseRecOn with
  | nil => simp at h
  | append_singleton inputs input ih =>
    rw [history_append, List.mem_append] at h
    rw [after_append, after_cons, after_nil]
    refine Nat.lt_of_lt_of_le ?_ (length_le_smsStep config _ input)
    rcases h with h | h
    · exact ih h
    · rw [history_cons, history_nil, List.append_nil] at h
      obtain ⟨_, _, _, _, -, hcall⟩ := exists_of_message h
      exact (List.getElem?_eq_some_iff.1 hcall).1

/-- The number of a call has opted out, and the call has yet to look. -/
structure Waiting (i : ℕ) (options : SendSmsOptions) (p : SmsPool) : Prop where
  call : p.calls[i]? = some ⟨options, .starting⟩
  optedOut : p.shared.isOptedOut options.to = true

/-- A call that comes to its end without a message. -/
def SmsStage.Stopped : SmsStage → Prop
  | .looked _ optedOut => optedOut = true
  | .finished _ | .thrown _ => True
  | .starting | .limited _ | .admitted _ | .queued .. | .answered .. => False

/-- The call has been stopped. -/
def Stopped (i : ℕ) (p : SmsPool) : Prop :=
  ∃ call, p.calls[i]? = some call ∧ call.stage.Stopped

variable {i : ℕ} {options : SendSmsOptions}

theorem Waiting.step (config : SmsConfig) (h : Waiting i options p)
    (hturn : input.2.isTurn i = false) (hkept : input.2 ≠ .removeOptOut options.to) :
    Waiting i options (smsStep config p input) := by
  refine ⟨getElem?_smsStep h.call hturn, ?_⟩
  obtain ⟨now, act⟩ := input
  cases act with
  | send options => exact h.optedOut
  | recordOptOut phoneNumber userId => exact isOptedOut_recordOptOut h.optedOut phoneNumber userId
  | removeOptOut phoneNumber =>
    exact isOptedOut_removeOptOut h.optedOut fun heq => hkept (congrArg SmsAct.removeOptOut heq)
  | turn j answer =>
    rcases hcall : p.calls[j]? with _ | call
    · rw [smsStep_turn, Pool.resume_of_none hcall]
      exact h.optedOut
    · rw [smsStep_turn, Pool.resume_of_some hcall, SmsState.isOptedOut, optOuts_smsTurn]
      exact h.optedOut

/-- A call whose number has opted out is stopped when it looks. -/
theorem Waiting.turn (config : SmsConfig) (h : Waiting i options p)
    (hturn : input.2.isTurn i = true) : Stopped i (smsStep config p input) := by
  obtain ⟨now, act⟩ := input
  cases act with
  | send | recordOptOut | removeOptOut => exact absurd hturn Bool.false_ne_true
  | turn j answer =>
    obtain rfl : j = i := of_decide_eq_true hturn
    refine ⟨_, Pool.getElem?_resume_self h.call, ?_⟩
    rw [smsTurn]
    cases resolveBody options with
    | text body => exact h.optedOut
    | refused error => trivial
    | thrown error => trivial

/-- **A call that has been stopped remains so.** -/
theorem Stopped.step (config : SmsConfig) (h : Stopped i p) :
    Stopped i (smsStep config p input) := by
  obtain ⟨⟨options, stage⟩, hcall, hstage⟩ := h
  cases hturn : input.2.isTurn i with
  | false => exact ⟨_, getElem?_smsStep hcall hturn, hstage⟩
  | true =>
    obtain ⟨now, act⟩ := input
    cases act with
    | send | recordOptOut | removeOptOut => exact absurd hturn Bool.false_ne_true
    | turn j answer =>
      obtain rfl : j = i := of_decide_eq_true hturn
      refine ⟨_, Pool.getElem?_resume_self hcall, ?_⟩
      cases stage with
      | looked body optedOut =>
        obtain rfl : optedOut = true := hstage
        trivial
      | finished result => trivial
      | thrown error => trivial
      | starting | limited | admitted | queued | answered => exact absurd hstage not_false

/-- A stopped call sends nothing. -/
theorem Stopped.no_message (config : SmsConfig) (h : Stopped i p) {number body : String} :
    .message i number body ∉ history (smsStep config) smsNotes p inputs := by
  have hstep : ∀ (q : SmsPool) (input : ℕ × SmsAct), True → Stopped i q →
      Stopped i (smsStep config q input) ∧
        ∀ note ∈ smsNotes q input, note ≠ .message i number body := by
    rintro q input - hq
    refine ⟨hq.step config, ?_⟩
    rintro note hnote rfl
    obtain ⟨call, hcall, hstage⟩ := hq
    obtain ⟨_, options, text, log, -, hqueued⟩ := exists_of_message hnote
    obtain rfl := Option.some.inj (hcall.symm.trans hqueued)
    exact hstage
  exact fun hmessage => (after_history_of_invariant hstep (fun _ _ => trivial) h).2 _ hmessage rfl

/-- A call that has yet to look sends nothing, if its number does not opt in again before it
looks. -/
theorem Waiting.no_message (config : SmsConfig) (h : Waiting i options p)
    (hkept : ∀ input ∈ beforeCheck i inputs, input.2 ≠ .removeOptOut options.to)
    {number body : String} :
    .message i number body ∉ history (smsStep config) smsNotes p inputs := by
  induction inputs generalizing p with
  | nil => simp
  | cons input inputs ih =>
    rw [history_cons, List.mem_append, not_or]
    constructor
    · intro hmessage
      obtain ⟨_, _, _, _, -, hqueued⟩ := exists_of_message hmessage
      simpa using h.call.symm.trans hqueued
    · cases hturn : input.2.isTurn i with
      | true => exact (h.turn config hturn).no_message config
      | false =>
        have hcheck : beforeCheck i (input :: inputs) = input :: beforeCheck i inputs := by
          rw [beforeCheck, List.takeWhile_cons, hturn]
          rfl
        rw [hcheck] at hkept
        refine ih (h.step config hturn (hkept input List.mem_cons_self)) ?_
        exact fun later hlater => hkept later (List.mem_cons_of_mem _ hlater)

/-! ### The limits hold -/

/-- **The limits of the service hold** in every run of a process with a clock that does not go
back, however its calls interleave. -/
theorem smsLimits (config : SmsConfig) (state : SmsState) (inputs : List (ℕ × SmsAct))
    (hclock : inputs.Pairwise fun input input' => input.1 ≤ input'.1) :
    SmsLimits config state.restart inputs := by
  have hspaced : ∀ userId, Spaced rateLimitWindowMs rateLimitMax
      (admittedTimes userId (history (smsStep config) smsNotes (.idle state.restart) inputs)) := by
    intro userId
    have hnow : ∀ input ∈ inputs, input.1 ≤ (inputs.map Prod.fst).sum := fun input h =>
      List.le_sum_of_mem (List.mem_map_of_mem h)
    exact (limited_after config state userId hclock hnow).spaced
  refine ⟨fun userId start => ?_, fun userId start => ?_, fun userId now pre post hrun => ?_, ?_⟩
  · refine (hspaced userId).countP_le fun s t hs ht => ?_
    simp only [decide_eq_true_eq] at hs ht
    omega
  · refine (hspaced userId).countP_le fun s t hs ht => ?_
    simp only [decide_eq_true_eq] at hs ht
    omega
  · obtain ⟨before, input, later, os, rfl, rfl, os', hnotes⟩ := exists_of_history_eq hrun
    obtain ⟨hbefore, -, hlast⟩ := List.pairwise_append.1 hclock
    have hlimited := limited_after config state userId hbefore fun earlier h =>
      hlast earlier h input List.mem_cons_self
    obtain ⟨rfl, rfl, hfull⟩ := full_of_refused config hnotes
    rw [List.append_nil, ← hlimited.length_recent]
    exact le_antisymm (hlimited.length_recent_le) hfull
  · rintro before now options later rfl hout hkept number body
    rw [history_append, List.mem_append, not_or]
    refine ⟨fun hmessage => absurd (lt_length_of_message hmessage) (Nat.lt_irrefl _), ?_⟩
    rw [history_cons, List.mem_append, not_or]
    have hnew : Waiting (after (smsStep config) (.idle state.restart) before).calls.length options
        (smsStep config (after (smsStep config) (.idle state.restart) before)
          (now, .send options)) :=
      ⟨by simp [smsStep, Pool.start], hout⟩
    exact ⟨by simp [smsNotes], hnew.no_message config hkept⟩

/-! ### A sample -/

/-- A message with a text of its own. -/
def sampleMessage : SendSmsOptions := ⟨"+1", "u", none, [], some "text"⟩

/-- A user is sent six messages within six milliseconds. -/
def sampleInputs : List (ℕ × SmsAct) :=
  (List.range 6).flatMap fun i =>
    [(i, .send sampleMessage), (i, .turn i (.ok "id")), (i, .turn i (.ok "id"))]

/-- The last of the messages is refused, and the limits hold. -/
theorem smsLimits_sample :
    history (smsStep ⟨.twilio, true⟩) smsNotes (.idle ⟨.empty, .empty, .empty, 1⟩) sampleInputs =
      [.admitted "u" 0, .admitted "u" 1, .admitted "u" 2, .admitted "u" 3, .admitted "u" 4,
        .refused "u" 5] ∧
    SmsLimits ⟨.twilio, true⟩ (SmsState.restart ⟨.empty, .empty, .empty, 1⟩) sampleInputs :=
  ⟨by decide, smsLimits _ _ _ (by decide)⟩

end SorobanPay.Sms
