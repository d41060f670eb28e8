import SorobanPay.Foundation.Run

/-!
# The circuit breaker

`lib/redis.ts` guards Redis with a circuit breaker. Each caller asks it by `allowCall`, and one that
is admitted reports how its call has ended. When the breaker has been open for some time it becomes
half-open, and one call is to probe whether Redis is back. But the breaker does not know which call
is the probe: it admits every caller while it is half-open, and closes at any success.
`single_probe_iff` says in which runs there is one probe at a time.

The state `open` of the source is `opened` here.

## Main definitions

* `CircuitBreaker`: the breaker.
* `callerStep`: callers that overlap.
* `SingleProbe`: no call is admitted while a probe is under way, and only probes close the breaker.
* `Undisturbed`: the steps for which this holds.

## Main results

* `after_withFallback`: a call that runs by itself does what `withFallback` says.
* `single_probe_iff`: when there is one probe at a time.
-/

set_option autoImplicit false

namespace SorobanPay.Redis

open Foundation

/-! ### The breaker -/

inductive CircuitState
  | closed
  | opened
  | halfOpen
  deriving DecidableEq, Repr

structure CircuitBreaker where
  state : CircuitState := .closed
  failures : ℕ := 0
  lastFailureAt : ℕ := 0
  failureThreshold : ℕ := 3
  recoveryWindowMs : ℕ := 10000
  deriving DecidableEq, Repr

namespace CircuitBreaker

/-- The recovery window is over. -/
def Rested (b : CircuitBreaker) (now : ℕ) : Prop := b.lastFailureAt + b.recoveryWindowMs ≤ now

instance (b : CircuitBreaker) (now : ℕ) : Decidable (b.Rested now) :=
  inferInstanceAs (Decidable (_ ≤ _))

def allowCall (b : CircuitBreaker) (now : ℕ) : CircuitBreaker × Bool :=
  match b.state with
  | .closed => (b, true)
  | .opened => if b.Rested now then ({ b with state := .halfOpen }, true) else (b, false)
  | .halfOpen => (b, true)

def onSuccess (b : CircuitBreaker) : CircuitBreaker := { b with state := .closed, failures := 0 }

def onFailure (b : CircuitBreaker) (now : ℕ) : CircuitBreaker :=
  { b with
    failures := b.failures + 1
    lastFailureAt := now
    state :=
      if b.state = .halfOpen ∨ b.failureThreshold ≤ b.failures + 1 then .opened else b.state }

end CircuitBreaker

/-! ### Callers -/

/-- A call that has been admitted: it is under way, as the probe with which the breaker has left
`open` or as another call, or it has reported. -/
inductive Admitted
  | waiting (probe : Bool)
  | reported
  deriving DecidableEq, Repr

/-- The breaker, the clock, and the calls that have been admitted. -/
structure Callers where
  breaker : CircuitBreaker
  now : ℕ
  calls : List Admitted
  deriving DecidableEq, Repr

/-- What can happen next: a caller asks, a call reports its outcome, or time passes. -/
inductive CallerInput
  | allowCall
  | report (i : ℕ) (success : Bool)
  | elapse (ms : ℕ)
  deriving DecidableEq, Repr

def callerStep (s : Callers) : CallerInput → Callers
  | .allowCall =>
    let asked := s.breaker.allowCall s.now
    { s with
      breaker := asked.1
      calls := s.calls ++ if asked.2 then [.waiting (decide (s.breaker.state = .opened))] else [] }
  | .report i success =>
    match s.calls[i]? with
    | some (.waiting _) =>
      { s with
        breaker := if success then s.breaker.onSuccess else s.breaker.onFailure s.now
        calls := s.calls.set i .reported }
    | some .reported | none => s
  | .elapse ms => { s with now := s.now + ms }

/-- `withFallback` for a call that runs by itself: it is asked at `now`, and takes so long. -/
def withFallback {T : Type} (b : CircuitBreaker) (now elapsed : ℕ) (result : Except String T)
    (fallback : T) : CircuitBreaker × T :=
  let asked := b.allowCall now
  if asked.2 then
    match result with
    | .ok value => (asked.1.onSuccess, value)
    | .error _ => (asked.1.onFailure (now + elapsed), fallback)
  else (asked.1, fallback)

/-! ### One probe -/

/-- No call is admitted while a probe is under way, and the breaker is closed by a probe only. -/
def SingleProbe (s : Callers) (input : CallerInput) : Prop :=
  (input = .allowCall → (s.breaker.allowCall s.now).2 = true → .waiting true ∉ s.calls) ∧
    ∀ i success, input = .report i success → s.breaker.state ≠ .closed →
      (callerStep s input).breaker.state = .closed → s.calls[i]? = some (.waiting true)

/-- No caller asks while the breaker is half-open, or when it could leave `open` again while its
probe is still under way; and no other call reports a success unless the breaker is closed. -/
def Undisturbed (s : Callers) : CallerInput → Prop
  | .allowCall => s.breaker.state ≠ .halfOpen ∧
      (s.breaker.state = .opened → s.breaker.Rested s.now → .waiting true ∉ s.calls)
  | .report i true => s.calls[i]? = some (.waiting false) → s.breaker.state = .closed
  | .report _ false | .elapse _ => True

/-! ### What the breaker does -/

variable {b : CircuitBreaker} {s : Callers} {now i : ℕ} {probe success : Bool}

namespace CircuitBreaker

theorem allowCall_of_closed (h : b.state = .closed) : b.allowCall now = (b, true) := by
  simp only [allowCall, h]

theorem allowCall_of_halfOpen (h : b.state = .halfOpen) : b.allowCall now = (b, true) := by
  simp only [allowCall, h]

theorem allowCall_of_opened (h : b.state = .opened) : b.allowCall now =
    if b.Rested now then ({ b with state := .halfOpen }, true) else (b, false) := by
  simp only [allowCall, h]

/-- A failure neither closes the breaker nor leaves it half-open. -/
theorem state_onFailure (b : CircuitBreaker) (now : ℕ) : (b.onFailure now).state = .opened ∨
    (b.onFailure now).state = .closed ∧ b.state = .closed := by
  unfold onFailure
  dsimp only
  split_ifs with hopens
  · exact .inl rfl
  · cases hstate : b.state with
    | closed => exact .inr ⟨rfl, rfl⟩
    | opened => exact .inl rfl
    | halfOpen => exact absurd (.inl hstate) hopens

end CircuitBreaker

theorem callerStep_report (h : s.calls[i]? = some (.waiting probe)) :
    callerStep s (.report i success) =
      { s with
        breaker := if success then s.breaker.onSuccess else s.breaker.onFailure s.now
        calls := s.calls.set i .reported } := by
  simp only [callerStep, h]

theorem callerStep_report_of_not (h : ∀ probe, s.calls[i]? ≠ some (.waiting probe)) :
    callerStep s (.report i success) = s := by
  cases hcall : s.calls[i]? with
  | none => simp only [callerStep, hcall]
  | some call =>
    cases call with
    | reported => simp only [callerStep, hcall]
    | waiting probe => exact absurd hcall (h probe)

/-- A call that runs by itself does what `withFallback` says. -/
theorem after_withFallback {T : Type} (b : CircuitBreaker) (now elapsed : ℕ)
    (result : Except String T) (fallback : T) :
    (after callerStep ⟨b, now, []⟩ [.allowCall, .elapse elapsed, .report 0 result.isOk]).breaker =
      (withFallback b now elapsed result fallback).1 := by
  unfold withFallback
  simp only [after_cons, after_nil, callerStep]
  cases hasked : (b.allowCall now).2 with
  | false => simp
  | true => cases result <;> simp [Except.isOk, Except.toBool]

/-! ### Invariants -/

/-- A probe is under way while the breaker is half-open, none while it is closed, and never two. -/
structure Callers.Sound (s : Callers) : Prop where
  halfOpen : s.breaker.state = .halfOpen → .waiting true ∈ s.calls
  closed : s.breaker.state = .closed → .waiting true ∉ s.calls
  count_le : s.calls.count (.waiting true) ≤ 1

/-- The number of probes under way when a call has reported. -/
theorem count_set_reported (h : s.calls[i]? = some (.waiting probe)) :
    (s.calls.set i .reported).count (.waiting true) =
      s.calls.count (.waiting true) - if probe then 1 else 0 := by
  obtain ⟨hlt, hget⟩ := List.getElem?_eq_some_iff.1 h
  rw [List.count_set hlt, hget]
  cases probe <;> simp

namespace Callers.Sound

theorem allowCall (h : s.Sound) (hundisturbed : Undisturbed s .allowCall) :
    (callerStep s .allowCall).Sound := by
  unfold callerStep
  cases hstate : s.breaker.state with
  | halfOpen => exact absurd hstate hundisturbed.1
  | closed =>
    have hnone : .waiting true ∉ s.calls := h.closed hstate
    simp only [CircuitBreaker.allowCall_of_closed hstate]
    refine ⟨fun hhalf => ?_, fun _ => ?_, ?_⟩
    · exact absurd (hstate.symm.trans hhalf) (by decide)
    · simpa using hnone
    · simpa using h.count_le
  | opened =>
    rw [CircuitBreaker.allowCall_of_opened hstate]
    by_cases hrested : s.breaker.Rested s.now
    · have hnone : .waiting true ∉ s.calls := hundisturbed.2 hstate hrested
      simp only [if_pos hrested]
      refine ⟨fun _ => by simp, fun hclosed => by simp at hclosed, ?_⟩
      simp [List.count_append, List.count_eq_zero_of_not_mem hnone]
    · simp only [if_neg hrested, Bool.false_eq_true, if_false, List.append_nil]
      exact ⟨h.halfOpen, h.closed, h.count_le⟩

theorem report (h : s.Sound) (hundisturbed : Undisturbed s (.report i success)) :
    (callerStep s (.report i success)).Sound := by
  by_cases hwaiting : ∃ probe, s.calls[i]? = some (.waiting probe)
  · obtain ⟨probe, hget⟩ := hwaiting
    have hcount := count_set_reported hget
    have hle := h.count_le
    have hclosed : (if success then s.breaker.onSuccess else s.breaker.onFailure s.now).state =
        .closed → s.calls.count (.waiting true) - (if probe then 1 else 0) = 0 := by
      intro hstate
      by_cases hbefore : s.breaker.state = .closed
      · rw [List.count_eq_zero_of_not_mem (h.closed hbefore), Nat.zero_sub]
      · cases success with
        | false =>
          rcases s.breaker.state_onFailure s.now with hopened | ⟨-, hclosed⟩
          · exact absurd (hopened.symm.trans hstate) (by decide)
          · exact absurd hclosed hbefore
        | true =>
          cases probe with
          | false => exact absurd (hundisturbed hget) hbefore
          | true => exact Nat.sub_eq_zero_of_le hle
    rw [callerStep_report hget]
    refine ⟨fun hhalf => ?_, fun hstate => ?_, ?_⟩
    · cases success with
      | true => exact absurd hhalf (by simp [CircuitBreaker.onSuccess])
      | false =>
        rcases s.breaker.state_onFailure s.now with hopened | ⟨hclosed, -⟩
        · exact absurd (hopened.symm.trans hhalf) (by decide)
        · exact absurd (hclosed.symm.trans hhalf) (by decide)
    · exact List.count_eq_zero.1 (hcount.trans (hclosed hstate))
    · rw [hcount]
      exact (Nat.sub_le _ _).trans hle
  · rw [callerStep_report_of_not fun probe hget => hwaiting ⟨probe, hget⟩]
    exact h

theorem step (h : s.Sound) {input : CallerInput} (hundisturbed : Undisturbed s input) :
    (callerStep s input).Sound := by
  cases input with
  | allowCall => exact h.allowCall hundisturbed
  | report i success => exact h.report hundisturbed
  | elapse ms => exact ⟨h.halfOpen, h.closed, h.count_le⟩

end Callers.Sound

/-! ### When there is one probe -/

theorem singleProbe_allowCall_iff (h : s.Sound) :
    SingleProbe s .allowCall ↔ Undisturbed s .allowCall := by
  have hsingle : SingleProbe s .allowCall ↔
      ((s.breaker.allowCall s.now).2 = true → .waiting true ∉ s.calls) :=
    ⟨fun hs => hs.1 rfl, fun hs => ⟨fun _ => hs, nofun⟩⟩
  rw [hsingle]
  unfold Undisturbed
  cases hstate : s.breaker.state with
  | closed =>
    rw [CircuitBreaker.allowCall_of_closed hstate]
    exact iff_of_true (fun _ => h.closed hstate) ⟨by decide, nofun⟩
  | halfOpen =>
    rw [CircuitBreaker.allowCall_of_halfOpen hstate]
    exact iff_of_false (fun hs => hs rfl (h.halfOpen hstate)) fun hs => hs.1 rfl
  | opened =>
    rw [CircuitBreaker.allowCall_of_opened hstate]
    by_cases hrested : s.breaker.Rested s.now
    · rw [if_pos hrested]
      exact ⟨fun hs => ⟨by decide, fun _ _ => hs rfl⟩, fun hs _ => hs.2 rfl hrested⟩
    · rw [if_neg hrested]
      exact iff_of_true nofun ⟨by decide, fun _ hr => absurd hr hrested⟩

theorem singleProbe_report_iff :
    SingleProbe s (.report i success) ↔ Undisturbed s (.report i success) := by
  have hsingle : SingleProbe s (.report i success) ↔ (s.breaker.state ≠ .closed →
      (callerStep s (.report i success)).breaker.state = .closed →
        s.calls[i]? = some (.waiting true)) := by
    refine ⟨fun hs => hs.2 i success rfl, fun hs => ⟨nofun, fun j success' hinput => ?_⟩⟩
    cases hinput
    exact hs
  rw [hsingle]
  by_cases hwaiting : ∃ probe, s.calls[i]? = some (.waiting probe)
  · obtain ⟨probe, hget⟩ := hwaiting
    rw [callerStep_report hget]
    cases success with
    | false =>
      refine iff_of_true (fun hopen hclosed => ?_) trivial
      rcases s.breaker.state_onFailure s.now with hopened | ⟨-, hbefore⟩
      · exact absurd (hopened.symm.trans hclosed) (by decide)
      · exact absurd hbefore hopen
    | true =>
      have hcondition : Undisturbed s (.report i true) ↔
          (s.calls[i]? = some (.waiting false) → s.breaker.state = .closed) := Iff.rfl
      rw [hcondition, hget]
      cases probe with
      | true => exact iff_of_true (fun _ _ => rfl) fun hfalse => absurd hfalse (by decide)
      | false =>
        refine ⟨fun hs _ => not_not.1 fun hopen => ?_, fun hs hopen => absurd (hs rfl) hopen⟩
        exact absurd (hs hopen rfl) (by decide)
  · have hnot : ∀ probe, s.calls[i]? ≠ some (.waiting probe) := fun probe hget =>
      hwaiting ⟨probe, hget⟩
    rw [callerStep_report_of_not hnot]
    refine iff_of_true (fun hopen hclosed => absurd hclosed hopen) ?_
    cases success with
    | false => trivial
    | true => exact fun hget => absurd hget (hnot false)

/-- **One probe at a time.** However callers overlap, no call is admitted while a probe is under way
and only probes close the breaker exactly if, in all steps, no caller asks while the breaker is
half-open, or when it could leave `open` again while its probe is still under way, and no other call
reports a success unless the breaker is closed. -/
theorem single_probe_iff (failureThreshold recoveryWindowMs now : ℕ) (inputs : List CallerInput) :
    Along callerStep SingleProbe ⟨{ failureThreshold, recoveryWindowMs }, now, []⟩ inputs ↔
      Along callerStep Undisturbed ⟨{ failureThreshold, recoveryWindowMs }, now, []⟩ inputs := by
  have hstart : (⟨{ failureThreshold, recoveryWindowMs }, now, []⟩ : Callers).Sound :=
    ⟨nofun, fun _ => List.not_mem_nil, Nat.zero_le _⟩
  refine along_iff_of_invariant Callers.Sound (fun s input h => ?_) (fun s input h => h.step) hstart
  cases input with
  | allowCall => exact singleProbe_allowCall_iff h
  | report i success => exact singleProbe_report_iff
  | elapse ms => exact iff_of_true ⟨nofun, nofun⟩ trivial

/-- Four calls are admitted and three of them fail. -/
def sampleOpening : List CallerInput :=
  [.allowCall, .allowCall, .allowCall, .allowCall, .report 0 false, .report 1 false,
    .report 2 false]

/-- After the recovery window two calls are admitted, one after the other; and the late success of
the fourth call closes the breaker before. -/
theorem not_single_probe :
    ¬ Along callerStep SingleProbe ⟨{}, 0, []⟩
        (sampleOpening ++ [.elapse 10000, .allowCall, .allowCall]) ∧
      ¬ Along callerStep SingleProbe ⟨{}, 0, []⟩ (sampleOpening ++ [.report 3 true]) := by
  constructor
  · intro h
    have hlast := (along_append.1 h).2.2.2.1
    exact absurd (hlast.1 rfl (by decide)) (by decide)
  · intro h
    have hlast := (along_append.1 h).2.1
    exact absurd (hlast.2 3 true rfl (by decide) (by decide)) (by decide)

end SorobanPay.Redis
