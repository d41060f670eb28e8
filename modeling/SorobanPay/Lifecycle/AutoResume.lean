import SorobanPay.Lifecycle.PauseSafety
import SorobanPay.Listings.Changes

/-!
# Pauses that should end by themselves

The comments on `pause_subscription` say that the next `execute_payment` at or after the time given
for the end of a pause clears it. `execute_payment` clears such a pause in the record that it has
loaded, sets the next payment to one interval from now, finds that the payment is not due, and
returns an error, so that the host undoes the call. The stored record stays paused, the next attempt
finds it so, and no attempt is ever successful, however late it is.

## Main definitions

* `Call.MadeBy`: the calls that a subscriber makes.
* `Resumes`: an attempt to collect succeeds and ends the pause.

## Main results

* `isPausedUntil_after`: a pause lasts as long as its subscriber makes no call.
* `not_resumes`: no attempt ends a pause.
-/

set_option autoImplicit false

namespace SorobanPay

open Foundation

variable {Address Hash World Op : Type}

/-- The calls that a subscriber makes. -/
def Call.MadeBy (s : Address) : Call Address → Prop
  | .subscribe s' .. | .updateSubscription s' .. | .pauseSubscription s' ..
  | .resumeSubscription s' .. | .cancel s' .. | .transferSubscription s' .. => s' = s
  | _ => False

/-- A subscriber makes no call in a step. -/
def Step.IsNotBy (s : Address) (step : Step Address Hash Op) : Prop :=
  ∀ call, step.action = .invoke call → ¬ call.MadeBy s

theorem Call.not_resets_of_not_madeBy {s m : Address} {call : Call Address}
    (h : ¬ call.MadeBy s) : ¬ call.Resets s m ∧ ¬ call.Transfers s m := by
  cases call with
  | subscribe | resumeSubscription | cancel => exact ⟨fun hr => h hr.1, id⟩
  | transferSubscription => exact ⟨id, fun ht => h ht.1⟩
  | _ => exact ⟨id, id⟩

section Runs

variable [DecidableEq Address] [DecidableEq Hash] {H : Host Address Hash World Op}
  {σ σ' : State Address Hash World} {env : Env Address} {s m token : Address} {u : Option ℕ}

/-- A pause lasts over a step in which the subscriber makes no call. -/
theorem isPausedUntil_next (hkey : H.KeysInjective) (hσ : Sound H σ)
    (hpaused : Lifecycle.IsPausedUntil u (H.record σ s m)) {step : Step Address Hash Op}
    (hstep : step.IsNotBy s) :
    Sound H (next H σ step) ∧ Lifecycle.IsPausedUntil u (H.record (next H σ step) s m) := by
  have hpath := path_microSteps (H := H) σ step
  refine ⟨sound_of_path hkey hpath hσ, ?_⟩
  refine hpaused.of_path (path_lifecycle hkey hpath hσ s m) fun a ha => ?_
  obtain ⟨μ, hμ, ha⟩ := List.mem_flatMap.1 ha
  obtain ⟨-, hreset, hmove⟩ := MicroStep.reset_or_move_of_mem_acts ha
  constructor
  · intro hr
    obtain ⟨call, hdeed, hcall⟩ := hreset hr
    exact (Call.not_resets_of_not_madeBy (hstep call (action_of_applied hμ hdeed))).1 hcall
  · intro hm
    obtain ⟨call, hdeed, hcall⟩ := hmove hm
    exact (Call.not_resets_of_not_madeBy (hstep call (action_of_applied hμ hdeed))).2 hcall

/-- **A pause lasts** as long as its subscriber makes no call. -/
theorem isPausedUntil_after (hkey : H.KeysInjective) (hσ : Sound H σ)
    (hpaused : Lifecycle.IsPausedUntil u (H.record σ s m)) {steps : List (Step Address Hash Op)}
    (hsteps : ∀ step ∈ steps, step.IsNotBy s) :
    Sound H (after (next H) σ steps) ∧
      Lifecycle.IsPausedUntil u (H.record (after (next H) σ steps) s m) := by
  induction steps generalizing σ with
  | nil => exact ⟨hσ, hpaused⟩
  | cons step steps ih =>
    obtain ⟨hsound, hrecord⟩ := isPausedUntil_next hkey hσ hpaused (hsteps step List.mem_cons_self)
    exact ih hsound hrecord fun step' h => hsteps step' (List.mem_cons_of_mem _ h)

/-- `execute_payment` does not return for a record that is paused: it resumes the record only with a
next payment that is one interval away. -/
theorem not_returns_executePayment_of_paused (hσ : Sound H σ)
    (hpaused : Lifecycle.IsPausedUntil u (H.record σ s m)) {x : Unit} :
    ¬ (executePayment H env s m token).Returns σ x σ' := by
  intro h
  obtain ⟨d, hd, hisPaused, -⟩ := hpaused
  obtain ⟨-, d₀, hr, -, d', hunpaused, hdue, -⟩ := returns_executePayment.1 h
  obtain rfl := Option.some.inj (hd.symm.trans hr)
  rcases hunpaused with ⟨hactive, -⟩ | ⟨-, -, -, rfl⟩
  · rw [hisPaused] at hactive
    cases hactive
  · have hinterval := (hσ.wellFormed s m d hd).interval_pos
    rw [SubscriptionData.resumed_nextPayment] at hdue
    omega

/-- An attempt to collect succeeds, and the record is not paused afterwards. -/
def Resumes (H : Host Address Hash World Op) (σ : State Address Hash World) (env : Env Address)
    (s m token : Address) : Prop :=
  (∃ σ', (executePayment H env s m token).Returns σ () σ') ∧
    ∀ d, H.record (next H σ ⟨env, .invoke (.executePayment s m token)⟩) s m = some d →
      d.isPaused = false

/-- A pause is as it was after an attempt to collect. -/
theorem isPausedUntil_attempt (hσ : Sound H σ)
    (hpaused : Lifecycle.IsPausedUntil u (H.record σ s m)) :
    Lifecycle.IsPausedUntil u
      (H.record (next H σ ⟨env, .invoke (.executePayment s m token)⟩) s m) := by
  have hstays : next H σ ⟨env, .invoke (.executePayment s m token)⟩ = σ :=
    next_eq_of_not_returns fun reply τ hr =>
      not_returns_executePayment_of_paused hσ hpaused (Tx.returns_bind_const.1 hr).1
  rwa [hstays]

/-- **No attempt ends a pause.** From a reachable state with a paused record, whatever happens
without a call of its subscriber, an attempt to collect does not succeed at any time, and the record
stays paused. -/
theorem not_resumes (hkey : H.KeysInjective) (hσ : Reachable H σ)
    (hpaused : Lifecycle.IsPausedUntil u (H.record σ s m)) {steps : List (Step Address Hash Op)}
    (hsteps : ∀ step ∈ steps, step.IsNotBy s) (env : Env Address) (token : Address) :
    ¬ Resumes H (after (next H) σ steps) env s m token ∧
      Lifecycle.IsPausedUntil u (H.record
        (after (next H) σ (steps ++ [⟨env, .invoke (.executePayment s m token)⟩])) s m) := by
  obtain ⟨hsound, hrecord⟩ := isPausedUntil_after hkey (hσ.sound hkey) hpaused hsteps
  refine ⟨fun ⟨⟨_, hreturns⟩, _⟩ => ?_, ?_⟩
  · exact not_returns_executePayment_of_paused hsound hrecord hreturns
  · rw [after_append, after_cons, after_nil]
    exact isPausedUntil_attempt hsound hrecord

end Runs

/-- A subscription of 100 a day, paused until 3600. -/
abbrev samplePausedUntil : State UInt8 (List UInt8) (TokenLedger UInt8) :=
  after (next sampleHost) sampleStart
    [sampleStep 1 (.subscribe 1 2 9 100 86400 false none),
      sampleStep 2 (.pauseSubscription 1 2 9 (some 3600))]

/-- The record that is paused. -/
def samplePausedRecord : SubscriptionData UInt8 :=
  ⟨9, 100, 86400, 86401, true, 0, none, 0, some 3600⟩

theorem record_samplePausedUntil :
    sampleHost.record samplePausedUntil 1 2 = some samplePausedRecord := rfl

theorem sound_samplePausedUntil : Sound sampleHost samplePausedUntil :=
  Reachable.sound sampleHost_keysInjective ⟨_, _, rfl⟩

/-- An attempt to collect. -/
abbrev sampleAttempt (now : ℕ) : Step UInt8 (List UInt8) (External UInt8) :=
  sampleStep now (.executePayment 1 2 9)

theorem isNotBy_sampleAttempt (now : ℕ) : (sampleAttempt now).IsNotBy 1 := by
  intro call hcall
  obtain rfl := Action.invoke.inj hcall
  exact id

/-- An attempt at the end of the pause, and one a day later, signed and with the amount approved and
held: the second one does not succeed. -/
theorem not_resumes_late :
    Reachable sampleHost samplePausedUntil ∧
      sampleHost.record samplePausedUntil 1 2 = some samplePausedRecord ∧
      Chronological [sampleAttempt 3600, sampleAttempt 90000] ∧
      (∀ step ∈ [sampleAttempt 3600, sampleAttempt 90000],
        step.IsNotBy 1 ∧ sampleHost.authorizes step.env 2 = true) ∧
      (∀ σ ∈ [samplePausedUntil, after (next sampleHost) samplePausedUntil [sampleAttempt 3600]],
        Approved sampleHost σ 1 samplePausedRecord ∧ Funded sampleHost σ 1 samplePausedRecord) ∧
      ¬ Resumes sampleHost (after (next sampleHost) samplePausedUntil [sampleAttempt 3600])
        (sampleEnv 90000) 1 2 9 := by
  have hpaused : Lifecycle.IsPausedUntil (some 3600) (sampleHost.record samplePausedUntil 1 2) :=
    ⟨_, record_samplePausedUntil, rfl, rfl⟩
  have hstays : next sampleHost samplePausedUntil (sampleAttempt 3600) = samplePausedUntil :=
    next_eq_of_not_returns fun _ _ hr => not_returns_executePayment_of_paused
      sound_samplePausedUntil hpaused (Tx.returns_bind_const.1 hr).1
  have hheld : Approved sampleHost samplePausedUntil 1 samplePausedRecord ∧
      Funded sampleHost samplePausedUntil 1 samplePausedRecord :=
    ⟨⟨1000, rfl, by decide⟩, ⟨1000, rfl, by decide⟩⟩
  rw [after_cons, after_nil, hstays]
  refine ⟨⟨_, _, rfl⟩, rfl, ?_, ?_, by simpa using hheld, ?_⟩
  · simp [Chronological, sampleAttempt, sampleStep, sampleEnv]
  · simp only [List.forall_mem_cons, List.not_mem_nil, false_imp_iff, implies_true, and_true]
    exact ⟨⟨isNotBy_sampleAttempt _, rfl⟩, isNotBy_sampleAttempt _, rfl⟩
  · rintro ⟨⟨_, hreturns⟩, -⟩
    exact not_returns_executePayment_of_paused sound_samplePausedUntil hpaused hreturns

theorem not_resumes_sample :
    ¬ Resumes sampleHost (after (next sampleHost) samplePausedUntil [sampleAttempt 3600])
      (sampleEnv 90000) 1 2 9 := by
  have hsteps : ∀ step ∈ [sampleAttempt 3600], step.IsNotBy 1 := by
    simpa using isNotBy_sampleAttempt 3600
  exact (not_resumes sampleHost_keysInjective ⟨_, _, rfl⟩
    ⟨_, record_samplePausedUntil, rfl, rfl⟩ hsteps (sampleEnv 90000) 9).1

end SorobanPay
