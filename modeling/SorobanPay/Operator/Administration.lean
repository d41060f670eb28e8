import SorobanPay.Operator.Delegation

/-!
# Who can stop the operator

Nobody has to authorize `initialize`: the administrator is whoever is named by the first call of it,
for good. From then on the operator is paused exactly if this administrator has paused it since it
was unpaused last, and it refuses every delegation while it is. Both show in its events, which are
therefore enough to check that no delegation was made during a pause.

## Main definitions

* `OperatorEvent.Pauses`, `OperatorEvent.Unpauses`: the events of the administrator.
* `Logged`: what the events of the operator, and the steps of a run, say about its storage.

## Main results

* `Logged.step`: a step keeps this invariant.
* `operator_log`: the administrator, the pauses and the refusals of a run.
-/

set_option autoImplicit false

namespace SorobanPay

open Foundation

namespace Operator

variable {Address Ledger Op : Type}

/-- The events that say that the operator is paused from now on. -/
def OperatorEvent.Pauses : OperatorEvent Address → Prop
  | .operatorPaused _ => True
  | _ => False

/-- The events that say that it is not paused any more. -/
def OperatorEvent.Unpauses : OperatorEvent Address → Prop
  | .operatorUnpaused _ => True
  | _ => False

/-- The administrator that a step proposes. -/
def OperatorStep.proposes : OperatorStep Address Op → Option Address
  | .invoke _ (.init a) => some a
  | _ => none

/-- The operator has been paused since it was unpaused last, by what it has reported. -/
def PausedIn (events : List (OperatorEvent Address)) : Prop :=
  Raised OperatorEvent.Pauses OperatorEvent.Unpauses events

section Events

variable {events : List (OperatorEvent Address)} {a s m : Address} {amount : ℤ}

theorem not_pausedIn_nil : ¬ PausedIn ([] : List (OperatorEvent Address)) := not_raised_nil

theorem pausedIn_paused : PausedIn (events ++ [.operatorPaused a]) :=
  raised_concat.2 (.inl trivial)

theorem not_pausedIn_unpaused : ¬ PausedIn (events ++ [.operatorUnpaused a]) := by
  intro h
  rcases raised_concat.1 h with h | ⟨-, h⟩
  · exact h
  · exact h trivial

theorem pausedIn_delegated :
    PausedIn (events ++ [.delegatedSubscribe s m amount]) ↔ PausedIn events := by
  simp only [PausedIn, raised_concat, OperatorEvent.Pauses, OperatorEvent.Unpauses, false_or,
    not_false_eq_true, and_true]

/-- A delegation among some events and one more. -/
theorem concat_eq_split {e e' : OperatorEvent Address} {pre post : List (OperatorEvent Address)}
    (h : events ++ [e'] = pre ++ e :: post) :
    (events = pre ∧ e = e') ∨ ∃ post', events = pre ++ e :: post' := by
  rcases List.eq_nil_or_concat post with rfl | ⟨post', e'', rfl⟩
  · obtain ⟨rfl, hlast⟩ := List.append_inj' h rfl
    exact .inl ⟨rfl, (List.cons.inj hlast).1.symm⟩
  · refine .inr ⟨post', ?_⟩
    rw [List.concat_eq_append, ← List.cons_append, ← List.append_assoc] at h
    exact (List.append_inj' h rfl).1

end Events

variable [DecidableEq Address] {C : SubscriptionClient Address Ledger Op}
  {σ : OperatorState Address Ledger} {steps : List (OperatorStep Address Op)}

/-- The administrator has signed an event of his, and a delegation has been asked for. -/
def Signed (C : SubscriptionClient Address Ledger Op) (steps : List (OperatorStep Address Op))
    (admin : Option Address) : OperatorEvent Address → Prop
  | .operatorPaused a => admin = some a ∧
    ∃ env, .invoke env .pause ∈ steps ∧ C.authorizes env a = true
  | .operatorUnpaused a => admin = some a ∧
    ∃ env, .invoke env .unpause ∈ steps ∧ C.authorizes env a = true
  | .delegatedSubscribe s m amount => ∃ env protocolId token interval,
    .invoke env (.delegateSubscribe protocolId ⟨s, m, token, amount, interval⟩) ∈ steps

/-- What the steps of a run and the events of the operator say about its storage. -/
structure Logged (C : SubscriptionClient Address Ledger Op) (steps : List (OperatorStep Address Op))
    (σ : OperatorState Address Ledger) : Prop where
  admin_eq : σ.admin = steps.findSome? OperatorStep.proposes
  fresh : σ.admin = none → isPaused σ = false ∧ σ.events = []
  isPaused_iff : isPaused σ = true ↔ PausedIn σ.events
  signed : ∀ event ∈ σ.events, Signed C steps σ.admin event
  delegated : ∀ pre s m amount post, σ.events = pre ++ .delegatedSubscribe s m amount :: post →
    ¬ PausedIn pre

theorem Signed.mono {admin : Option Address} {event : OperatorEvent Address}
    {steps' : List (OperatorStep Address Op)} (h : Signed C steps admin event)
    (hsteps : steps ⊆ steps') : Signed C steps' admin event := by
  cases event with
  | operatorPaused | operatorUnpaused =>
    obtain ⟨hadmin, env, henv, hauth⟩ := h
    exact ⟨hadmin, env, hsteps henv, hauth⟩
  | delegatedSubscribe =>
    obtain ⟨env, protocolId, token, interval, hinvoked⟩ := h
    exact ⟨env, protocolId, token, interval, hsteps hinvoked⟩

namespace Logged

theorem deployed (C : SubscriptionClient Address Ledger Op) (w : Ledger) :
    Logged C [] (.deployed Address w) where
  admin_eq := rfl
  fresh _ := ⟨rfl, rfl⟩
  isPaused_iff := iff_of_false Bool.false_ne_true not_pausedIn_nil
  signed := List.forall_mem_nil _
  delegated _ _ _ _ _ h := by simp [OperatorState.deployed] at h

/-- The administrator stays, unless there is none yet. -/
theorem admin_concat (h : Logged C steps σ) {step : OperatorStep Address Op}
    (hstep : σ.admin = none → step.proposes = none) :
    σ.admin = (steps ++ [step]).findSome? OperatorStep.proposes := by
  rw [List.findSome?_append, ← h.admin_eq]
  cases hadmin : σ.admin with
  | some a => rfl
  | none => simp [hstep hadmin]

/-- A step that leaves the storage and the events alone. -/
theorem of_idle (h : Logged C steps σ) {step : OperatorStep Address Op} {w : Ledger}
    (hstep : σ.admin = none → step.proposes = none) :
    Logged C (steps ++ [step]) { σ with ledger := w } where
  admin_eq := h.admin_concat hstep
  fresh := h.fresh
  isPaused_iff := h.isPaused_iff
  signed event he := (h.signed event he).mono (List.subset_append_left _ _)
  delegated := h.delegated

/-- A step that publishes an event. -/
theorem of_publish (h : Logged C steps σ) {step : OperatorStep Address Op} {w : Ledger}
    {paused : Option Bool} {event : OperatorEvent Address} (hadmin : σ.admin.isSome = true)
    (hpaused : paused.getD false = true ↔ PausedIn (σ.events ++ [event]))
    (hsigned : Signed C (steps ++ [step]) σ.admin event)
    (hdelegated : (∃ s m amount, event = .delegatedSubscribe s m amount) → ¬ PausedIn σ.events) :
    Logged C (steps ++ [step])
      { σ with paused := paused, events := σ.events ++ [event], ledger := w } where
  admin_eq := h.admin_concat fun hnone => by simp [hnone] at hadmin
  fresh (hnone : σ.admin = none) := by simp [hnone] at hadmin
  isPaused_iff := hpaused
  signed := by
    refine List.forall_mem_append.2 ⟨fun event he => ?_, List.forall_mem_singleton.2 hsigned⟩
    exact (h.signed event he).mono (List.subset_append_left _ _)
  delegated pre s m amount post hsplit := by
    rcases concat_eq_split hsplit with ⟨rfl, rfl⟩ | ⟨post', hsplit⟩
    · exact hdelegated ⟨s, m, amount, rfl⟩
    · exact h.delegated pre s m amount post' hsplit

/-- **A step** of a run. -/
theorem step (h : Logged C steps σ) (step : OperatorStep Address Op) :
    Logged C (steps ++ [step]) (operatorNext C σ step) := by
  have hmem : step ∈ steps ++ [step] := List.mem_append_right _ (List.mem_singleton_self _)
  rcases operatorNext_cases C σ step with ⟨op, rfl, hnext⟩ | ⟨env, call, rfl, ⟨e, hf⟩, hnext⟩ |
      ⟨env, call, rfl, hr⟩
  · rw [hnext]
    exact h.of_idle fun _ => rfl
  · rw [hnext]
    refine h.of_idle fun hadmin => ?_
    cases call with
    | init a => exact (hf.not_returns (a := ()) (returns_init.2 ⟨hadmin, rfl⟩)).elim
    | _ => rfl
  · generalize operatorNext C σ (.invoke env call) = σ' at hr
    cases call with
    | init a =>
      obtain ⟨hadmin, rfl⟩ := returns_init.1 hr
      obtain ⟨-, hevents⟩ := h.fresh hadmin
      refine ⟨?_, fun hnone => (Option.some_ne_none a hnone).elim, ?_, ?_, ?_⟩
      · rw [List.findSome?_append, ← h.admin_eq, hadmin]
        rfl
      · rw [hevents]
        exact iff_of_false Bool.false_ne_true not_pausedIn_nil
      · rw [hevents]
        exact List.forall_mem_nil _
      · exact h.delegated
    | pause =>
      obtain ⟨a, hadmin, hauth, rfl⟩ := returns_pause.1 hr
      exact h.of_publish (Option.isSome_of_eq_some hadmin) (iff_of_true rfl pausedIn_paused)
        ⟨hadmin, env, hmem, hauth⟩ fun ⟨_, _, _, hevent⟩ => by cases hevent
    | unpause =>
      obtain ⟨a, hadmin, hauth, rfl⟩ := returns_unpause.1 hr
      exact h.of_publish (Option.isSome_of_eq_some hadmin)
        (iff_of_false Bool.false_ne_true not_pausedIn_unpaused) ⟨hadmin, env, hmem, hauth⟩
        fun ⟨_, _, _, hevent⟩ => by cases hevent
    | delegateSubscribe protocolId args =>
      obtain ⟨hadmin, hpaused, w, -, rfl⟩ := returns_delegateSubscribe.1 hr
      have hnot : ¬ PausedIn σ.events := by rw [← h.isPaused_iff, hpaused]; exact Bool.false_ne_true
      exact h.of_publish hadmin (h.isPaused_iff.trans pausedIn_delegated.symm)
        ⟨env, protocolId, args.token, args.interval, hmem⟩ fun _ => hnot

/-- **A run** of the operator. -/
theorem after (C : SubscriptionClient Address Ledger Op) (w : Ledger)
    (steps : List (OperatorStep Address Op)) :
    Logged C steps (after (operatorNext C) (.deployed Address w) steps) := by
  induction steps using List.reverseRecOn with
  | nil => exact deployed C w
  | append_singleton steps step ih =>
    rw [after_append, after_cons, after_nil]
    exact ih.step step

end Logged

/-- How a delegation is refused. -/
theorem invokeOperator_eq_error {env : Env Address} {call : OperatorCall Address}
    {e : OperatorFault} :
    (invokeOperator C env call σ).1 = .error e ↔ (call.run C env).Fails σ e := by
  rcases (call.run C env).returns_or_fails σ with ⟨⟨⟩, σ', hr⟩ | ⟨e', hf⟩
  · rw [invokeOperator, Tx.commit_of_returns hr]
    exact iff_of_false (fun h => by cases h) fun h => h.not_returns hr
  · rw [invokeOperator, Tx.commit_of_fails hf, Tx.fails_iff, Tx.fails_iff.1 hf]

/-- **The administrator and the pauses.** After every run from the deployment of the operator: its
administrator is the one that the first call of `initialize` names. It is paused exactly if, by its
events, it has been paused since it was unpaused last; the administrator has signed all of these
events, and none of its delegations comes during a pause. A delegation is refused, whatever its
arguments and signatures, for want of an administrator if there is none yet, and then exactly during
a pause for being paused. -/
theorem operator_log (C : SubscriptionClient Address Ledger Op) (w : Ledger)
    (steps : List (OperatorStep Address Op)) :
    let σ := after (operatorNext C) (.deployed Address w) steps
    σ.admin = steps.findSome? OperatorStep.proposes ∧
      (isPaused σ = true ↔ PausedIn σ.events) ∧
      (∀ event ∈ σ.events, Signed C steps σ.admin event) ∧
      (∀ pre s m amount post, σ.events = pre ++ .delegatedSubscribe s m amount :: post →
        ¬ PausedIn pre) ∧
      ∀ env protocolId args,
        ((invokeOperator C env (.delegateSubscribe protocolId args) σ).1 =
            .error (.error .notInitialized) ↔ steps.findSome? OperatorStep.proposes = none) ∧
          ((invokeOperator C env (.delegateSubscribe protocolId args) σ).1 =
            .error (.error .operatorPaused) ↔ PausedIn σ.events) := by
  intro σ
  have h : Logged C steps σ := Logged.after C w steps
  refine ⟨h.admin_eq, h.isPaused_iff, h.signed, h.delegated, fun env protocolId args => ?_⟩
  rw [← h.admin_eq, ← h.isPaused_iff, invokeOperator_eq_error, invokeOperator_eq_error,
    OperatorCall.run, fails_delegateSubscribe, fails_delegateSubscribe]
  refine ⟨by simp, ?_⟩
  rcases hadmin : σ.admin with _ | a
  · simp [(h.fresh hadmin).1]
  · simp

end Operator

end SorobanPay
