import SorobanPay.Operator.Contract
import SorobanPay.Tokens.Ledger

/-!
# What the operator adds to the protocol

The operator calls `subscribe` for others. Nothing can be done through it that its callers could not
do themselves: leaving the operator out of a run, and making its successful delegations directly and
with the same signatures, leads to the same ledger. The operator's own signature, which it gives to
everything it calls, counts only for subscriptions of the operator itself.

## Main definitions

* `SubscriptionClient.RequiresSubscriber`: `subscribe` requires the subscriber, and nobody else.
* `DirectStep`, `directSteps`: a run without the operator.
* `protocolClient`: the subscription contract behind the interface of the operator.

## Main results

* `delegations_direct`: a run with the operator is a run without it.
* `reachable_ledger`: the states that the subscription contract gets into with an operator.
-/

set_option autoImplicit false

namespace SorobanPay

open Foundation

namespace Operator

variable {Address Ledger Op : Type} [DecidableEq Address]
  {C : SubscriptionClient Address Ledger Op} {σ : OperatorState Address Ledger}

/-! ### Steps -/

/-- What a step of a run can do. -/
theorem operatorNext_cases (C : SubscriptionClient Address Ledger Op)
    (σ : OperatorState Address Ledger) (step : OperatorStep Address Op) :
    (∃ op, step = .external op ∧ operatorNext C σ step = { σ with ledger := C.act op σ.ledger }) ∨
      (∃ env call, step = .invoke env call ∧ (∃ e, (call.run C env).Fails σ e) ∧
        operatorNext C σ step = σ) ∨
      ∃ env call, step = .invoke env call ∧
        (call.run C env).Returns σ () (operatorNext C σ step) := by
  cases step with
  | external op => exact .inl ⟨op, rfl, rfl⟩
  | invoke env call =>
    rcases (call.run C env).returns_or_fails σ with ⟨⟨⟩, σ', hr⟩ | ⟨e, hf⟩
    · refine .inr (.inr ⟨env, call, rfl, ?_⟩)
      rwa [operatorNext, invokeOperator, Tx.commit_of_returns hr]
    · refine .inr (.inl ⟨env, call, rfl, ⟨e, hf⟩, ?_⟩)
      rw [operatorNext, invokeOperator, Tx.commit_of_fails hf]

/-! ### Leaving the operator out -/

/-- `subscribe` requires the authorization of the subscriber, and looks at no other. -/
structure SubscriptionClient.RequiresSubscriber (C : SubscriptionClient Address Ledger Op) :
    Prop where
  signed : ∀ {env : Env Address} {protocolId : Address} {args : SubscribeArgs Address}
    {w w' : Ledger}, C.subscribe env protocolId args w = some w' →
      env.authorized args.subscriber = true
  only : ∀ {env env' : Env Address} {protocolId : Address} {args : SubscribeArgs Address}
    {w : Ledger}, env.timestamp = env'.timestamp →
      env.authorized args.subscriber = env'.authorized args.subscriber →
        C.subscribe env protocolId args w = C.subscribe env' protocolId args w

/-- A step on the ledger without the operator. -/
inductive DirectStep (Address Op : Type)
  | subscribe (env : Env Address) (protocolId : Address) (args : SubscribeArgs Address)
  | external (op : Op)

/-- What a step does to the ledger, unless it fails. -/
def DirectStep.apply (C : SubscriptionClient Address Ledger Op) :
    DirectStep Address Op → Ledger → Option Ledger
  | .subscribe env protocolId args, w => C.subscribe env protocolId args w
  | .external op, w => some (C.act op w)

/-- The signatures that a delegation takes when it is made directly: those it was made with, and for
the operator itself its own. -/
def SubscriptionClient.directEnv (C : SubscriptionClient Address Ledger Op) (env : Env Address)
    (subscriber : Address) : Env Address :=
  if subscriber = C.operatorId then C.subInvocation env else env

/-- A step with the operator left out: a delegation that succeeds is made directly. -/
def directSteps (C : SubscriptionClient Address Ledger Op) (σ : OperatorState Address Ledger) :
    OperatorStep Address Op → List (DirectStep Address Op)
  | .invoke env (.delegateSubscribe protocolId args) =>
    match invokeOperator C env (.delegateSubscribe protocolId args) σ with
    | (.ok _, _) => [.subscribe (C.directEnv env args.subscriber) protocolId args]
    | (.error _, _) => []
  | .invoke _ _ => []
  | .external op => [.external op]

/-- The delegations among some events. -/
def delegations (events : List (OperatorEvent Address)) : List (Address × Address × ℤ) :=
  events.filterMap fun
    | .delegatedSubscribe s m amount => some (s, m, amount)
    | _ => none

/-- The subscriptions among some direct steps. -/
def subscriptions (directs : List (DirectStep Address Op)) : List (Address × Address × ℤ) :=
  directs.filterMap fun
    | .subscribe _ _ args => some (args.subscriber, args.merchant, args.amount)
    | .external _ => none

omit [DecidableEq Address] in
theorem delegations_append (events events' : List (OperatorEvent Address)) :
    delegations (events ++ events') = delegations events ++ delegations events' :=
  List.filterMap_append

omit [DecidableEq Address] in
theorem subscriptions_append (directs directs' : List (DirectStep Address Op)) :
    subscriptions (directs ++ directs') = subscriptions directs ++ subscriptions directs' :=
  List.filterMap_append

/-- The subscription that the operator makes is the one that is made directly. -/
theorem SubscriptionClient.RequiresSubscriber.subscribe_directEnv (hC : C.RequiresSubscriber)
    {env : Env Address} {protocolId : Address} {args : SubscribeArgs Address} {w : Ledger} :
    C.subscribe (C.directEnv env args.subscriber) protocolId args w =
      C.subscribe (C.subInvocation env) protocolId args w := by
  unfold directEnv
  split_ifs with hself
  · rfl
  · exact hC.only rfl (by simp [subInvocation, hself])

/-- A step is simulated by its direct steps, and the operator reports the subscriptions among
them. -/
theorem directSteps_simulate (hC : C.RequiresSubscriber) (σ : OperatorState Address Ledger)
    (step : OperatorStep Address Op) :
    Path (fun w d w' => DirectStep.apply C d w = some w') σ.ledger (directSteps C σ step)
        (operatorNext C σ step).ledger ∧
      delegations (operatorNext C σ step).events =
        delegations σ.events ++ subscriptions (directSteps C σ step) := by
  rcases operatorNext_cases C σ step with ⟨op, rfl, hnext⟩ | ⟨env, call, rfl, ⟨e, hf⟩, hnext⟩ |
      ⟨env, call, rfl, hr⟩
  · rw [hnext]
    exact ⟨.single rfl, (List.append_nil _).symm⟩
  · have hnone : directSteps C σ (.invoke env call) = ([] : List (DirectStep Address Op)) := by
      cases call with
      | delegateSubscribe => simp only [directSteps, invokeOperator, Tx.commit_of_fails hf]
      | _ => rfl
    rw [hnext, hnone]
    exact ⟨.nil _, (List.append_nil _).symm⟩
  · have hcommit := Tx.commit_of_returns hr
    cases call with
    | init a =>
      obtain ⟨-, hσ⟩ := returns_init.1 hr
      rw [← hσ]
      exact ⟨.nil _, (List.append_nil _).symm⟩
    | pause =>
      obtain ⟨a, -, -, hσ⟩ := returns_pause.1 hr
      rw [← hσ]
      exact ⟨.nil _, delegations_append _ _⟩
    | unpause =>
      obtain ⟨a, -, -, hσ⟩ := returns_unpause.1 hr
      rw [← hσ]
      exact ⟨.nil _, delegations_append _ _⟩
    | delegateSubscribe protocolId args =>
      obtain ⟨-, -, ledger, hledger, hσ⟩ := returns_delegateSubscribe.1 hr
      simp only [directSteps, invokeOperator, hcommit]
      rw [← hσ]
      refine ⟨.single ?_, delegations_append _ _⟩
      rwa [DirectStep.apply, hC.subscribe_directEnv]

/-- A direct subscription is one that the operator was invoked for. -/
theorem mem_directSteps {step : OperatorStep Address Op} {env : Env Address} {protocolId : Address}
    {args : SubscribeArgs Address} (h : .subscribe env protocolId args ∈ directSteps C σ step) :
    ∃ env', step = .invoke env' (.delegateSubscribe protocolId args) ∧
      env = C.directEnv env' args.subscriber := by
  cases step with
  | external op => simp [directSteps] at h
  | invoke env' call =>
    cases call with
    | delegateSubscribe protocolId' args' =>
      simp only [directSteps] at h
      split at h
      · obtain ⟨rfl, rfl, rfl⟩ := by simpa using h
        exact ⟨env', rfl, rfl⟩
      · simp at h
    | _ => simp [directSteps] at h

/-- **The operator adds nothing.** Leave the operator out of a run, and make the delegations that
succeed directly. Then every one of them is accepted, in the same order, and the run leads to the
same ledger; the operator has reported them, and no others. Each was asked for with the same
arguments and signed by its subscriber, unless it subscribes the operator itself. -/
theorem delegations_direct (hC : C.RequiresSubscriber) (w : Ledger)
    (steps : List (OperatorStep Address Op)) :
    Path (fun w d w' => DirectStep.apply C d w = some w') w
        (history (operatorNext C) (directSteps C) (.deployed Address w) steps)
        (after (operatorNext C) (.deployed Address w) steps).ledger ∧
      delegations (after (operatorNext C) (.deployed Address w) steps).events =
        subscriptions (history (operatorNext C) (directSteps C) (.deployed Address w) steps) ∧
      ∀ env protocolId args, DirectStep.subscribe env protocolId args ∈
          history (operatorNext C) (directSteps C) (.deployed Address w) steps →
        env.authorized args.subscriber = true ∧
          ∃ env', OperatorStep.invoke env' (.delegateSubscribe protocolId args) ∈ steps ∧
            env'.timestamp = env.timestamp ∧ (args.subscriber ≠ C.operatorId → env' = env) := by
  have hpath : Path (fun w d w' => DirectStep.apply C d w = some w')
      (OperatorState.deployed Address w).ledger
      (history (operatorNext C) (directSteps C) (.deployed Address w) steps)
      (after (operatorNext C) (.deployed Address w) steps).ledger :=
    path_history (fun σ step _ => (directSteps_simulate hC σ step).1)
      (along_of_forall fun _ _ => trivial : Along _ (fun _ _ => True) _ steps)
  have hreported : ∀ (σ : OperatorState Address Ledger) (steps : List (OperatorStep Address Op)),
      delegations (after (operatorNext C) σ steps).events = delegations σ.events ++
        subscriptions (history (operatorNext C) (directSteps C) σ steps) := by
    intro σ steps
    induction steps generalizing σ with
    | nil => exact (List.append_nil _).symm
    | cons step steps ih =>
      rw [after_cons, history_cons, ih, (directSteps_simulate hC σ step).2, subscriptions_append,
        List.append_assoc]
  refine ⟨hpath, hreported _ steps, fun env protocolId args hmem => ⟨?_, ?_⟩⟩
  · obtain ⟨w', w'', happly⟩ := hpath.exists_of_mem hmem
    exact hC.signed happly
  · obtain ⟨step, hstep, τ, hmem⟩ := exists_of_mem_history hmem
    obtain ⟨env', rfl, rfl⟩ := mem_directSteps hmem
    refine ⟨env', hstep, ?_, fun hne => (if_neg hne).symm⟩
    unfold SubscriptionClient.directEnv
    split_ifs <;> rfl

/-! ### Over the subscription contract -/

section SubscriptionContract

variable {Hash World External : Type} [DecidableEq Hash]

/-- The subscription contract behind the interface, with the two arguments that the interface lacks
left at their defaults: not strict, and no grace period. -/
def protocolClient (H : Host Address Hash World External) (operatorId : Address) :
    SubscriptionClient Address (State Address Hash World) (Step Address Hash External) where
  operatorId := operatorId
  subscribe env protocolId args σ :=
    if protocolId = H.currentContractAddress then
      match (SorobanPay.subscribe H env args.subscriber args.merchant args.token args.amount
        args.interval false none).commit σ with
      | (.ok _, σ') => some σ'
      | (.error _, _) => none
    else none
  act step σ := next H σ step

variable {H : Host Address Hash World External} {operatorId : Address}

theorem protocolClient_subscribe {env : Env Address} {protocolId : Address}
    {args : SubscribeArgs Address} {σ σ' : State Address Hash World} :
    (protocolClient H operatorId).subscribe env protocolId args σ = some σ' ↔
      protocolId = H.currentContractAddress ∧ (SorobanPay.subscribe H env args.subscriber
        args.merchant args.token args.amount args.interval false none).Returns σ () σ' := by
  simp only [protocolClient, Tx.commit, Tx.Returns]
  split_ifs with hid
  · rcases (SorobanPay.subscribe H env args.subscriber args.merchant args.token args.amount
      args.interval false none).run σ with ⟨_ | ⟨⟩, _⟩ <;> simp [hid]
  · simp [hid]

theorem protocolClient_requiresSubscriber :
    (protocolClient H operatorId).RequiresSubscriber where
  signed h := by
    have hauth := (returns_subscribe.1 (protocolClient_subscribe.1 h).2).1
    simp only [Host.authorizes, Bool.and_eq_true] at hauth
    exact hauth.1
  only htime hauth := by
    ext σ'
    simp only [protocolClient_subscribe, returns_subscribe, Host.authorizes, htime, hauth]

/-- **No new states.** With the operator in front of it, the subscription contract gets into no
state that is not reachable without. -/
theorem reachable_ledger (w : World)
    (steps : List (OperatorStep Address (Step Address Hash External))) :
    Reachable H (after (operatorNext (protocolClient H operatorId))
      (.deployed Address (State.deployed Address Hash w)) steps).ledger := by
  refine (delegations_direct protocolClient_requiresSubscriber _ steps).1.invariant (Reachable H)
    ?_ ⟨w, [], rfl⟩
  rintro _ (⟨env, protocolId, args⟩ | step) σ' ⟨w, steps, rfl⟩ happly
  · have hr := (protocolClient_subscribe.1 happly).2
    refine ⟨w, steps ++ [⟨env, .invoke (.subscribe args.subscriber args.merchant args.token
      args.amount args.interval false none)⟩], ?_⟩
    rw [after_append, after_cons, after_nil]
    exact (next_eq_of_returns (Tx.returns_bind_const.2 ⟨hr, rfl⟩)).symm
  · obtain rfl := Option.some.inj happly
    exact ⟨w, steps ++ [step], by rw [after_append, after_cons, after_nil]; rfl⟩

end SubscriptionContract

/-- The operator 7 is initialized, and subscribes 1 with 2. -/
def sampleDelegation : List (OperatorStep UInt8 (Step UInt8 (List UInt8) (External UInt8))) :=
  [.invoke (sampleEnv 1) (.init 5),
    .invoke (sampleEnv 1) (.delegateSubscribe 0 ⟨1, 2, 9, 100, 86400⟩)]

end Operator

end SorobanPay
