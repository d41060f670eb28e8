import SorobanPay.Lifecycle.Refinement

/-!
# What a run publishes about its records

Of the events of the contract, `subscribe`, `executed` and `cancel` say that a subscription was
made, collected or ended. Off-chain services follow the subscriptions by them. Each belongs to one
kind of micro-step, and the events of a run of these kinds are those of its micro-steps, in order.

## Main definitions

* `Event.announces`: the events that announce what has become of a subscription.
* `MicroStep.announcements`: the announcements of a micro-step.

## Main results

* `MicroStep.Genuine.announced`: what a micro-step publishes.
* `filter_announces_after`: the announcements of a run.
-/

set_option autoImplicit false

namespace SorobanPay

open Foundation

variable {Address Hash World Op : Type}

/-- `subscribe`, `executed` and `cancel`. -/
def Event.announces : Event Address → Bool
  | .subscribe .. | .executed .. | .cancel .. => true
  | _ => false

/-- The announcements of a micro-step: of a new subscription, of its end, and of a collection. -/
def MicroStep.announcements (H : Host Address Hash World Op)
    (μ : MicroStep Address Hash World Op) : List (Event Address) :=
  match μ.deed with
  | .applied (.subscribe s m token amount ..) => [.subscribe s m token amount]
  | .applied (.cancel s m _) => [.cancel s m 1]
  | .executed s m | .entry s m true =>
    (H.record μ.before s m).toList.map fun d =>
      .executed s m d.token d.amount (d.paymentNonce + 1)
  | _ => []

section Steps

variable [DecidableEq Address] [DecidableEq Hash] {H : Host Address Hash World Op}
  {env : Env Address} {σ σ' : State Address Hash World} {μ : MicroStep Address Hash World Op}

/-- The events a plain call publishes. -/
theorem Call.announced {call : Call Address} {reply : Reply Address} (plain : call.IsPlain)
    (h : (call.run H env).Returns σ reply σ') :
    ∃ events, σ'.events = σ.events ++ events ∧ events.filter Event.announces =
      MicroStep.announcements H
        (⟨env, σ, .applied call, σ'⟩ : MicroStep Address Hash World Op) := by
  cases call with
  | init =>
    simp only [Call.run, Tx.returns_bind_const, returns_init] at h
    obtain ⟨⟨-, rfl⟩, -⟩ := h
    exact ⟨[], (List.append_nil _).symm, rfl⟩
  | setMaxAmount =>
    simp only [Call.run, Tx.returns_bind_const, returns_setMaxAmount] at h
    obtain ⟨⟨-, -, config, -, -, rfl⟩, -⟩ := h
    exact ⟨[], (List.append_nil _).symm, rfl⟩
  | migrate =>
    simp only [Call.run, Tx.returns_bind_const, returns_migrate] at h
    obtain ⟨⟨-, -, -, rfl⟩, -⟩ := h
    exact ⟨_, rfl, rfl⟩
  | setProtocolFee =>
    simp only [Call.run, Tx.returns_bind_const, returns_setProtocolFee] at h
    obtain ⟨⟨-, -, -, rfl⟩, -⟩ := h
    exact ⟨[], (List.append_nil _).symm, rfl⟩
  | subscribe =>
    simp only [Call.run, Tx.returns_bind_const, returns_subscribe, State.indexAdd,
      State.rosterAdd_eq, State.noteAllowance_eq] at h
    obtain ⟨⟨-, -, -, -, -, -, a, -, -, -, rfl⟩, -⟩ := h
    refine ⟨_, List.append_assoc .., ?_⟩
    split_ifs <;> rfl
  | updateSubscription =>
    simp only [Call.run, Tx.returns_bind_const, returns_updateSubscription] at h
    obtain ⟨⟨-, d, -, -, -, rfl⟩, -⟩ := h
    exact ⟨_, rfl, rfl⟩
  | pauseSubscription =>
    simp only [Call.run, Tx.returns_bind_const, returns_pauseSubscription] at h
    obtain ⟨⟨-, d, -, -, -, rfl⟩, -⟩ := h
    exact ⟨_, rfl, rfl⟩
  | resumeSubscription =>
    simp only [Call.run, Tx.returns_bind_const, returns_resumeSubscription] at h
    obtain ⟨⟨-, d, -, -, -, rfl⟩, -⟩ := h
    exact ⟨_, rfl, rfl⟩
  | cancel =>
    simp only [Call.run, Tx.returns_bind_const, returns_cancel, State.indexRemove_eq,
      State.rosterRemove_eq] at h
    obtain ⟨⟨-, -, rfl⟩, -⟩ := h
    exact ⟨_, rfl, rfl⟩
  | transferSubscription =>
    simp only [Call.run, Tx.returns_bind_const, returns_transferSubscription, State.indexAdd,
      State.indexRemove_eq] at h
    obtain ⟨⟨-, -, -, -, d, -, -, rfl⟩, -⟩ := h
    exact ⟨_, rfl, rfl⟩
  | executePayment | batchExecutePayment => exact plain.elim

omit [DecidableEq Hash] in
/-- The events of fees announce nothing. -/
theorem filter_announces_of_payment {config : Option (ProtocolFeeConfig Address)} {w w' : World}
    {s m token : Address} {amount : ℤ} {fees : List (Event Address)}
    (h : payment H env config w s m token amount = some (w', fees)) :
    fees.filter Event.announces = [] := by
  refine List.filter_eq_nil_iff.2 fun event hevent => ?_
  obtain ⟨collector, fee, rfl⟩ := events_of_payment h event hevent
  exact Bool.false_ne_true

/-- A collection announces itself. -/
theorem Collects.announced {s m : Address} {d : SubscriptionData Address}
    {fees : List (Event Address)} (h : Collects H μ s m d fees) :
    ∃ events, μ.after.events = μ.before.events ++ events ∧
      events.filter Event.announces = [.executed s m d.token d.amount (d.paymentNonce + 1)] := by
  obtain ⟨success, hsuccess, hevents⟩ := h.published
  refine ⟨_, by rw [hevents, List.append_assoc, List.append_assoc], ?_⟩
  rw [List.filter_append, filter_announces_of_payment h.charge.paid, List.nil_append]
  rcases hsuccess with rfl | rfl <;> rfl

/-- **What a micro-step publishes.** -/
theorem MicroStep.Genuine.announced (hσ : Sound H μ.before) (hμ : μ.Genuine H) :
    ∃ events, μ.after.events = μ.before.events ++ events ∧
      events.filter Event.announces = μ.announcements H := by
  cases hμ with
  | applied plain h => exact Call.announced plain h
  | executed h =>
    obtain ⟨d, fees, hcollect⟩ := (MicroStep.Genuine.executed h).collects hσ (.inl rfl)
    have hd := hcollect.found
    obtain ⟨events, hevents, hannounced⟩ := hcollect.announced
    exact ⟨events, hevents, by simp [MicroStep.announcements, hd, hannounced]⟩
  | @entry _ _ _ _ _ charged auth hnow h =>
    cases charged with
    | true =>
      obtain ⟨d, fees, hcollect⟩ := (MicroStep.Genuine.entry auth hnow h).collects hσ (.inr rfl)
      have hd := hcollect.found
      obtain ⟨events, hevents, hannounced⟩ := hcollect.announced
      exact ⟨events, hevents, by simp [MicroStep.announcements, hd, hannounced]⟩
    | false =>
      cases h with
      | absent | notDue => exact ⟨[], (List.append_nil _).symm, rfl⟩
      | lowAllowance | underfunded => exact ⟨_, rfl, rfl⟩
  | opened => exact ⟨_, rfl, rfl⟩
  | reverted | lapsed | external => exact ⟨[], (List.append_nil _).symm, rfl⟩

theorem filter_announces_of_path {μs : List (MicroStep Address Hash World Op)}
    (hkey : H.KeysInjective) (h : Path (Leads H) σ μs σ') (hσ : Sound H σ) :
    σ'.events.filter Event.announces =
      σ.events.filter Event.announces ++ μs.flatMap (MicroStep.announcements H) := by
  induction h with
  | nil => simp
  | cons hd _ ih =>
    obtain ⟨rfl, rfl, hgen⟩ := hd
    obtain ⟨events, hevents, hannounced⟩ := hgen.announced hσ
    rw [ih (hgen.sound hkey hσ), hevents, List.filter_append, hannounced, List.flatMap_cons,
      List.append_assoc]

/-- **The announcements of a run** are those of its micro-steps. -/
theorem filter_announces_after (hkey : H.KeysInjective) {w : World}
    {steps : List (Step Address Hash Op)} :
    (after (next H) (State.deployed Address Hash w) steps).events.filter Event.announces =
      (microHistory H (State.deployed Address Hash w) steps).flatMap
        (MicroStep.announcements H) :=
  filter_announces_of_path hkey (path_microHistory _ steps) (sound_deployed w)

end Steps

end SorobanPay
