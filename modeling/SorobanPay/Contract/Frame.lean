import SorobanPay.Contract.Invocation

/-!
# What micro-steps leave alone

Outside the payment paths no entry point touches the token contracts or the execution markers, and
none publishes `executed`; the fee configuration changes only by `set_protocol_fee`.

## Main definitions

* `Call.Frame`: what a successful plain call leaves alone.
* `Call.IsAdministration`: the calls that store nothing but the configuration.

## Main results

* `Call.frame`: every plain call has this frame.
* `Call.leaves_of_administration`: records and listings under the calls of the administration.
-/

set_option autoImplicit false

namespace SorobanPay

open Foundation

variable {Address Hash World Op : Type}

/-- The payments reported by `executed`. -/
def Event.IsExecuted : Event Address → Prop
  | .executed .. => True
  | _ => False

/-- What a successful call outside the payment paths leaves alone. -/
structure Call.Frame (call : Call Address) (σ σ' : State Address Hash World) : Prop where
  tokens : σ'.tokens = σ.tokens
  executionMarkers : σ'.executionMarkers = σ.executionMarkers
  protocolFee : σ'.protocolFee = σ.protocolFee ∨ ∃ admin feeBps collector,
    call = .setProtocolFee admin feeBps collector ∧ feeBps ≤ maxFeeBps ∧
      σ'.protocolFee = some { feeBps := feeBps, feeCollector := collector }
  events : ∃ events, σ'.events = σ.events ++ events ∧ ∀ event ∈ events, ¬ event.IsExecuted

variable [DecidableEq Address] [DecidableEq Hash] {H : Host Address Hash World Op}
  {env : Env Address} {σ σ' : State Address Hash World}

theorem Call.frame {call : Call Address} {reply : Reply Address} (plain : call.IsPlain)
    (h : (call.run H env).Returns σ reply σ') : call.Frame σ σ' := by
  cases call with
  | init admin =>
    obtain ⟨⟨-, rfl⟩, -⟩ := by simpa only [Call.run, Tx.returns_bind_const, returns_init] using h
    exact ⟨rfl, rfl, .inl rfl, [], by simp, by simp⟩
  | setMaxAmount admin newMax =>
    simp only [Call.run, Tx.returns_bind_const, returns_setMaxAmount] at h
    obtain ⟨⟨-, -, config, -, -, rfl⟩, -⟩ := h
    exact ⟨rfl, rfl, .inl rfl, [], by simp, by simp⟩
  | migrate admin =>
    simp only [Call.run, Tx.returns_bind_const, returns_migrate] at h
    obtain ⟨⟨-, -, -, rfl⟩, -⟩ := h
    exact ⟨rfl, rfl, .inl rfl, _, rfl, by simp [Event.IsExecuted]⟩
  | setProtocolFee admin feeBps collector =>
    simp only [Call.run, Tx.returns_bind_const, returns_setProtocolFee] at h
    obtain ⟨⟨-, -, hfee, rfl⟩, -⟩ := h
    exact ⟨rfl, rfl, .inr ⟨_, _, _, rfl, hfee, rfl⟩, [], by simp, by simp⟩
  | subscribe s m token amount interval strict grace =>
    simp only [Call.run, Tx.returns_bind_const, returns_subscribe, State.indexAdd,
      State.rosterAdd_eq, State.noteAllowance_eq] at h
    obtain ⟨⟨-, -, -, -, -, -, a, -, -, -, rfl⟩, -⟩ := h
    refine ⟨rfl, rfl, .inl rfl, _, List.append_assoc .., ?_⟩
    split_ifs <;> simp [Event.IsExecuted]
  | updateSubscription s m amount interval =>
    simp only [Call.run, Tx.returns_bind_const, returns_updateSubscription] at h
    obtain ⟨⟨-, d, -, -, -, rfl⟩, -⟩ := h
    exact ⟨rfl, rfl, .inl rfl, _, rfl, by simp [Event.IsExecuted]⟩
  | pauseSubscription s m token resumeAt =>
    simp only [Call.run, Tx.returns_bind_const, returns_pauseSubscription] at h
    obtain ⟨⟨-, d, -, -, -, rfl⟩, -⟩ := h
    exact ⟨rfl, rfl, .inl rfl, _, rfl, by simp [Event.IsExecuted]⟩
  | resumeSubscription s m token =>
    simp only [Call.run, Tx.returns_bind_const, returns_resumeSubscription] at h
    obtain ⟨⟨-, d, -, -, -, rfl⟩, -⟩ := h
    exact ⟨rfl, rfl, .inl rfl, _, rfl, by simp [Event.IsExecuted]⟩
  | cancel s m token =>
    simp only [Call.run, Tx.returns_bind_const, returns_cancel, State.indexRemove_eq,
      State.rosterRemove_eq] at h
    obtain ⟨⟨-, -, rfl⟩, -⟩ := h
    exact ⟨rfl, rfl, .inl rfl, _, rfl, by simp [Event.IsExecuted]⟩
  | transferSubscription s old new =>
    simp only [Call.run, Tx.returns_bind_const, returns_transferSubscription, State.indexAdd,
      State.indexRemove_eq] at h
    obtain ⟨⟨-, -, -, -, d, -, -, rfl⟩, -⟩ := h
    exact ⟨rfl, rfl, .inl rfl, _, rfl, by simp [Event.IsExecuted]⟩
  | executePayment | batchExecutePayment => exact plain.elim

/-- The calls that store nothing but the configuration. -/
def Call.IsAdministration : Call Address → Prop
  | .init .. | .setMaxAmount .. | .migrate .. | .setProtocolFee .. => True
  | _ => False

/-- They leave the records and the listings. -/
theorem Call.leaves_of_administration {call : Call Address} {reply : Reply Address}
    (h : (call.run H env).Returns σ reply σ') (admin : call.IsAdministration) :
    σ'.subscriptions = σ.subscriptions ∧ σ'.merchantIndex = σ.merchantIndex ∧
      σ'.merchantSubscribers = σ.merchantSubscribers := by
  cases call with
  | init =>
    obtain ⟨-, rfl⟩ := returns_init.1 (Tx.returns_bind_const.1 h).1
    exact ⟨rfl, rfl, rfl⟩
  | setMaxAmount =>
    obtain ⟨-, -, config, -, -, rfl⟩ := returns_setMaxAmount.1 (Tx.returns_bind_const.1 h).1
    exact ⟨rfl, rfl, rfl⟩
  | migrate =>
    obtain ⟨-, -, -, rfl⟩ := returns_migrate.1 (Tx.returns_bind_const.1 h).1
    exact ⟨rfl, rfl, rfl⟩
  | setProtocolFee =>
    obtain ⟨-, -, -, rfl⟩ := returns_setProtocolFee.1 (Tx.returns_bind_const.1 h).1
    exact ⟨rfl, rfl, rfl⟩
  | _ => exact admin.elim

/-- They leave every record. -/
theorem Call.record_of_administration {call : Call Address} {reply : Reply Address}
    (h : (call.run H env).Returns σ reply σ') (admin : call.IsAdministration) :
    H.record σ' = H.record σ := by
  funext s m
  rw [Host.record, (Call.leaves_of_administration h admin).1, Host.record]

end SorobanPay
