import SorobanPay.Contract.Types
import SorobanPay.Foundation.Run

/-!
# The operator contract

`lib.rs` of the operator example: a contract that calls `subscribe` of a subscription protocol for
its callers. It has an administrator, who may pause it, and keeps nothing else. The protocol is
another contract, reached by its address through the interface that the operator declares; it is a
parameter here, with the part of the ledger that it changes.

The interface declares `subscribe` with five arguments. The subscription contract takes two more, so
it is not reached through this interface as it stands, and a call fails like any other call that the
protocol does not accept.

A contract authorizes what it calls itself, so the protocol sees the signatures of the invocation
and the operator.

## Main definitions

* `OperatorState`, `OperatorEvent`, `OperatorError`: the storage, the events, the errors.
* `SubscriptionClient`: the protocols, behind the interface.
* `init`, `pause`, `unpause`, `delegateSubscribe`, `isPaused`, `admin`: the entry points.
* `OperatorStep`, `operatorNext`, `operatorEvents`: runs.
-/

set_option autoImplicit false

namespace SorobanPay

open Foundation

namespace Operator

variable {Address Ledger Op : Type}

/-- `OperatorError`. -/
inductive OperatorError
  | operatorPaused
  | notInitialized
  | alreadyInitialized
  deriving DecidableEq, Repr

/-- The codes of the errors. -/
def OperatorError.code : OperatorError → ℕ
  | operatorPaused => 1
  | notInitialized => 2
  | alreadyInitialized => 3

/-- An invocation fails with an error, or is aborted by the host. -/
inductive OperatorFault
  | error (e : OperatorError)
  | abort
  deriving DecidableEq, Repr

/-- The events that the operator publishes. -/
inductive OperatorEvent (Address : Type)
  | operatorPaused (admin : Address)
  | operatorUnpaused (admin : Address)
  | delegatedSubscribe (subscriber merchant : Address) (amount : ℤ)
  deriving DecidableEq, Repr

/-- The arguments of `subscribe` in `SubscriptionProtocolInterface`. -/
structure SubscribeArgs (Address : Type) where
  subscriber : Address
  merchant : Address
  token : Address
  amount : ℤ
  interval : ℕ
  deriving DecidableEq, Repr

/-- The operator's storage under `DataKey`, its events, and the rest of the ledger. -/
structure OperatorState (Address Ledger : Type) where
  admin : Option Address
  paused : Option Bool
  events : List (OperatorEvent Address)
  ledger : Ledger

/-- The operator after its deployment. -/
def OperatorState.deployed (Address : Type) (ledger : Ledger) : OperatorState Address Ledger where
  admin := none
  paused := none
  events := []
  ledger := ledger

/-- `SubscriptionClient`: what `subscribe` of the contract at an address does to the ledger, unless
it fails. Besides, others act on the ledger. -/
structure SubscriptionClient (Address Ledger Op : Type) where
  operatorId : Address
  subscribe : Env Address → Address → SubscribeArgs Address → Ledger → Option Ledger
  act : Op → Ledger → Ledger

/-- An entry point of the operator. -/
abbrev Entry (Address Ledger α : Type) : Type := Tx (OperatorState Address Ledger) OperatorFault α

section EntryPoints

variable [DecidableEq Address] (C : SubscriptionClient Address Ledger Op) (env : Env Address)

/-- `require_auth` in the operator. No signature is that of the operator itself. -/
def SubscriptionClient.authorizes (a : Address) : Bool := env.authorized a && a != C.operatorId

/-- The environment of what the operator calls. -/
def SubscriptionClient.subInvocation : Env Address where
  timestamp := env.timestamp
  authorized a := env.authorized a || a == C.operatorId

/-- Publish an event. -/
def publishEvent (event : OperatorEvent Address) : Entry Address Ledger Unit :=
  Tx.modify fun σ => { σ with events := σ.events ++ [event] }

/-- `is_paused`. -/
def isPaused (σ : OperatorState Address Ledger) : Bool := σ.paused.getD false

/-- `admin`. -/
def admin : Entry Address Ledger Address := do
  let stored ← Tx.gets fun σ => σ.admin
  Tx.orFail stored (.error .notInitialized)

/-- `initialize`, which is a keyword here. -/
def init (admin : Address) : Entry Address Ledger Unit := do
  let stored ← Tx.gets fun σ => σ.admin
  Tx.failIf (stored.isSome = true) (.error .alreadyInitialized)
  Tx.modify fun σ => { σ with admin := some admin, paused := some false }

/-- `pause`. -/
def pause : Entry Address Ledger Unit := do
  let admin ← admin
  Tx.failIf (C.authorizes env admin = false) .abort
  Tx.modify fun σ => { σ with paused := some true }
  publishEvent (.operatorPaused admin)

/-- `unpause`. -/
def unpause : Entry Address Ledger Unit := do
  let admin ← admin
  Tx.failIf (C.authorizes env admin = false) .abort
  Tx.modify fun σ => { σ with paused := some false }
  publishEvent (.operatorUnpaused admin)

/-- `delegate_subscribe`. -/
def delegateSubscribe (protocolId : Address) (args : SubscribeArgs Address) :
    Entry Address Ledger Unit := do
  let stored ← Tx.gets fun σ => σ.admin
  Tx.failIf (stored.isNone = true) (.error .notInitialized)
  let paused ← Tx.gets isPaused
  Tx.failIf (paused = true) (.error .operatorPaused)
  let ledger ← Tx.gets fun σ => σ.ledger
  let ledger' ← Tx.orFail (C.subscribe (C.subInvocation env) protocolId args ledger) .abort
  Tx.modify fun σ => { σ with ledger := ledger' }
  publishEvent (.delegatedSubscribe args.subscriber args.merchant args.amount)

end EntryPoints

/-! ### Runs -/

/-- The entry points that change the state, with their arguments. -/
inductive OperatorCall (Address : Type)
  | init (admin : Address)
  | pause
  | unpause
  | delegateSubscribe (protocolId : Address) (args : SubscribeArgs Address)
  deriving DecidableEq, Repr

/-- A step of a run: an invocation of the operator, or anything else on the ledger. -/
inductive OperatorStep (Address Op : Type)
  | invoke (env : Env Address) (call : OperatorCall Address)
  | external (op : Op)

section Runs

variable [DecidableEq Address] (C : SubscriptionClient Address Ledger Op)

/-- The body of an entry point. -/
def OperatorCall.run (env : Env Address) : OperatorCall Address → Entry Address Ledger Unit
  | .init admin => Operator.init admin
  | .pause => Operator.pause C env
  | .unpause => Operator.unpause C env
  | .delegateSubscribe protocolId args => Operator.delegateSubscribe C env protocolId args

/-- An invocation, with the host's commit or rollback. -/
def invokeOperator (env : Env Address) (call : OperatorCall Address)
    (σ : OperatorState Address Ledger) : Except OperatorFault Unit × OperatorState Address Ledger :=
  (call.run C env).commit σ

/-- The effect of one step. -/
def operatorNext (σ : OperatorState Address Ledger) :
    OperatorStep Address Op → OperatorState Address Ledger
  | .invoke env call => (invokeOperator C env call σ).2
  | .external op => { σ with ledger := C.act op σ.ledger }

/-- The events that a step publishes. -/
def operatorEvents (σ : OperatorState Address Ledger) (step : OperatorStep Address Op) :
    List (OperatorEvent Address) :=
  (operatorNext C σ step).events.drop σ.events.length

end Runs

/-! ### What the entry points do -/

section Spec

variable [DecidableEq Address] {C : SubscriptionClient Address Ledger Op} {env : Env Address}
  {σ σ' : OperatorState Address Ledger} {a protocolId : Address} {args : SubscribeArgs Address}
  {u : Unit}

omit [DecidableEq Address] in
@[simp] theorem returns_publishEvent {event : OperatorEvent Address} :
    (publishEvent event).Returns σ u σ' ↔ { σ with events := σ.events ++ [event] } = σ' :=
  Tx.returns_modify

omit [DecidableEq Address] in
@[simp] theorem returns_admin : (admin : Entry Address Ledger Address).Returns σ a σ' ↔
    σ.admin = some a ∧ σ = σ' := by
  simp [admin]

omit [DecidableEq Address] in
theorem returns_init : (init a).Returns σ u σ' ↔
    σ.admin = none ∧ { σ with admin := some a, paused := some false } = σ' := by
  simp [init]

theorem returns_pause : (pause C env).Returns σ u σ' ↔
    ∃ a, σ.admin = some a ∧ C.authorizes env a = true ∧
      { σ with paused := some true, events := σ.events ++ [.operatorPaused a] } = σ' := by
  simp [pause]

theorem returns_unpause : (unpause C env).Returns σ u σ' ↔
    ∃ a, σ.admin = some a ∧ C.authorizes env a = true ∧
      { σ with paused := some false, events := σ.events ++ [.operatorUnpaused a] } = σ' := by
  simp [unpause]

theorem returns_delegateSubscribe : (delegateSubscribe C env protocolId args).Returns σ u σ' ↔
    σ.admin.isSome = true ∧ isPaused σ = false ∧
      ∃ ledger, C.subscribe (C.subInvocation env) protocolId args σ.ledger = some ledger ∧
        { σ with
          ledger := ledger
          events := σ.events ++
            [.delegatedSubscribe args.subscriber args.merchant args.amount] } = σ' := by
  simp [delegateSubscribe, Option.isSome_iff_ne_none]

/-- How a delegation fails. -/
theorem fails_delegateSubscribe {e : OperatorFault} :
    (delegateSubscribe C env protocolId args).Fails σ e ↔
      (σ.admin = none ∧ e = .error .notInitialized) ∨
        (σ.admin.isSome = true ∧ isPaused σ = true ∧ e = .error .operatorPaused) ∨
          (σ.admin.isSome = true ∧ isPaused σ = false ∧
            C.subscribe (C.subInvocation env) protocolId args σ.ledger = none ∧ e = .abort) := by
  rcases hadmin : σ.admin with _ | a <;> cases hpaused : isPaused σ <;>
    simp [delegateSubscribe, hadmin, hpaused, publishEvent, eq_comm (a := e)]

end Spec

end Operator

end SorobanPay
