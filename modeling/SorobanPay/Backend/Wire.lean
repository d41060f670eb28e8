import Mathlib.Algebra.Group.Int.Defs
import SorobanPay.Contract.Types

/-!
# The events of the contract on the wire

The services under `backend/src` see the events of the contract as the RPC returns them: a list of
topics and a value, both of type `ScVal`, with the place of the event in the ledger. `Event.topics`
and `Event.value` are what the emitters of `events.rs` publish, in the encoding of the Soroban SDK:
a tuple becomes a vector, `()` and `None` become void, and an `i128` is split in two words.

The accessors of the JavaScript SDK that the services use on these values are those of the API with
`switch()`, which the services are written for. The version of the SDK that the packages declare has
others.

An address is the key of an account or the identifier of a contract. `Wire` says how the addresses
of the contract model are sent.

## Main definitions

* `ScAddress`, `ScVal`: the values on the wire.
* `EventResponse`: an event as the RPC returns it.
* `Wire`: the encoding of addresses.
* `Event.topics`, `Event.value`, `Carries`: the events of the contract on the wire.

## Main results

* `ScVal.i128Value_ofI128`: an `i128` is recovered from its two words.
-/

set_option autoImplicit false

namespace SorobanPay

/-! ### Values -/

/-- Byte strings of length 32. -/
abbrev Bytes32 : Type := {bs : List UInt8 // bs.length = 32}

/-- `xdr.ScAddress`. The kinds of addresses that are neither accounts nor contracts are told apart
by their XDR bytes. -/
inductive ScAddress
  | account (ed25519 : Bytes32)
  | contract (contractId : Bytes32)
  | other (xdr : List UInt8)
  deriving DecidableEq

/-- `xdr.ScVal`. The kinds that the contract does not publish and the services do not look into are
told apart by their XDR bytes. -/
inductive ScVal
  | void
  | u32 (n : UInt32)
  | u64 (n : UInt64)
  | i64 (n : Int64)
  | i128 (hi : Int64) (lo : UInt64)
  | symbol (s : String)
  | string (s : String)
  | address (a : ScAddress)
  | vec (vals : List ScVal)
  | other (xdr : List UInt8)

namespace ScVal

/-- The number that two words stand for. The lower word is below `2 ^ 64`, so that adding it is the
same as the bitwise or of the shifted upper word with it. -/
def i128Value (hi : Int64) (lo : UInt64) : ℤ := hi.toInt * 2 ^ 64 + lo.toNat

/-- The two words of a number. -/
def ofI128 (a : ℤ) : ScVal :=
  i128 (Int64.ofInt (a / 2 ^ 64)) (UInt64.ofNat (a % 2 ^ 64).toNat)

theorem i128Value_ofI128 {a : ℤ} (hlow : -2 ^ 127 ≤ a) (hhigh : a < 2 ^ 127) :
    i128Value (Int64.ofInt (a / 2 ^ 64)) (UInt64.ofNat (a % 2 ^ 64).toNat) = a := by
  have hhi : (Int64.ofInt (a / 2 ^ 64)).toInt = a / 2 ^ 64 :=
    Int64.toInt_ofInt_of_le (by omega) (by omega)
  have hlo : (UInt64.ofNat (a % 2 ^ 64).toNat).toNat = (a % 2 ^ 64).toNat :=
    UInt64.toNat_ofNat_of_lt (by simp only [UInt64.size]; omega)
  rw [i128Value, hhi, hlo]
  omega

end ScVal

/-! ### Events -/

/-- `Api.EventResponse`: an event as the RPC returns it. The close time of the ledger is in
milliseconds. -/
structure EventResponse where
  id : String
  ledger : ℕ
  ledgerClosedAt : Option ℕ
  txHash : Option String
  topic : List ScVal
  value : Option ScVal

/-- How addresses are sent: as accounts or contracts, and different addresses differently. -/
structure Wire (Address : Type) where
  toScAddress : Address → ScAddress
  injective : Function.Injective toScAddress
  kind : ∀ a, ∃ bs, toScAddress a = .account bs ∨ toScAddress a = .contract bs

namespace Event

variable {Address : Type} (W : Wire Address)

/-- The topics that an event is published with. -/
def topics (event : Event Address) : List ScVal :=
  let address (a : Address) : ScVal := .address (W.toScAddress a)
  match event with
  | subscribe s m token _ => [.symbol "subscribe", address s, address m, address token]
  | updated s m _ _ _ _ => [.symbol "updated", address s, address m]
  | paymentTransferSuccess s m _ => [.symbol "payment_transfer_success", address s, address m]
  | paymentTransferFailure s m _ _ => [.symbol "payment_transfer_failure", address s, address m]
  | executed s m token _ _ => [.symbol "executed", address s, address m, address token]
  | cancel s m _ => [.symbol "cancel", address s, address m]
  | batchExecuteInitiated m _ => [.symbol "batch_execute_initiated", address m]
  | contractMigrated admin _ => [.symbol "contract_migrated", address admin]
  | subscriptionTransferred s old new =>
    [.symbol "subscription_transferred", address s, address old, address new]
  | lowAllowance s m token _ _ => [.symbol "low_allowance", address s, address m, address token]
  | paused s m _ => [.symbol "paused", address s, address m]
  | resumed s m _ => [.symbol "resumed", address s, address m]
  | feeCollected s m collector _ =>
    [.symbol "fee_collected", address s, address m, address collector]
  | insufficientAllowance s m _ _ => [.symbol "insufficient_allowance", address s, address m]

/-- The data that an event is published with. -/
def value : Event Address → ScVal
  | subscribe _ _ _ amount => .ofI128 amount
  | updated _ _ oldAmount newAmount oldInterval newInterval =>
    .vec [.ofI128 oldAmount, .ofI128 newAmount, .u64 (.ofNat oldInterval),
      .u64 (.ofNat newInterval)]
  | paymentTransferSuccess _ _ amount => .ofI128 amount
  | paymentTransferFailure _ _ amount overdueSince =>
    .vec [.ofI128 amount, .u64 (.ofNat overdueSince)]
  | executed _ _ _ amount nonce => .vec [.ofI128 amount, .u32 (.ofNat nonce)]
  | cancel _ _ reason => .u32 (.ofNat reason)
  | batchExecuteInitiated _ batchSize => .ofI128 batchSize
  | contractMigrated _ newVersion => .ofI128 newVersion
  | subscriptionTransferred .. => .void
  | lowAllowance _ _ _ allowance required => .vec [.ofI128 allowance, .ofI128 required]
  | paused _ _ resumeAt => resumeAt.elim .void fun t => .u64 (.ofNat t)
  | resumed _ _ nextPayment => .u64 (.ofNat nextPayment)
  | feeCollected _ _ _ feeAmount => .ofI128 feeAmount
  | insufficientAllowance _ _ allowance required => .vec [.ofI128 allowance, .ofI128 required]

end Event

/-- The RPC returns `raw` for an event of the contract. -/
structure Carries {Address : Type} (W : Wire Address) (raw : EventResponse)
    (event : Event Address) : Prop where
  topic : raw.topic = event.topics W
  value : raw.value = some event.value

/-- Addresses that are one byte, sent as contracts. -/
def sampleWire : Wire UInt8 where
  toScAddress b := .contract ⟨List.replicate 32 b, List.length_replicate⟩
  injective b b' h := by
    have hbytes := congrArg Subtype.val (ScAddress.contract.inj h)
    exact (List.cons.inj hbytes).1
  kind _ := ⟨_, .inr rfl⟩

/-- An event of the sample, closed at the given time. -/
def sampleResponse (id : String) (ledger : ℕ) (event : Event UInt8) : EventResponse where
  id := id
  ledger := ledger
  ledgerClosedAt := some (1000 * ledger)
  txHash := some id
  topic := event.topics sampleWire
  value := some event.value

theorem carries_sampleResponse (id : String) (ledger : ℕ) (event : Event UInt8) :
    Carries sampleWire (sampleResponse id ledger event) event := ⟨rfl, rfl⟩

end SorobanPay
