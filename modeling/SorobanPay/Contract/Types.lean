import Mathlib.Data.Int.Notation
import SorobanPay.Foundation.Transaction

/-!
# Data of the subscription contract

The records, errors and events of the contract `SubscriptionProtocol`
(`contracts/subscription/src`, files `storage.rs`, `error.rs`, `events.rs`, `lib.rs`), the ledger
state it runs on, and what it asks of the Soroban host.

Addresses, storage hashes and the state of the token contracts are arbitrary types. The host
supplies what is not in the repository: the XDR encoding and SHA-256 behind the storage keys, the
address of the contract, and the token contracts the contract calls (`TokenHost`). A token may
behave in any way; what a result needs of it is a hypothesis of that result.

Amounts are `i128`, timestamps and intervals `u64`, the payment nonce and versions `u32`. They are
integers and natural numbers here, and every operation of the source that can overflow is checked
where it is made. The time-to-live of storage entries is left out: an archived persistent entry
keeps its value, and temporary entries lapse by steps of their own
(`SorobanPay.Contract.Invocation`).

## Main definitions

* `ContractError`, `Fault`: the errors an entry point returns, and the ways an invocation ends
  without a result.
* `SubscriptionData`, `AdminConfig`, `ProtocolFeeConfig`, `SubscriptionEntry`: stored records.
* `Event`: the published events with their topics and data.
* `Host`, `Env`, `State`: the host, one invocation's environment, the ledger state.
-/

set_option autoImplicit false

namespace SorobanPay

/-! ### Constants -/

/-- `storage::MAX_AMOUNT`. -/
def maxAmount : ℤ := 1000000000000000000

/-- The shortest interval `subscribe` accepts, one day. -/
def minInterval : ℕ := 86400

/-- The longest interval `subscribe` accepts, 365 days. -/
def maxInterval : ℕ := 31536000

/-- `storage::MAX_FEE_BPS`: 500 basis points. -/
def maxFeeBps : ℕ := 500

/-- `BATCH_MAX_SIZE`. -/
def batchMaxSize : ℕ := 50

/-- `storage::CURRENT_SCHEMA_VERSION`. -/
def currentSchemaVersion : ℕ := 2

/-- `storage::CONTRACT_VERSION`. -/
def contractVersion : String := "1.0.0"

/-! ### Errors -/

/-- The errors returned by the entry points. -/
inductive ContractError
  | amountMustBePositive
  | intervalTooShort
  | intervalTooLong
  | noActiveSubscription
  | paymentNotDue
  | transferFailed
  | invalidTimestamp
  | amountTooLarge
  | selfSubscription
  | emptyBatch
  | batchTooLarge
  | insufficientAllowance
  | alreadyMigrated
  | notAdmin
  | notInitialized
  | subscriptionPaused
  | subscriptionNotPaused
  | amountExceedsLimit
  | sameMerchant
  | subscriptionAlreadyExists
  | duplicateExecution
  | feeBpsTooHigh
  deriving DecidableEq, Repr

/-- An invocation ends without a result by returning an error, or because the host aborts it:
a missing authorization, an arithmetic overflow, a panic, or a token call that aborts. -/
inductive Fault
  | error (e : ContractError)
  | abort
  deriving DecidableEq, Repr

/-! ### Stored records -/

/-- `storage::SubscriptionData`, with the fields the entry points of `lib.rs` read and write. -/
structure SubscriptionData (Address : Type) where
  token : Address
  amount : ℤ
  interval : ℕ
  nextPayment : ℕ
  isPaused : Bool
  gracePeriod : ℕ
  overdueSince : Option ℕ
  paymentNonce : ℕ
  pausedUntil : Option ℕ
  deriving DecidableEq, Repr

/-- The admin address and the amount limit for `subscribe`. -/
structure AdminConfig (Address : Type) where
  admin : Address
  maxAmount : ℤ
  deriving DecidableEq, Repr

/-- The fee rate in basis points and the address that receives the fee. -/
structure ProtocolFeeConfig (Address : Type) where
  feeBps : ℕ
  feeCollector : Address
  deriving DecidableEq, Repr

/-- One entry of `get_merchant_subscriptions`. -/
structure SubscriptionEntry (Address : Type) where
  subscriber : Address
  data : SubscriptionData Address
  deriving DecidableEq, Repr

/-! ### Events -/

/-- The events of `events.rs` that the entry points publish, each with its topics in order and
then its data. -/
inductive Event (Address : Type)
  | subscribe (subscriber merchant token : Address) (amount : ℤ)
  | updated (subscriber merchant : Address) (oldAmount newAmount : ℤ)
      (oldInterval newInterval : ℕ)
  | paymentTransferSuccess (subscriber merchant : Address) (amount : ℤ)
  | paymentTransferFailure (subscriber merchant : Address) (amount : ℤ) (overdueSince : ℕ)
  | executed (subscriber merchant token : Address) (amount : ℤ) (nonce : ℕ)
  | cancel (subscriber merchant : Address) (reason : ℕ)
  | batchExecuteInitiated (merchant : Address) (batchSize : ℕ)
  | contractMigrated (admin : Address) (newVersion : ℕ)
  | subscriptionTransferred (subscriber oldMerchant newMerchant : Address)
  | lowAllowance (subscriber merchant token : Address) (allowance required : ℤ)
  | paused (subscriber merchant : Address) (resumeAt : Option ℕ)
  | resumed (subscriber merchant : Address) (nextPayment : ℕ)
  | feeCollected (subscriber merchant feeCollector : Address) (feeAmount : ℤ)
  | insufficientAllowance (subscriber merchant : Address) (allowance required : ℤ)
  deriving DecidableEq, Repr

/-! ### The host -/

/-- The token contracts as the contract calls them, over a state `World` of all of them. A call
that has no result aborts. `transfer` is told who has authorized it. `act` is what happens to the
tokens outside the invocations of the contract, `Op` being the operations others perform. -/
structure TokenHost (Address World Op : Type) where
  symbol : World → (token : Address) → Option String
  allowance : World → (token owner spender : Address) → Option ℤ
  balance : World → (token holder : Address) → Option ℤ
  transfer : (authorized : Address → Bool) → World → (token src dst : Address) → ℤ → Option World
  act : World → Op → World

/-- What the contract uses of the Soroban host. -/
structure Host (Address Hash World Op : Type) where
  toXdr : Address → List UInt8
  sha256 : List UInt8 → Hash
  currentContractAddress : Address
  tokens : TokenHost Address World Op

/-- The environment of one invocation: the ledger timestamp, and the addresses that have
authorized the invocation. -/
structure Env (Address : Type) where
  timestamp : ℕ
  authorized : Address → Bool

/-- The ledger state: instance storage, persistent storage, temporary storage, the token
contracts, and the events published so far. -/
structure State (Address Hash World : Type) where
  admin : Option Address
  schemaVersion : Option ℕ
  adminConfig : Option (AdminConfig Address)
  protocolFee : Option (ProtocolFeeConfig Address)
  subscriptions : Hash → Option (SubscriptionData Address)
  merchantIndex : Address → Option (List Hash)
  merchantSubscribers : Address → Option (List Address)
  executionMarkers : Hash → ℕ → Bool
  tokens : World
  events : List (Event Address)

/-- The state after deployment: nothing is stored and nothing published. -/
def State.deployed (Address Hash : Type) {World : Type} (w : World) : State Address Hash World where
  admin := none
  schemaVersion := none
  adminConfig := none
  protocolFee := none
  subscriptions := fun _ => none
  merchantIndex := fun _ => none
  merchantSubscribers := fun _ => none
  executionMarkers := fun _ _ => false
  tokens := w
  events := []

/-- A computation of the contract. -/
abbrev Contract (Address Hash World α : Type) : Type :=
  Foundation.Tx (State Address Hash World) Fault α

end SorobanPay
