import Mathlib.Logic.Function.Basic
import SorobanPay.Contract.Types
import SorobanPay.Foundation.Arithmetic

/-!
# Storage helpers and host calls of the subscription contract

The helpers of `storage.rs` and the internal helpers at the head of `lib.rs`: the storage key of a
pair, the execution markers, the merchant index, the subscriber roster, the ledger timestamp, and
the calls to the host and to the token contracts.

`storage.rs` at this commit does not define the execution markers and the fee configuration that
`lib.rs` imports from it. They are modelled as their callers describe them: the markers are a set
of pairs of a storage hash and a nonce in temporary storage, and the fee configuration is one
entry of instance storage.

## Main definitions

* `Host.subscriptionKey`, `Host.record`: the storage key of a pair and the record stored there.
* `Host.KeysInjective`: distinct pairs have distinct storage keys.
* `State.indexAdd`, `State.indexRemove`, `State.rosterAdd`, `State.rosterRemove`: the merchant
  index and the subscriber roster.
* `requireAuth`, `ledgerTimestamp`, `tokenTransfer`, …: the calls made by the entry points.

## Main results

* `Host.record_setSubscription`, `Host.record_removeSubscription`: a write to the record of one
  pair changes no other record.
-/

set_option autoImplicit false

namespace SorobanPay

open Foundation

variable {Address Hash World Op : Type}

/-! ### Keys and authorization -/

namespace Host

variable (H : Host Address Hash World Op)

/-- `storage::subscription_key`. -/
def subscriptionKey (subscriber merchant : Address) : Hash :=
  H.sha256 (H.toXdr subscriber ++ H.toXdr merchant)

/-- Distinct pairs have distinct storage keys: the encoding of a pair of addresses is injective
and SHA-256 has no collision among the encodings. -/
def KeysInjective : Prop :=
  ∀ s m s' m', H.subscriptionKey s m = H.subscriptionKey s' m' → s = s' ∧ m = m'

theorem KeysInjective.eq_iff {H : Host Address Hash World Op} (hkey : H.KeysInjective)
    {s m s' m' : Address} :
    H.subscriptionKey s m = H.subscriptionKey s' m' ↔ s = s' ∧ m = m' :=
  ⟨hkey s m s' m', by rintro ⟨rfl, rfl⟩; rfl⟩

/-- The record of a pair, if it has one. -/
def record (σ : State Address Hash World) (subscriber merchant : Address) :
    Option (SubscriptionData Address) :=
  σ.subscriptions (H.subscriptionKey subscriber merchant)

variable [DecidableEq Address]

/-- `require_auth` of an entry point accepts `a`. The contract itself never authorizes an
invocation of one of its entry points: it has no `__check_auth` and does not call itself. -/
def authorizes (env : Env Address) (a : Address) : Bool :=
  env.authorized a && a != H.currentContractAddress

/-- `require_auth` of a token called by the contract accepts `a`: besides the addresses that
authorized the invocation, the contract authorizes what it calls. -/
def tokenAuthorization (env : Env Address) (a : Address) : Bool :=
  env.authorized a || a == H.currentContractAddress

end Host

/-! ### Writes to storage -/

namespace State

@[simps] def publish (σ : State Address Hash World) (event : Event Address) :
    State Address Hash World :=
  { σ with events := σ.events ++ [event] }

/-- Publish several events. -/
@[simps] def publishAll (σ : State Address Hash World) (events : List (Event Address)) :
    State Address Hash World :=
  { σ with events := σ.events ++ events }

@[simps] def setTokens (σ : State Address Hash World) (w : World) : State Address Hash World :=
  { σ with tokens := w }

@[simp] theorem publishAll_nil (σ : State Address Hash World) : σ.publishAll [] = σ := by
  simp [publishAll]

@[simp] theorem publishAll_singleton (σ : State Address Hash World) (event : Event Address) :
    σ.publishAll [event] = σ.publish event := rfl

@[simp] theorem setTokens_setTokens (σ : State Address Hash World) (w w' : World) :
    (σ.setTokens w).setTokens w' = σ.setTokens w' := rfl

section Hashes

variable [DecidableEq Hash]

@[simps] def setSubscription (σ : State Address Hash World) (hash : Hash)
    (data : SubscriptionData Address) : State Address Hash World :=
  { σ with subscriptions := Function.update σ.subscriptions hash (some data) }

@[simps] def removeSubscription (σ : State Address Hash World) (hash : Hash) :
    State Address Hash World :=
  { σ with subscriptions := Function.update σ.subscriptions hash none }

/-- `storage::write_execution_marker`. -/
@[simps] def writeExecutionMarker (σ : State Address Hash World) (hash : Hash) (nonce : ℕ) :
    State Address Hash World :=
  { σ with
    executionMarkers := fun h n => if h = hash ∧ n = nonce then true else σ.executionMarkers h n }

end Hashes

/-- `storage::has_execution_marker`. -/
def hasExecutionMarker (σ : State Address Hash World) (hash : Hash) (nonce : ℕ) : Bool :=
  σ.executionMarkers hash nonce

section Lists

variable [DecidableEq Address]

@[simps] def setMerchantIndex (σ : State Address Hash World) (merchant : Address)
    (index : Option (List Hash)) : State Address Hash World :=
  { σ with merchantIndex := Function.update σ.merchantIndex merchant index }

@[simps] def setMerchantSubscribers (σ : State Address Hash World) (merchant : Address)
    (roster : Option (List Address)) : State Address Hash World :=
  { σ with merchantSubscribers := Function.update σ.merchantSubscribers merchant roster }

/-- `index_add`: append a hash to the index of a merchant. -/
def indexAdd (σ : State Address Hash World) (merchant : Address) (hash : Hash) :
    State Address Hash World :=
  σ.setMerchantIndex merchant (some ((σ.merchantIndex merchant).getD [] ++ [hash]))

/-- `index_remove`: rebuild the index without a hash; an index that becomes empty is removed. -/
def indexRemove [DecidableEq Hash] (σ : State Address Hash World) (merchant : Address)
    (hash : Hash) : State Address Hash World :=
  match σ.merchantIndex merchant with
  | none => σ
  | some index =>
    let updated := index.filter (· ≠ hash)
    if updated.isEmpty then σ.setMerchantIndex merchant none
    else σ.setMerchantIndex merchant (some updated)

/-- `roster_add`: append a subscriber to the roster of a merchant unless it is there. -/
def rosterAdd (σ : State Address Hash World) (merchant subscriber : Address) :
    State Address Hash World :=
  let roster := (σ.merchantSubscribers merchant).getD []
  if subscriber ∈ roster then σ
  else σ.setMerchantSubscribers merchant (some (roster ++ [subscriber]))

/-- `roster_remove`: rebuild the roster without a subscriber; a roster that becomes empty is
removed. -/
def rosterRemove (σ : State Address Hash World) (merchant subscriber : Address) :
    State Address Hash World :=
  match σ.merchantSubscribers merchant with
  | none => σ
  | some roster =>
    let updated := roster.filter (· ≠ subscriber)
    if updated.isEmpty then σ.setMerchantSubscribers merchant none
    else σ.setMerchantSubscribers merchant (some updated)

/-- The stored form of a list: an empty list is not stored. -/
def stored {α : Type} (l : List α) : Option (List α) := if l.isEmpty then none else some l

theorem getD_stored {α : Type} (l : List α) : (stored l).getD [] = l := by
  cases l <;> rfl

theorem setMerchantIndex_self (σ : State Address Hash World) (merchant : Address) :
    σ.setMerchantIndex merchant (σ.merchantIndex merchant) = σ := by
  simp [setMerchantIndex]

theorem setMerchantSubscribers_self (σ : State Address Hash World) (merchant : Address) :
    σ.setMerchantSubscribers merchant (σ.merchantSubscribers merchant) = σ := by
  simp [setMerchantSubscribers]

theorem indexRemove_eq [DecidableEq Hash] (σ : State Address Hash World) (merchant : Address)
    (hash : Hash) :
    σ.indexRemove merchant hash = σ.setMerchantIndex merchant
      (stored (((σ.merchantIndex merchant).getD []).filter (· ≠ hash))) := by
  unfold indexRemove stored
  cases h : σ.merchantIndex merchant with
  | none => simpa [h] using (σ.setMerchantIndex_self merchant).symm
  | some index => simp only [Option.getD_some]; split_ifs <;> rfl

theorem rosterAdd_eq (σ : State Address Hash World) (merchant subscriber : Address) :
    σ.rosterAdd merchant subscriber = σ.setMerchantSubscribers merchant
      (if subscriber ∈ (σ.merchantSubscribers merchant).getD [] then σ.merchantSubscribers merchant
      else some ((σ.merchantSubscribers merchant).getD [] ++ [subscriber])) := by
  simp only [rosterAdd]
  split_ifs
  · exact (σ.setMerchantSubscribers_self merchant).symm
  · rfl

theorem rosterRemove_eq (σ : State Address Hash World) (merchant subscriber : Address) :
    σ.rosterRemove merchant subscriber = σ.setMerchantSubscribers merchant
      (stored (((σ.merchantSubscribers merchant).getD []).filter (· ≠ subscriber))) := by
  unfold rosterRemove stored
  cases h : σ.merchantSubscribers merchant with
  | none => simpa [h] using (σ.setMerchantSubscribers_self merchant).symm
  | some roster => simp only [Option.getD_some]; split_ifs <;> rfl

end Lists

end State

/-! ### Records after a write -/

namespace Host

variable (H : Host Address Hash World Op) (σ : State Address Hash World)

@[simp] theorem record_publish (event : Event Address) :
    H.record (σ.publish event) = H.record σ := rfl

@[simp] theorem record_setTokens (w : World) : H.record (σ.setTokens w) = H.record σ := rfl

@[simp] theorem record_writeExecutionMarker [DecidableEq Hash] (hash : Hash) (nonce : ℕ) :
    H.record (σ.writeExecutionMarker hash nonce) = H.record σ := rfl

section Lists

variable [DecidableEq Address]

@[simp] theorem record_setMerchantIndex (merchant : Address) (index : Option (List Hash)) :
    H.record (σ.setMerchantIndex merchant index) = H.record σ := rfl

@[simp] theorem record_setMerchantSubscribers (merchant : Address)
    (roster : Option (List Address)) :
    H.record (σ.setMerchantSubscribers merchant roster) = H.record σ := rfl

@[simp] theorem record_indexAdd (merchant : Address) (hash : Hash) :
    H.record (σ.indexAdd merchant hash) = H.record σ := rfl

@[simp] theorem record_indexRemove [DecidableEq Hash] (merchant : Address) (hash : Hash) :
    H.record (σ.indexRemove merchant hash) = H.record σ := by
  rw [State.indexRemove_eq, record_setMerchantIndex]

@[simp] theorem record_rosterAdd (merchant subscriber : Address) :
    H.record (σ.rosterAdd merchant subscriber) = H.record σ := by
  rw [State.rosterAdd_eq, record_setMerchantSubscribers]

@[simp] theorem record_rosterRemove (merchant subscriber : Address) :
    H.record (σ.rosterRemove merchant subscriber) = H.record σ := by
  rw [State.rosterRemove_eq, record_setMerchantSubscribers]

end Lists

section Keys

variable {H σ} [DecidableEq Address] [DecidableEq Hash]

/-- Storing the record of one pair changes no other record. -/
theorem record_setSubscription (hkey : H.KeysInjective) (s m s' m' : Address)
    (data : SubscriptionData Address) :
    H.record (σ.setSubscription (H.subscriptionKey s m) data) s' m' =
      if s' = s ∧ m' = m then some data else H.record σ s' m' := by
  simp only [record, State.setSubscription_subscriptions, Function.update_apply, hkey.eq_iff]

/-- Removing the record of one pair changes no other record. -/
theorem record_removeSubscription (hkey : H.KeysInjective) (s m s' m' : Address) :
    H.record (σ.removeSubscription (H.subscriptionKey s m)) s' m' =
      if s' = s ∧ m' = m then none else H.record σ s' m' := by
  simp only [record, State.removeSubscription_subscriptions, Function.update_apply, hkey.eq_iff]

end Keys

end Host

/-! ### Calls made by the entry points -/

section Calls

variable (H : Host Address Hash World Op) (env : Env Address)

def publish (event : Event Address) : Contract Address Hash World Unit :=
  Tx.modify fun σ => σ.publish event

/-- The record stored under a hash; without one the entry point returns
`NoActiveSubscription`. -/
def loadSubscription (hash : Hash) :
    Contract Address Hash World (SubscriptionData Address) := do
  let stored ← Tx.gets fun σ => σ.subscriptions hash
  Tx.orFail stored (.error .noActiveSubscription)

def storeSubscription [DecidableEq Hash] (hash : Hash) (data : SubscriptionData Address) :
    Contract Address Hash World Unit :=
  Tx.modify fun σ => σ.setSubscription hash data

/-- `Address::require_auth` in an entry point. -/
def requireAuth [DecidableEq Address] (a : Address) : Contract Address Hash World Unit :=
  Tx.failIf (H.authorizes env a = false) .abort

/-- `ledger_timestamp`. -/
def ledgerTimestamp : Contract Address Hash World ℕ := do
  Tx.failIf (env.timestamp = 0) (.error .invalidTimestamp)
  pure env.timestamp

/-- `checked_next_payment`. -/
def checkedNextPayment (ts interval : ℕ) : Contract Address Hash World ℕ :=
  Tx.orFail (asUnsigned 64 (ts + interval)) (.error .invalidTimestamp)

/-- `assert_payment_due`. -/
def assertPaymentDue (now nextPayment : ℕ) : Except ContractError Unit :=
  if now < nextPayment then .error .paymentNotDue else .ok ()

def tokenSymbol (token : Address) : Contract Address Hash World String := do
  let w ← Tx.gets fun σ => σ.tokens
  Tx.orFail (H.tokens.symbol w token) .abort

/-- The allowance an owner has given the contract. -/
def tokenAllowance (token owner : Address) : Contract Address Hash World ℤ := do
  let w ← Tx.gets fun σ => σ.tokens
  Tx.orFail (H.tokens.allowance w token owner H.currentContractAddress) .abort

def tokenBalance (token holder : Address) : Contract Address Hash World ℤ := do
  let w ← Tx.gets fun σ => σ.tokens
  Tx.orFail (H.tokens.balance w token holder) .abort

def tokenTransfer [DecidableEq Address] (token src dst : Address) (amount : ℤ) :
    Contract Address Hash World Unit := do
  let w ← Tx.gets fun σ => σ.tokens
  let w' ← Tx.orFail (H.tokens.transfer (H.tokenAuthorization env) w token src dst amount) .abort
  Tx.modify fun σ => σ.setTokens w'

end Calls

end SorobanPay
