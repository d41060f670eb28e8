import SorobanPay.Contract.Admin

/-!
# Subscriptions: creation, terms, pauses, cancellation and transfer

The entry points of `lib.rs` by which subscribers manage their subscriptions, and the queries.

`update_subscription` writes its storage key as `DataKey::Subscription(subscriber, merchant)`,
the form the key had before it became the hash of the pair (`DataKey::Subscription(BytesN<32>)`);
it is read here as the record of that pair, like the key of every other entry point. The
`SubscriptionData` of `storage.rs` has `grace_period: Option<u64>` and no `payment_nonce`; the
record follows the literal that `subscribe` stores.

## Main definitions

* `subscribe`, `updateSubscription`, `pauseSubscription`, `resumeSubscription`, `cancel`,
  `transferSubscription`: the entry points.
* `getSubscription`, `getSubscriptionCount`, `getMerchantSubscriptionKeys`,
  `getMerchantSubscriptions`: the queries.
-/

set_option autoImplicit false

namespace SorobanPay

open Foundation

variable {Address Hash World Op : Type} [DecidableEq Address] [DecidableEq Hash]
  (H : Host Address Hash World Op) (env : Env Address)

/-! ### Entry points -/

/-- The check of an amount made by `subscribe` and `update_subscription`. -/
def checkAmount (amount : ℤ) : Contract Address Hash World Unit := do
  Tx.failIf (amount ≤ 0) (.error .amountMustBePositive)
  Tx.failIf (amount > maxAmount) (.error .amountTooLarge)

/-- The check of an interval made by `subscribe` and `update_subscription`. -/
def checkInterval (interval : ℕ) : Contract Address Hash World Unit := do
  Tx.failIf (interval < minInterval) (.error .intervalTooShort)
  Tx.failIf (interval > maxInterval) (.error .intervalTooLong)

/-- The admin limit, when a configuration is stored. -/
def checkLimit (amount : ℤ) : Contract Address Hash World Unit := do
  let config ← Tx.gets fun σ => σ.adminConfig
  match config with
  | some config => Tx.failIf (amount > config.maxAmount) (.error .amountExceedsLimit)
  | none => pure ()

omit [DecidableEq Address] [DecidableEq Hash] in
/-- The allowance check of `subscribe`: an allowance below the amount is an error in strict mode and
is only reported otherwise. -/
def checkAllowance (subscriber merchant token : Address) (amount allowance : ℤ) (strict : Bool) :
    Contract Address Hash World Unit :=
  if allowance < amount then
    if strict then Tx.fail (.error .insufficientAllowance)
    else publish (.lowAllowance subscriber merchant token allowance amount)
  else pure ()

/-- `subscribe`. -/
def subscribe (subscriber merchant token : Address) (amount : ℤ) (interval : ℕ) (strict : Bool)
    (gracePeriod : Option ℕ) : Contract Address Hash World Unit := do
  requireAuth H env subscriber
  Tx.failIf (subscriber = merchant) (.error .selfSubscription)
  checkAmount amount
  checkLimit amount
  checkInterval interval
  let _ ← tokenSymbol H token
  let allowance ← tokenAllowance H token subscriber
  checkAllowance subscriber merchant token amount allowance strict
  let ts ← ledgerTimestamp env
  let nextPayment ← checkedNextPayment ts interval
  let data : SubscriptionData Address :=
    { token := token
      amount := amount
      interval := interval
      nextPayment := nextPayment
      isPaused := false
      gracePeriod := gracePeriod.getD 0
      overdueSince := none
      paymentNonce := 0
      pausedUntil := none }
  let hash := H.subscriptionKey subscriber merchant
  storeSubscription hash data
  Tx.modify fun σ => σ.indexAdd merchant hash
  Tx.modify fun σ => σ.rosterAdd merchant subscriber
  publish (.subscribe subscriber merchant token amount)

/-- `update_subscription`. -/
def updateSubscription (subscriber merchant : Address) (newAmount : ℤ) (newInterval : ℕ) :
    Contract Address Hash World Unit := do
  requireAuth H env subscriber
  let hash := H.subscriptionKey subscriber merchant
  let data ← loadSubscription hash
  checkAmount newAmount
  checkInterval newInterval
  storeSubscription hash { data with amount := newAmount, interval := newInterval }
  publish (.updated subscriber merchant data.amount newAmount data.interval newInterval)

/-- `pause_subscription`; the token argument is not used. -/
def pauseSubscription (subscriber merchant _token : Address) (resumeAt : Option ℕ) :
    Contract Address Hash World Unit := do
  requireAuth H env subscriber
  let hash := H.subscriptionKey subscriber merchant
  let data ← loadSubscription hash
  Tx.failIf (data.isPaused = true) (.error .subscriptionPaused)
  match resumeAt with
  | some resumeTs => do
    let now ← ledgerTimestamp env
    Tx.failIf (resumeTs ≤ now) (.error .invalidTimestamp)
  | none => pure ()
  storeSubscription hash { data with isPaused := true, pausedUntil := resumeAt }
  publish (.paused subscriber merchant resumeAt)

/-- `resume_subscription`; the token argument is not used. -/
def resumeSubscription (subscriber merchant _token : Address) :
    Contract Address Hash World Unit := do
  requireAuth H env subscriber
  let hash := H.subscriptionKey subscriber merchant
  let data ← loadSubscription hash
  Tx.failIf (data.isPaused = false) (.error .subscriptionNotPaused)
  let now ← ledgerTimestamp env
  let nextPayment ← checkedNextPayment now data.interval
  storeSubscription hash
    { data with isPaused := false, pausedUntil := none, nextPayment := nextPayment }
  publish (.resumed subscriber merchant nextPayment)

/-- `cancel`; the token argument is not used. -/
def cancel (subscriber merchant _token : Address) : Contract Address Hash World Unit := do
  requireAuth H env subscriber
  let hash := H.subscriptionKey subscriber merchant
  let stored ← Tx.gets fun σ => σ.subscriptions hash
  Tx.failIf (stored.isNone = true) (.error .noActiveSubscription)
  Tx.modify fun σ => σ.removeSubscription hash
  Tx.modify fun σ => σ.indexRemove merchant hash
  Tx.modify fun σ => σ.rosterRemove merchant subscriber
  -- reason 1: cancelled by the subscriber, the only reason `emit_cancel` uses
  publish (.cancel subscriber merchant 1)

/-- `transfer_subscription`. -/
def transferSubscription (subscriber oldMerchant newMerchant : Address) :
    Contract Address Hash World Unit := do
  requireAuth H env subscriber
  requireAuth H env oldMerchant
  Tx.failIf (oldMerchant = newMerchant) (.error .sameMerchant)
  Tx.failIf (subscriber = newMerchant) (.error .selfSubscription)
  let oldHash := H.subscriptionKey subscriber oldMerchant
  let data ← loadSubscription oldHash
  let newHash := H.subscriptionKey subscriber newMerchant
  let occupied ← Tx.gets fun σ => σ.subscriptions newHash
  Tx.failIf (occupied.isSome = true) (.error .subscriptionAlreadyExists)
  storeSubscription newHash data
  Tx.modify fun σ => σ.removeSubscription oldHash
  Tx.modify fun σ => σ.indexRemove oldMerchant oldHash
  Tx.modify fun σ => σ.indexAdd newMerchant newHash
  publish (.subscriptionTransferred subscriber oldMerchant newMerchant)

/-! ### Queries -/

section Queries

omit [DecidableEq Address] [DecidableEq Hash]

variable (σ : State Address Hash World)

/-- `get_subscription`; the token argument is not used. -/
def getSubscription (subscriber merchant _token : Address) : Option (SubscriptionData Address) :=
  σ.subscriptions (H.subscriptionKey subscriber merchant)

/-- `get_merchant_subscription_keys`. -/
def getMerchantSubscriptionKeys (merchant : Address) : List Hash :=
  (σ.merchantIndex merchant).getD []

/-- `get_subscription_count`. -/
def getSubscriptionCount (merchant : Address) : ℕ :=
  ((σ.merchantIndex merchant).getD []).length

/-- `get_merchant_subscriptions`: the roster with the record of each member that has one. -/
def getMerchantSubscriptions (merchant : Address) : List (SubscriptionEntry Address) :=
  ((σ.merchantSubscribers merchant).getD []).filterMap fun subscriber =>
    (σ.subscriptions (H.subscriptionKey subscriber merchant)).map fun data =>
      { subscriber := subscriber, data := data }

end Queries

end SorobanPay
