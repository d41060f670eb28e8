import SorobanPay.Contract.Subscriptions

/-!
# Payment collection

`execute_payment` and `batch_execute_payment` of `lib.rs`. The two paths carry their own copies of
the guards and of the bookkeeping; what they spell out in the same words, the fee split and the
two transfers, is defined once (`feeSplit`, `payOut`).

The text of `execute_payment` ends after `emit_executed` without its closing `Ok(())`; it is read
as ending there.

## Main definitions

* `feeSplit`, `payOut`: the division of an amount and its transfers.
* `executePayment`: one collection.
* `batchEntry`, `batchLoop`, `batchExecutePayment`: the body of the batch loop, the loop, and the
  entry point.
-/

set_option autoImplicit false

namespace SorobanPay

open Foundation

variable {Address Hash World Op : Type} [DecidableEq Address] [DecidableEq Hash]
  (H : Host Address Hash World Op) (env : Env Address)

/-! ### Fee split -/

/-- The parts of one payment. -/
structure Split (Address : Type) where
  merchantAmount : ℤ
  feeAmount : ℤ
  feeCollector : Option Address
  deriving DecidableEq, Repr

omit [DecidableEq Address] in
/-- The fee split of a payment under the stored configuration; none when the `i128` arithmetic
overflows. -/
def feeSplit (config : Option (ProtocolFeeConfig Address)) (amount : ℤ) :
    Option (Split Address) :=
  match config with
  | some cfg =>
    if cfg.feeBps > 0 then do
      let product ← asSigned 128 (amount * cfg.feeBps)
      let fee := product.tdiv 10000
      let rest ← asSigned 128 (amount - fee)
      some { merchantAmount := rest, feeAmount := fee, feeCollector := some cfg.feeCollector }
    else some { merchantAmount := amount, feeAmount := 0, feeCollector := none }
  | none => some { merchantAmount := amount, feeAmount := 0, feeCollector := none }

/-- The transfers of one payment: the merchant's part, then the fee if there is one. -/
def payOut (config : Option (ProtocolFeeConfig Address)) (subscriber merchant token : Address)
    (amount : ℤ) : Contract Address Hash World Unit := do
  let split ← Tx.orFail (feeSplit config amount) .abort
  tokenTransfer H env token subscriber merchant split.merchantAmount
  if split.feeAmount > 0 then
    match split.feeCollector with
    | some collector => do
      tokenTransfer H env token subscriber collector split.feeAmount
      publish (.feeCollected subscriber merchant collector split.feeAmount)
    | none => pure ()
  else pure ()

/-! ### The single path -/

/-- The pause guard of `execute_payment`: a pause whose end has been reached is cleared, with the
next payment one interval from now; any other pause rejects the call. -/
def clearElapsedPause (now : ℕ) (data : SubscriptionData Address) :
    Contract Address Hash World (SubscriptionData Address) :=
  if data.isPaused then
    match data.pausedUntil with
    | some resumeAt =>
      if now ≥ resumeAt then do
        let nextPayment ← checkedNextPayment now data.interval
        pure { data with isPaused := false, pausedUntil := none, nextPayment := nextPayment }
      else Tx.fail (.error .subscriptionPaused)
    | none => Tx.fail (.error .subscriptionPaused)
  else pure data

/-- `execute_payment`; the token argument is not used. -/
def executePayment (subscriber merchant _token : Address) :
    Contract Address Hash World Unit := do
  requireAuth H env merchant
  let hash := H.subscriptionKey subscriber merchant
  let data ← loadSubscription hash
  let now ← ledgerTimestamp env
  let data ← clearElapsedPause now data
  Tx.failIf (now < data.nextPayment) (.error .paymentNotDue)
  let executed ← Tx.gets fun σ => σ.hasExecutionMarker hash data.paymentNonce
  Tx.failIf (executed = true) (.error .duplicateExecution)
  let allowance ← tokenAllowance H data.token subscriber
  if allowance < data.amount then do
    publish (.insufficientAllowance subscriber merchant allowance data.amount)
    Tx.fail (.error .insufficientAllowance)
  else pure ()
  let balance ← tokenBalance H data.token subscriber
  if balance < data.amount then do
    let overdueSince := data.overdueSince.getD now
    storeSubscription hash { data with overdueSince := some overdueSince }
    publish (.paymentTransferFailure subscriber merchant data.amount overdueSince)
    Tx.fail (.error .transferFailed)
  else pure ()
  let feeConfig ← Tx.gets getProtocolFeeConfig
  payOut H env feeConfig subscriber merchant data.token data.amount
  let nextPayment ← Tx.orFail (asUnsigned 64 (now + data.interval)) .abort
  let nonce ← Tx.orFail (asUnsigned 32 (data.paymentNonce + 1)) (.error .invalidTimestamp)
  storeSubscription hash
    { data with nextPayment := nextPayment, overdueSince := none, paymentNonce := nonce }
  -- the marker carries the nonce after the increment
  Tx.modify fun σ => σ.writeExecutionMarker hash nonce
  publish (.executed subscriber merchant data.token data.amount nonce)

/-! ### The batch path -/

/-- The body of the loop of `batch_execute_payment` for one subscriber: whether it was charged.
There is no pause guard and no execution marker on this path. -/
def batchEntry (feeConfig : Option (ProtocolFeeConfig Address)) (now : ℕ)
    (merchant subscriber : Address) : Contract Address Hash World Bool := do
  let hash := H.subscriptionKey subscriber merchant
  let stored ← Tx.gets fun σ => σ.subscriptions hash
  match stored with
  | none => pure false
  | some data =>
    match assertPaymentDue now data.nextPayment with
    | .error _ => pure false
    | .ok _ => do
      let allowance ← tokenAllowance H data.token subscriber
      if allowance < data.amount then do
        publish (.insufficientAllowance subscriber merchant allowance data.amount)
        pure false
      else do
        let balance ← tokenBalance H data.token subscriber
        if balance < data.amount then do
          let overdueSince := data.overdueSince.getD now
          storeSubscription hash { data with overdueSince := some overdueSince }
          publish (.paymentTransferFailure subscriber merchant data.amount overdueSince)
          pure false
        else do
          payOut H env feeConfig subscriber merchant data.token data.amount
          let nextPayment ← Tx.orFail (asUnsigned 64 (now + data.interval)) .abort
          let nonce ←
            Tx.orFail (asUnsigned 32 (data.paymentNonce + 1)) (.error .invalidTimestamp)
          storeSubscription hash
            { data with nextPayment := nextPayment, overdueSince := none, paymentNonce := nonce }
          publish (.paymentTransferSuccess subscriber merchant data.amount)
          publish (.executed subscriber merchant data.token data.amount nonce)
          pure true

/-- The loop of `batch_execute_payment`. -/
def batchLoop (feeConfig : Option (ProtocolFeeConfig Address)) (now : ℕ) (merchant : Address) :
    List Address → Contract Address Hash World (List (Address × Bool))
  | [] => pure []
  | subscriber :: subscribers => do
    let charged ← batchEntry H env feeConfig now merchant subscriber
    let results ← batchLoop feeConfig now merchant subscribers
    pure ((subscriber, charged) :: results)

/-- `batch_execute_payment`; the token argument is not used. -/
def batchExecutePayment (merchant _token : Address) (subscribers : List Address) :
    Contract Address Hash World (List (Address × Bool)) := do
  requireAuth H env merchant
  Tx.failIf (subscribers.isEmpty = true) (.error .emptyBatch)
  Tx.failIf (subscribers.length > batchMaxSize) (.error .batchTooLarge)
  publish (.batchExecuteInitiated merchant subscribers.length)
  let feeConfig ← Tx.gets getProtocolFeeConfig
  let now ← ledgerTimestamp env
  batchLoop H env feeConfig now merchant subscribers

end SorobanPay
