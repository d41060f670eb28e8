import SorobanPay.Backend.Wire
import SorobanPay.Foundation.Encoding

/-!
# The indexer service

`IndexerService` of `services/indexer.ts` decodes the events that the RPC returns and stores them in
the tables `subscriptions` and `payments` of `db/schema.sql`. This file has its decoder and its
database transactions; the polling loop around them is in `SorobanPay.Backend.Polling`.

A table is a function from its unique key to its rows. The columns that the service leaves to the
database are left out: row ids, `created_at` and `updated_at`, and the columns it never writes.
Amounts are stored as the texts the service hands over. What the service uses of the Stellar SDK
beyond the contents of a value is its XDR encoding (`Sdk`). Dates are milliseconds.

## Main definitions

* `scValToString`, `scValToAmount`, `decodeEvent`: the decoder.
* `Tables`: the two tables.
* `persistEvent`: the transaction for one decoded event.
* `index`: the tables after a list of events has been stored.
-/

set_option autoImplicit false

namespace SorobanPay

open Foundation

/-! ### Decoding -/

/-- What the decoder uses of the SDK: the XDR bytes of a value. -/
structure Sdk where
  toXDR : ScVal → List UInt8

/-- `EventType`. -/
inductive EventType
  | subscribe
  | executed
  | cancel
  | paymentTransferFailure
  deriving DecidableEq, Repr

/-- The event type of a name, if it is one that the indexer supports. -/
def EventType.ofName (eventName : String) : Option EventType :=
  if eventName = "subscribe" then some .subscribe
  else if eventName = "executed" then some .executed
  else if eventName = "cancel" then some .cancel
  else if eventName = "payment_transfer_failure" then some .paymentTransferFailure
  else none

/-- `DecodedEvent`. -/
structure DecodedEvent where
  type : EventType
  subscriber : String
  merchant : String
  amount : String
  txHash : String
  ledgerSeq : ℕ
  occurredAt : ℕ
  deriving DecidableEq, Repr

/-- The text of an address. -/
def scAddressToString : ScAddress → String
  | .account key => base64Text key.val
  | .contract contractId => hexText contractId.val
  | .other xdr => base64Text xdr

/-- `scValToString`. -/
def scValToString (sdk : Sdk) : ScVal → String
  | .symbol s => s
  | .address addr => scAddressToString addr
  | .string s => s
  | val => base64Text (sdk.toXDR val)

/-- `scValToAmount`. -/
def scValToAmount : ScVal → String
  | .i128 hi lo => toString (ScVal.i128Value hi lo)
  | .u64 n => toString n.toNat
  | .i64 n => toString n.toInt
  | _ => "0"

/-- `decodeEvent`, at the time `now`. -/
def decodeEvent (sdk : Sdk) (now : ℕ) (event : EventResponse) : Option DecodedEvent :=
  match event.topic with
  | nameTopic :: subscriber :: merchant :: _ =>
    (EventType.ofName (scValToString sdk nameTopic)).map fun type =>
      { type := type
        subscriber := scValToString sdk subscriber
        merchant := scValToString sdk merchant
        amount := (event.value.map scValToAmount).getD "0"
        txHash := event.txHash.getD ""
        ledgerSeq := event.ledger
        occurredAt := event.ledgerClosedAt.getD now }
  -- fewer than three topics
  | _ => none

/-! ### Tables -/

/-- The values of the column `subscriptions.status`. -/
inductive RowStatus
  | active
  | overdue
  | expired
  | cancelled
  deriving DecidableEq, Repr

/-- A row of `subscriptions`. -/
@[ext] structure SubscriptionRow where
  token : String
  amount : String
  intervalSec : ℕ
  nextPayment : ℕ
  status : RowStatus
  deriving DecidableEq, Repr

/-- The values of the column `payments.event_type`. -/
inductive PaymentType
  | executed
  | failure
  | cancel
  deriving DecidableEq, Repr

/-- The unique key of `payments`. -/
structure PaymentKey where
  txHash : String
  eventType : PaymentType
  subscriber : String
  merchant : String
  deriving DecidableEq, Repr

/-- A row of `payments`. -/
structure PaymentRow where
  amount : String
  ledgerSeq : ℕ
  occurredAt : ℕ
  deriving DecidableEq, Repr

/-- The two tables, each by its unique key. -/
@[ext] structure Tables where
  subscriptions : String → String → Option SubscriptionRow
  payments : PaymentKey → Option PaymentRow

namespace Tables

/-- Nothing is stored. -/
def empty : Tables where
  subscriptions _ _ := none
  payments _ := none

/-- Write the row of a subscription. -/
def setSubscription (t : Tables) (subscriber merchant : String) (row : Option SubscriptionRow) :
    Tables :=
  { t with
    subscriptions := fun s m =>
      if s = subscriber ∧ m = merchant then row else t.subscriptions s m }

/-- `upsertSubscription`. -/
def upsertSubscription (t : Tables) (event : DecodedEvent) : Tables :=
  t.setSubscription event.subscriber event.merchant <| some <|
    match t.subscriptions event.subscriber event.merchant with
    | none =>
      { token := ""
        amount := event.amount
        intervalSec := 0
        nextPayment := event.occurredAt
        status := .active }
    -- on conflict only the amount and the status change
    | some row => { row with amount := event.amount, status := .active }

/-- `recordPayment`; a payment that is there already stays as it is. -/
def recordPayment (t : Tables) (event : DecodedEvent) (eventType : PaymentType) : Tables :=
  { t with
    payments := fun key =>
      if key = ⟨event.txHash, eventType, event.subscriber, event.merchant⟩ then
        (t.payments key).or (some ⟨event.amount, event.ledgerSeq, event.occurredAt⟩)
      else t.payments key }

/-- `updateSubscriptionAfterPayment`. -/
def updateSubscriptionAfterPayment (t : Tables) (event : DecodedEvent) : Tables :=
  t.setSubscription event.subscriber event.merchant <|
    (t.subscriptions event.subscriber event.merchant).map fun row => { row with status := .active }

/-- `markSubscriptionCancelled`. -/
def markSubscriptionCancelled (t : Tables) (event : DecodedEvent) : Tables :=
  t.setSubscription event.subscriber event.merchant <|
    (t.subscriptions event.subscriber event.merchant).map fun row =>
      { row with status := .cancelled }

end Tables

/-- `persistEvent`: one transaction. -/
def persistEvent (t : Tables) (event : DecodedEvent) : Tables :=
  match event.type with
  | .subscribe => t.upsertSubscription event
  | .executed => (t.recordPayment event .executed).updateSubscriptionAfterPayment event
  | .cancel => (t.markSubscriptionCancelled event).recordPayment event .cancel
  | .paymentTransferFailure => t.recordPayment event .failure

/-- The tables after some events have been decoded and stored in order, each at a time of its own.
-/
def index (sdk : Sdk) (t : Tables) (deliveries : List (ℕ × EventResponse)) : Tables :=
  (deliveries.filterMap fun delivery => decodeEvent sdk delivery.1 delivery.2).foldl persistEvent t

/-! ### What is stored about one subscription -/

/-- The events that change the row of a subscription. -/
def EventType.status : EventType → Option RowStatus
  | .subscribe | .executed => some .active
  | .cancel => some .cancelled
  | .paymentTransferFailure => none

/-- What an event does to the row of its own subscription. -/
def DecodedEvent.apply (event : DecodedEvent) : Option SubscriptionRow → Option SubscriptionRow
  | none =>
    if event.type = .subscribe then some ⟨"", event.amount, 0, event.occurredAt, .active⟩ else none
  | some row => some
    { row with
      amount := if event.type = .subscribe then event.amount else row.amount
      status := event.type.status.getD row.status }

/-- The kind of payment that an event is recorded as. -/
def EventType.paymentType : EventType → Option PaymentType
  | .subscribe => none
  | .executed => some .executed
  | .cancel => some .cancel
  | .paymentTransferFailure => some .failure

/-- The payment that an event records under a key. -/
def DecodedEvent.payment (event : DecodedEvent) (key : PaymentKey) : Option PaymentRow :=
  event.type.paymentType.bind fun eventType =>
    if key = ⟨event.txHash, eventType, event.subscriber, event.merchant⟩ then
      some ⟨event.amount, event.ledgerSeq, event.occurredAt⟩
    else none

theorem persistEvent_subscriptions (t : Tables) (event : DecodedEvent) (s m : String) :
    (persistEvent t event).subscriptions s m =
      if s = event.subscriber ∧ m = event.merchant then event.apply (t.subscriptions s m)
      else t.subscriptions s m := by
  obtain ⟨type, subscriber, merchant, amount, txHash, ledgerSeq, occurredAt⟩ := event
  by_cases hpair : s = subscriber ∧ m = merchant
  · obtain ⟨rfl, rfl⟩ := hpair
    cases type <;> cases hrow : t.subscriptions s m <;>
      simp [persistEvent, Tables.upsertSubscription, Tables.recordPayment,
        Tables.updateSubscriptionAfterPayment, Tables.markSubscriptionCancelled,
        Tables.setSubscription, DecodedEvent.apply, EventType.status, hrow]
  · cases type <;>
      simp [persistEvent, Tables.upsertSubscription, Tables.recordPayment,
        Tables.updateSubscriptionAfterPayment, Tables.markSubscriptionCancelled,
        Tables.setSubscription, hpair]

theorem persistEvent_payments (t : Tables) (event : DecodedEvent) (key : PaymentKey) :
    (persistEvent t event).payments key = (t.payments key).or (event.payment key) := by
  obtain ⟨type, subscriber, merchant, amount, txHash, ledgerSeq, occurredAt⟩ := event
  have hrecord : ∀ eventType : PaymentType,
      (if key = ⟨txHash, eventType, subscriber, merchant⟩ then
        (t.payments key).or (some ⟨amount, ledgerSeq, occurredAt⟩) else t.payments key) =
      (t.payments key).or (if key = ⟨txHash, eventType, subscriber, merchant⟩ then
        some ⟨amount, ledgerSeq, occurredAt⟩ else none) := by
    intro eventType
    split_ifs
    · rfl
    · exact Option.or_none.symm
  cases type with
  | subscribe => exact Option.or_none.symm
  | executed | cancel | paymentTransferFailure => exact hrecord _

end SorobanPay
