import SorobanPay.Backend.IndexerService
import SorobanPay.Backend.SubscriptionState
import SorobanPay.Foundation.Transaction

/-!
# The event indexer

`processEvent` of `services/eventIndexer.ts` stores an event together with a row of the outbox,
applies it to the status of its subscription (`applyEvent` of
`services/subscriptionStateService.ts`), and records a payment. Every call of the database may
fail; the first that does ends the work on the event, and the error is swallowed.

The tables are those that the service asks for, each a function from the key it asks by; a row has
the columns that the service writes. The rows of `Event` have no key and form a list. What the
service uses of the Stellar SDK are the texts of addresses and of the parts of a number
(`SdkTexts`).

## Main definitions

* `decodeFields`, `toStored`: what is decoded, and the events that get to the database.
* `Db`: the tables.
* `applyEvent`, `processEvent`: the services.
* `Commits`: the calls that store an event succeed.

## Main results

* `processEvent_log`: what the tables `Event` and `OutboxEvent` hold afterwards, whatever fails.
* `processEvent_subscriptions`: the status of a subscription afterwards, if nothing fails.
-/

set_option autoImplicit false

namespace SorobanPay.EventIndexer

open Foundation

/-! ### Decoding -/

/-- What the indexer uses of the SDK: `ScAddress.toString` and `Int128Parts.toString`. -/
structure SdkTexts where
  addressText : ScAddress → String
  i128Text : Int64 → UInt64 → String

/-- `scValToSymbol`. -/
def scValToSymbol : ScVal → Option String
  | .symbol s => some s
  | _ => none

/-- `scValToAddress`. -/
def scValToAddress (sdk : SdkTexts) : ScVal → Option String
  | .address a => some (sdk.addressText a)
  | _ => none

/-- `scValToAmount`. -/
def scValToAmount (sdk : SdkTexts) : ScVal → Option String
  | .i128 hi lo => some (sdk.i128Text hi lo)
  | .u64 n => some (toString n.toNat)
  | _ => none

/-- The fields that `processEvent` decodes. -/
structure DecodedFields where
  eventType : EventType
  subscriber : Option String
  merchant : Option String
  token : Option String
  amount : Option String

/-- The span `event.decode`. The supported event types are those that have an `EventType`. -/
def decodeFields (sdk : SdkTexts) (event : EventResponse) : Option DecodedFields :=
  match event.topic with
  | name :: subscriber :: topics =>
    ((scValToSymbol name).bind EventType.ofName).map fun eventType =>
      { eventType := eventType
        subscriber := scValToAddress sdk subscriber
        merchant := topics[0]?.bind (scValToAddress sdk)
        token := topics[1]?.bind (scValToAddress sdk)
        amount := event.value.bind (scValToAmount sdk) }
  -- fewer than two topics
  | _ => none

/-- `STORED_EVENT_TYPES`. -/
def storedEventTypes : List EventType := [.subscribe, .executed]

/-- A text that is not missing. The empty text counts as missing. -/
def present (text : Option String) : Option String := text.filter (· ≠ "")

/-- An event that `processEvent` takes to the database. -/
structure StoredEvent where
  id : String
  eventType : EventType
  subscriber : String
  merchant : String
  token : Option String
  amount : Option String
  ledger : ℕ
  deriving DecidableEq

/-- The events that `processEvent` takes to the database: it returns early where the type is not
supported, where a party is missing, and where the type is not one of the stored ones. -/
def toStored (sdk : SdkTexts) (event : EventResponse) : Option StoredEvent := do
  let fields ← decodeFields sdk event
  let subscriber ← present fields.subscriber
  let merchant ← present fields.merchant
  if fields.eventType ∈ storedEventTypes then
    some
      { id := event.id
        eventType := fields.eventType
        subscriber := subscriber
        merchant := merchant
        token := fields.token
        amount := fields.amount
        ledger := event.ledger }
  else none

/-! ### Tables -/

/-- A row of `Event`. -/
structure EventRow where
  type : EventType
  subscriber : String
  merchant : String
  token : String
  amount : String
  ledgerTimestamp : ℕ
  deriving DecidableEq, Repr

/-- The payload of a row of `OutboxEvent`, before it is written as JSON. -/
structure OutboxPayload where
  eventType : EventType
  subscriber : String
  merchant : String
  token : String
  amount : String
  ledger : ℕ
  txHash : String
  deriving DecidableEq, Repr

/-- The values of the column `OutboxEvent.status`. -/
inductive OutboxStatus
  | pending
  | published
  | failed
  deriving DecidableEq, Repr

/-- A row of `OutboxEvent`. -/
structure OutboxRow where
  aggregateType : String
  aggregateId : String
  eventType : EventType
  payload : OutboxPayload
  status : OutboxStatus
  deriving DecidableEq, Repr

/-- A row of `Subscription`. -/
structure StatusRow where
  token : String
  amount : String
  status : SubscriptionState
  deriving DecidableEq, Repr

/-- A row of `AuditLog`. -/
structure AuditLogRow where
  eventType : EventType
  subscriber : String
  merchant : String
  token : String
  amount : String
  ledger : ℕ
  deriving DecidableEq, Repr

/-- A row of `Payment`. The timestamp is in milliseconds. -/
structure PaymentRow where
  subscriber : String
  merchant : String
  token : String
  amount : String
  ledger : ℕ
  timestamp : ℕ
  status : String
  deriving DecidableEq, Repr

/-- The tables, each by the key that the service asks by: the outbox by the deduplication key, the
audit log and the payments by the transaction hash. -/
structure Db where
  events : List EventRow
  outbox : String → Option OutboxRow
  subscriptions : String → String → Option StatusRow
  auditLogs : String → Option AuditLogRow
  payments : String → Option PaymentRow

namespace StoredEvent

variable (e : StoredEvent)

/-- The row of `Event`. -/
def row : EventRow where
  type := e.eventType
  subscriber := e.subscriber
  merchant := e.merchant
  token := e.token.getD ""
  amount := e.amount.getD ""
  ledgerTimestamp := e.ledger

/-- The row of `OutboxEvent`. -/
def outboxRow : OutboxRow where
  aggregateType := "subscription"
  aggregateId := e.subscriber ++ ":" ++ e.merchant
  eventType := e.eventType
  payload :=
    { eventType := e.eventType
      subscriber := e.subscriber
      merchant := e.merchant
      token := e.token.getD ""
      amount := e.amount.getD ""
      ledger := e.ledger
      txHash := e.id }
  status := .pending

/-- The row of `AuditLog`. -/
def auditLogRow : AuditLogRow where
  eventType := e.eventType
  subscriber := e.subscriber
  merchant := e.merchant
  token := e.token.getD ""
  amount := e.amount.getD ""
  ledger := e.ledger

/-- The row of `Payment`. -/
def paymentRow : PaymentRow where
  subscriber := e.subscriber
  merchant := e.merchant
  token := e.token.getD ""
  amount := e.amount.getD ""
  ledger := e.ledger
  timestamp := e.ledger * 1000
  status := "executed"

end StoredEvent

/-- The optional fields of `EventData`. -/
structure EventData where
  amount : Option String
  token : Option String

namespace Db

/-- Nothing is stored. -/
def empty : Db where
  events := []
  outbox _ := none
  subscriptions _ _ := none
  auditLogs _ := none
  payments _ := none

/-- The transaction that creates the row of `Event` and upserts the row of `OutboxEvent`. A row of
the outbox that is there already stays as it is. -/
def storeEvent (db : Db) (e : StoredEvent) : Db :=
  { db with
    events := db.events ++ [e.row]
    outbox := fun key =>
      if key = e.id then (db.outbox key).or (some e.outboxRow) else db.outbox key }

/-- The upsert of `applyEvent`. -/
def upsertSubscription (db : Db) (subscriber merchant : String) (status : SubscriptionState)
    (data : EventData) : Db :=
  { db with
    subscriptions := fun s m =>
      if s = subscriber ∧ m = merchant then
        some <|
          match db.subscriptions s m with
          | none => ⟨data.token.getD "", data.amount.getD "0", status⟩
          | some row =>
            { token := (present data.token).getD row.token
              amount := (present data.amount).getD row.amount
              status := status }
      else db.subscriptions s m }

/-- `logPayment`; a row that is there already stays as it is. -/
def upsertAuditLog (db : Db) (e : StoredEvent) : Db :=
  { db with
    auditLogs := fun hash =>
      if hash = e.id then (db.auditLogs hash).or (some e.auditLogRow) else db.auditLogs hash }

/-- The upsert of a payment; a row that is there already stays as it is. -/
def upsertPayment (db : Db) (e : StoredEvent) : Db :=
  { db with
    payments := fun hash =>
      if hash = e.id then (db.payments hash).or (some e.paymentRow) else db.payments hash }

end Db

/-! ### The services -/

/-- The calls of the database that `processEvent` makes for one event. -/
inductive DbCall
  | findEvent
  | storeEvent
  | findSubscription
  | upsertSubscription
  | upsertAuditLog
  | upsertPayment
  deriving DecidableEq, Repr

/-- The events of the state machine. -/
def stateMachineEvent : EventType → SubscriptionEventType
  | .subscribe => .subscribe
  | .executed => .executed
  | .cancel => .cancel
  | .paymentTransferFailure => .paymentTransferFailure

/-- `applyEvent`. -/
def applyEvent (outcome : DbCall → Outcome) (subscriber merchant : String)
    (eventType : SubscriptionEventType) (data : EventData) : Tx Db Unit SubscriptionState := do
  let existing ← Tx.ask (outcome .findSubscription) fun db => db.subscriptions subscriber merchant
  let currentState := (existing.map (·.status)).getD .active
  match transition currentState eventType with
  | none => pure currentState
  | some nextState =>
    Tx.tell (outcome .upsertSubscription) fun db =>
      db.upsertSubscription subscriber merchant nextState data
    pure nextState

/-- The span `db.write_event`. That the event is there already ends the span only. -/
def writeEvent (outcome : DbCall → Outcome) (e : StoredEvent) : Tx Db Unit Unit := do
  let existingEvent ← Tx.ask (outcome .findEvent) fun db => decide (e.row ∈ db.events)
  if existingEvent then pure () else Tx.tell (outcome .storeEvent) (·.storeEvent e)

/-- The audit log and the payment of an `executed` event. -/
def recordPayment (outcome : DbCall → Outcome) (e : StoredEvent) : Tx Db Unit Unit :=
  if e.eventType = .executed then do
    Tx.tell (outcome .upsertAuditLog) (·.upsertAuditLog e)
    Tx.tell (outcome .upsertPayment) (·.upsertPayment e)
  else pure ()

/-- What `processEvent` does after the event has been written. -/
def afterWrite (outcome : DbCall → Outcome) (e : StoredEvent) : Tx Db Unit Unit := do
  let _ ← applyEvent outcome e.subscriber e.merchant (stateMachineEvent e.eventType)
    ⟨some (e.amount.getD "0"), some (e.token.getD "")⟩
  recordPayment outcome e

/-- `processEvent`: whatever fails, the error is swallowed and the database is left as it is then.
-/
def processEvent (sdk : SdkTexts) (outcome : DbCall → Outcome) (db : Db) (event : EventResponse) :
    Db :=
  match toStored sdk event with
  | none => db
  | some e => ((writeEvent outcome e >>= fun _ => afterWrite outcome e).run db).2

/-! ### What is left of the events -/

/-- The calls that store an event succeed, and the event is not there already. -/
def Commits (outcome : DbCall → Outcome) (db : Db) (e : StoredEvent) : Prop :=
  outcome .findEvent = .acknowledged ∧ e.row ∉ db.events ∧ outcome .storeEvent ≠ .failed

instance (outcome : DbCall → Outcome) (db : Db) (e : StoredEvent) :
    Decidable (Commits outcome db e) := inferInstanceAs (Decidable (_ ∧ _ ∧ _))

/-- The tables `Event` and `OutboxEvent`. -/
def Db.log (db : Db) : List EventRow × (String → Option OutboxRow) := (db.events, db.outbox)

theorem keeps_log_applyEvent (outcome : DbCall → Outcome) (s m : String)
    (eventType : SubscriptionEventType) (data : EventData) :
    Tx.Keeps Db.log (applyEvent outcome s m eventType data) := by
  refine (Tx.keeps_ask _ _ _).bind fun existing => ?_
  dsimp only
  split
  · exact Tx.keeps_pure _
  · refine Tx.Keeps.bind (Tx.keeps_tell _ ?_) fun _ => Tx.keeps_pure _
    exact fun _ => rfl

/-- The audit log and the payments are tables of their own. -/
theorem keeps_recordPayment {C : Type} {v : Db → C} (hlog : ∀ db e, v (db.upsertAuditLog e) = v db)
    (hpayment : ∀ db e, v (db.upsertPayment e) = v db) (outcome : DbCall → Outcome)
    (e : StoredEvent) : Tx.Keeps v (recordPayment outcome e) := by
  refine Tx.Keeps.ite ?_ (Tx.keeps_pure _)
  exact Tx.Keeps.bind (Tx.keeps_tell _ fun db => hlog db e) fun _ =>
    Tx.keeps_tell _ fun db => hpayment db e

theorem keeps_log_afterWrite (outcome : DbCall → Outcome) (e : StoredEvent) :
    Tx.Keeps Db.log (afterWrite outcome e) :=
  (keeps_log_applyEvent _ _ _ _ _).bind fun _ =>
    keeps_recordPayment (fun _ _ => rfl) (fun _ _ => rfl) outcome e

theorem writeEvent_snd (outcome : DbCall → Outcome) (e : StoredEvent) (db : Db) :
    ((writeEvent outcome e).run db).2 = if Commits outcome db e then db.storeEvent e else db := by
  rw [writeEvent, Tx.run_bind]
  rcases hfind : outcome .findEvent with _ | _ | _
  · by_cases hrow : e.row ∈ db.events
    · simp [Tx.ask, Tx.run_gets, hrow, Tx.run_pure, Commits]
    · simp [Tx.ask, Tx.run_gets, hrow, Tx.run_tell_snd, Commits, hfind]
  · simp [Tx.ask, Tx.run_fail, Commits, hfind]
  · simp [Tx.ask, Tx.run_fail, Commits, hfind]

/-- **What is stored of an event.** -/
theorem processEvent_log (sdk : SdkTexts) (outcome : DbCall → Outcome) (db : Db)
    (event : EventResponse) :
    (processEvent sdk outcome db event).log =
      ((toStored sdk event).elim db fun e =>
        if Commits outcome db e then db.storeEvent e else db).log := by
  rcases hstored : toStored sdk event with _ | e
  · simp [processEvent, hstored]
  · simp only [processEvent, hstored, Option.elim_some]
    rw [Tx.run_bind, ← writeEvent_snd]
    rcases (writeEvent outcome e).run db with ⟨error | _, t⟩
    · rfl
    · exact keeps_log_afterWrite outcome e t

/-! ### Without failures -/

/-- Every call succeeds. -/
def noFailures : DbCall → Outcome := fun _ => .acknowledged

/-- What `applyEvent` makes of the row of a subscription. -/
def applyRow (row : Option StatusRow) (eventType : SubscriptionEventType) (data : EventData) :
    Option StatusRow :=
  (transition ((row.map (·.status)).getD .active) eventType).elim row fun nextState => some <|
    row.elim ⟨data.token.getD "", data.amount.getD "0", nextState⟩ fun row =>
      { token := (present data.token).getD row.token
        amount := (present data.amount).getD row.amount
        status := nextState }

theorem applyEvent_run (subscriber merchant : String) (eventType : SubscriptionEventType)
    (data : EventData) (db : Db) :
    ∃ st db', (applyEvent noFailures subscriber merchant eventType data).run db = (.ok st, db') ∧
      ∀ s m, db'.subscriptions s m =
        if s = subscriber ∧ m = merchant then applyRow (db.subscriptions s m) eventType data
        else db.subscriptions s m := by
  simp only [applyEvent, noFailures, Tx.run_bind, Tx.run_ask]
  rcases htransition : transition
    (((db.subscriptions subscriber merchant).map (·.status)).getD .active) eventType with
    _ | nextState <;> rw [htransition]
  · refine ⟨_, db, rfl, fun s m => ?_⟩
    split_ifs with hpair
    · obtain ⟨rfl, rfl⟩ := hpair
      rw [applyRow, htransition, Option.elim_none]
    · rfl
  · refine ⟨nextState, db.upsertSubscription subscriber merchant nextState data, rfl, fun s m => ?_⟩
    by_cases hpair : s = subscriber ∧ m = merchant
    · obtain ⟨rfl, rfl⟩ := hpair
      rw [if_pos ⟨rfl, rfl⟩, applyRow, htransition, Option.elim_some]
      cases hrow : db.subscriptions s m <;> simp [Db.upsertSubscription, hrow]
    · simp only [Db.upsertSubscription, if_neg hpair]

theorem writeEvent_run (e : StoredEvent) (db : Db) :
    ∃ db', (writeEvent noFailures e).run db = (.ok (), db') ∧
      db'.subscriptions = db.subscriptions := by
  by_cases hrow : e.row ∈ db.events
  · exact ⟨db, by simp [writeEvent, noFailures, Tx.run_bind, Tx.run_ask, hrow, Tx.run_pure], rfl⟩
  · refine ⟨db.storeEvent e, ?_, rfl⟩
    simp [writeEvent, noFailures, Tx.run_bind, Tx.run_ask, hrow, Tx.run_tell]

/-- What an event does to the row of its subscription. -/
def StoredEvent.applyTo (e : StoredEvent) (row : Option StatusRow) : Option StatusRow :=
  applyRow row (stateMachineEvent e.eventType)
    ⟨some (e.amount.getD "0"), some (e.token.getD "")⟩

theorem afterWrite_subscriptions (e : StoredEvent) (db : Db) (s m : String) :
    ((afterWrite noFailures e).run db).2.subscriptions s m =
      if s = e.subscriber ∧ m = e.merchant then e.applyTo (db.subscriptions s m)
      else db.subscriptions s m := by
  obtain ⟨st, db', hrun, happlied⟩ := applyEvent_run e.subscriber e.merchant
    (stateMachineEvent e.eventType) ⟨some (e.amount.getD "0"), some (e.token.getD "")⟩ db
  have hpayment : Tx.Keeps Db.subscriptions (recordPayment noFailures e) :=
    keeps_recordPayment (fun _ _ => rfl) (fun _ _ => rfl) noFailures e
  rw [afterWrite, Tx.run_bind, hrun]
  exact (congrFun (congrFun (hpayment db') s) m).trans (happlied s m)

/-- **What an event does to the subscriptions**, if nothing fails. That the event is there already
makes no difference. -/
theorem processEvent_subscriptions (sdk : SdkTexts) (db : Db) (event : EventResponse)
    (s m : String) :
    (processEvent sdk noFailures db event).subscriptions s m =
      (toStored sdk event).elim (db.subscriptions s m) fun e =>
        if s = e.subscriber ∧ m = e.merchant then e.applyTo (db.subscriptions s m)
        else db.subscriptions s m := by
  rcases hstored : toStored sdk event with _ | e
  · simp [processEvent, hstored]
  · obtain ⟨db', hrun, hkept⟩ := writeEvent_run e db
    simp only [processEvent, hstored, Option.elim_some]
    rw [Tx.run_bind, hrun, ← hkept]
    exact afterWrite_subscriptions e db' s m

/-- Texts for the samples. -/
def sampleTexts : SdkTexts where
  addressText := scAddressToString
  i128Text hi lo := toString (ScVal.i128Value hi lo)

end SorobanPay.EventIndexer
