import Mathlib.Data.List.Sort
import SorobanPay.Backend.IndexerService
import SorobanPay.Foundation.InsertionMap
import SorobanPay.Foundation.Interleaving

/-!
# The webhook worker

`WebhookWorker` of `workers/webhook.ts` stores a row of `webhook_deliveries` for each event of a
merchant with a webhook, makes a first attempt to deliver it at once, and leaves the others to
`processQueue`, which any number of workers run every few seconds.

A call is followed from one await to the next: a statement takes effect, the call goes on later, a
POST is under way, its answer arrives, and the outcome is written. Time is that of one clock, in
milliseconds. The table is taken as `db/schema.sql` has it, and the exchanges with the merchants
are noted beside it: each POST when it is made, and its answer when the outcome is written.

## Main definitions

* `WebhookDelivery`, `World`: the table, and what has been exchanged.
* `attemptOutcome`, `createDeliveryRecord`, `updateDeliveryRecord`, `dueDeliveries`: the parts of
  the worker.
* `Call`, `callTurn`, `workerStep`: its calls, at any number of workers.

## Main results

* `attemptOutcome_status_eq_delivered_iff`: what an attempt makes of a delivery.
* `FreshIds.callTurn`: ids are not given twice.
-/

set_option autoImplicit false

namespace SorobanPay.WebhookWorker

open Foundation

/-! ### Deliveries -/

/-- The body of a POST. -/
structure WebhookPayload where
  eventType : EventType
  subscriber : String
  merchant : String
  amount : String
  txHash : String
  ledgerSeq : ℕ
  occurredAt : ℕ
  deliveredAt : ℕ
  deriving DecidableEq, Repr

inductive DeliveryStatus
  | pending
  | delivered
  | failed
  | dead
  deriving DecidableEq, Repr

/-- A row of `webhook_deliveries`, without its id. -/
structure WebhookDelivery where
  merchant : String
  eventType : EventType
  payload : WebhookPayload
  url : String
  attempt : ℕ
  status : DeliveryStatus
  responseStatus : Option ℕ
  responseBody : Option String
  errorMessage : Option String
  nextRetryAt : Option ℕ
  deliveredAt : Option ℕ
  createdAt : ℕ
  updatedAt : ℕ
  deriving DecidableEq, Repr

/-- The arguments of `attemptDelivery`. -/
structure DeliveryJob where
  deliveryId : ℕ
  url : String
  payload : WebhookPayload
  attemptNumber : ℕ
  deriving DecidableEq, Repr

/-- The delays before the retries, in milliseconds. -/
def retryDelaysMs : List ℕ := [1000, 10000, 60000]

def maxAttempts : ℕ := retryDelaysMs.length

/-- What becomes of a POST: the merchant answers, or there is an error. -/
inductive HttpResult
  | response (statusCode : ℕ) (body : String)
  | error (message : String)
  deriving DecidableEq, Repr

/-- The merchant answers with a status of 200 to 299. -/
def HttpResult.Ok : HttpResult → Prop
  | .response statusCode _ => 200 ≤ statusCode ∧ statusCode < 300
  | .error _ => False

instance : DecidablePred HttpResult.Ok
  | .response _ _ => inferInstanceAs (Decidable (_ ∧ _))
  | .error _ => instDecidableFalse

/-- What an attempt writes into the row of its delivery. -/
structure DeliveryUpdate where
  attemptNumber : ℕ
  status : DeliveryStatus
  responseStatus : Option ℕ
  responseBody : Option String
  errorMessage : Option String
  nextRetryAt : Option ℕ
  deriving DecidableEq, Repr

/-- The delay before the retry after an attempt with this number. -/
def delayAfter (attemptNumber : ℕ) : ℕ :=
  retryDelaysMs[attemptNumber]?.getD (retryDelaysMs.getLastD 0)

/-- `attemptDelivery` once the result of its POST is there, at the time `now`. -/
def attemptOutcome (attemptNumber now : ℕ) (result : HttpResult) : DeliveryUpdate where
  attemptNumber := attemptNumber
  status :=
    if result.Ok then .delivered else if maxAttempts ≤ attemptNumber then .dead else .pending
  responseStatus := match result with
    | .response statusCode _ => some statusCode
    | .error _ => none
  responseBody := match result with
    | .response _ body => some (body.take 4096).toString
    | .error _ => none
  errorMessage := match result with
    | .response _ _ => none
    | .error message => some message
  nextRetryAt :=
    if result.Ok ∨ maxAttempts ≤ attemptNumber then none
    else some (now + delayAfter attemptNumber)

/-! ### The database -/

/-- An exchange with a merchant: a POST, or its answer. -/
inductive Exchange
  | posted (job : DeliveryJob) (time : ℕ)
  | answered (deliveryId : ℕ) (time : ℕ) (success : Bool)
  deriving DecidableEq, Repr

def Exchange.deliveryId : Exchange → ℕ
  | .posted job _ => job.deliveryId
  | .answered deliveryId _ _ => deliveryId

@[simp] theorem Exchange.deliveryId_posted (job : DeliveryJob) (time : ℕ) :
    (Exchange.posted job time).deliveryId = job.deliveryId := rfl

@[simp] theorem Exchange.deliveryId_answered (deliveryId time : ℕ) (success : Bool) :
    (Exchange.answered deliveryId time success).deliveryId = deliveryId := rfl

/-- The table, its next id, the clock, and what has been exchanged. -/
structure World where
  deliveries : InsertionMap ℕ WebhookDelivery
  nextId : ℕ
  now : ℕ
  exchanges : List Exchange

/-- `createDeliveryRecord`: the id of the row is `nextId`. -/
def createDeliveryRecord (w : World) (merchant : String) (eventType : EventType)
    (payload : WebhookPayload) (url : String) : World :=
  { w with
    nextId := w.nextId + 1
    deliveries := w.deliveries.set w.nextId
      { merchant, eventType, payload, url
        attempt := 1
        status := .pending
        responseStatus := none
        responseBody := none
        errorMessage := none
        nextRetryAt := none
        deliveredAt := none
        createdAt := w.now
        updatedAt := w.now } }

/-- The row after an update. -/
def WebhookDelivery.update (row : WebhookDelivery) (u : DeliveryUpdate) (now : ℕ) :
    WebhookDelivery :=
  { row with
    attempt := u.attemptNumber
    status := u.status
    responseStatus := u.responseStatus
    responseBody := u.responseBody
    errorMessage := u.errorMessage
    nextRetryAt := u.nextRetryAt
    deliveredAt := if u.status = .delivered then some now else none
    updatedAt := now }

def updateDeliveryRecord (w : World) (deliveryId : ℕ) (u : DeliveryUpdate) : World :=
  { w with deliveries := w.deliveries.modify deliveryId (·.update u w.now) }

/-- The row is one that `processDueDeliveries` selects. -/
def WebhookDelivery.Due (row : WebhookDelivery) (now : ℕ) : Prop :=
  row.status = .pending ∧ ∀ time, row.nextRetryAt = some time → time ≤ now

instance (row : WebhookDelivery) (now : ℕ) : Decidable (row.Due now) :=
  match h : row.nextRetryAt with
  | none => decidable_of_iff (row.status = .pending) (by simp [WebhookDelivery.Due, h])
  | some time =>
    decidable_of_iff (row.status = .pending ∧ time ≤ now) (by simp [WebhookDelivery.Due, h])

/-- The deliveries that `processDueDeliveries` selects, the oldest first. -/
def dueDeliveries (w : World) : List DeliveryJob :=
  (((w.deliveries.entries.filter fun entry => entry.2.Due w.now).insertionSort
    fun entry entry' => entry.2.createdAt ≤ entry'.2.createdAt).take 50).map
    fun entry => ⟨entry.1, entry.2.url, entry.2.payload, entry.2.attempt⟩

/-! ### Calls -/

/-- A row of `webhook_configs`. -/
structure WebhookConfig where
  url : String
  secret : String
  deriving DecidableEq, Repr

/-- What a call of the worker waits for. -/
inductive Call
  | lookup (event : DecodedEvent)
  | insert (event : DecodedEvent) (url : String) (payload : WebhookPayload)
  | select
  | attempt (job : DeliveryJob) (rest : List DeliveryJob)
  | posting (job : DeliveryJob) (rest : List DeliveryJob)
  | updating (job : DeliveryJob) (result : HttpResult) (time : ℕ) (rest : List DeliveryJob)
  | ended
  deriving DecidableEq, Repr

/-- What a call is answered: by the database, or by a merchant. -/
inductive Reply
  | config (found : Option WebhookConfig)
  | done
  | http (result : HttpResult)
  deriving DecidableEq, Repr

/-- The attempts of a call, one after the other. -/
def Call.ofJobs : List DeliveryJob → Call
  | [] => .ended
  | job :: rest => .attempt job rest

/-- A call goes on to its next await. -/
def callTurn (w : World) : Call → Reply → World × Call
  | .lookup event, .config found =>
    (w, found.elim .ended fun config =>
      .insert event config.url ⟨event.type, event.subscriber, event.merchant, event.amount,
        event.txHash, event.ledgerSeq, event.occurredAt, w.now⟩)
  | .insert event url payload, .done =>
    (createDeliveryRecord w event.merchant event.type payload url,
      .attempt ⟨w.nextId, url, payload, 1⟩ [])
  | .select, .done => (w, .ofJobs (dueDeliveries w))
  | .attempt job rest, .done =>
    ({ w with exchanges := w.exchanges ++ [.posted job w.now] }, .posting job rest)
  | .posting job rest, .http result => (w, .updating job result w.now rest)
  | .updating job result time rest, .done =>
    ({ updateDeliveryRecord w job.deliveryId (attemptOutcome job.attemptNumber time result) with
        exchanges := w.exchanges ++ [.answered job.deliveryId time (decide result.Ok)] },
      .ofJobs rest)
  | call, _ => (w, call)

/-- What can happen next: an event is enqueued, a worker looks through the queue, a call is
answered, or time passes. -/
inductive Input
  | enqueue (event : DecodedEvent)
  | processQueue
  | answer (i : ℕ) (reply : Reply)
  | elapse (ms : ℕ)
  deriving DecidableEq, Repr

def workerStep (p : Pool World Call) : Input → Pool World Call
  | .enqueue event => p.start (.lookup event)
  | .processQueue => p.start .select
  | .answer i reply => p.resume callTurn i reply
  | .elapse ms => p.act fun w => { w with now := w.now + ms }

/-- The state with no deliveries. -/
def workerStart : Pool World Call := .idle ⟨.empty, 1, 0, []⟩

/-! ### What a turn does -/

variable {w : World} {call : Call} {reply : Reply} {id : ℕ}

theorem attemptOutcome_status_eq_delivered_iff {attemptNumber now : ℕ} {result : HttpResult} :
    (attemptOutcome attemptNumber now result).status = .delivered ↔ result.Ok := by
  simp only [attemptOutcome]
  split_ifs <;> simp_all

@[simp] theorem update_status (row : WebhookDelivery) (u : DeliveryUpdate) (now : ℕ) :
    (row.update u now).status = u.status := rfl

theorem get_createDeliveryRecord {merchant url : String} {eventType : EventType}
    {payload : WebhookPayload} (hid : id ≠ w.nextId) :
    (createDeliveryRecord w merchant eventType payload url).deliveries.get id =
      w.deliveries.get id := by
  rw [createDeliveryRecord, InsertionMap.get_set, if_neg hid]

/-- The row that is stored can be delivered at once. -/
theorem get_createDeliveryRecord_self (merchant url : String) (eventType : EventType)
    (payload : WebhookPayload) :
    ∃ row, (createDeliveryRecord w merchant eventType payload url).deliveries.get w.nextId =
      some row ∧ row.attempt = 1 ∧ row.Due w.now := by
  rw [createDeliveryRecord, InsertionMap.get_set, if_pos rfl]
  exact ⟨_, rfl, rfl, rfl, nofun⟩

theorem get_updateDeliveryRecord {deliveryId : ℕ} {u : DeliveryUpdate} :
    (updateDeliveryRecord w deliveryId u).deliveries.get id =
      if id = deliveryId then (w.deliveries.get id).map (·.update u w.now)
      else w.deliveries.get id := InsertionMap.get_modify

/-- The ids that have been given are below the next one. -/
def FreshIds (w : World) : Prop := w.deliveries.Below w.nextId

theorem FreshIds.create (h : FreshIds w) (merchant url : String) (eventType : EventType)
    (payload : WebhookPayload) :
    FreshIds (createDeliveryRecord w merchant eventType payload url) := h.set _

theorem FreshIds.update (h : FreshIds w) (deliveryId : ℕ) (u : DeliveryUpdate) :
    FreshIds (updateDeliveryRecord w deliveryId u) := h.modify _ _

theorem FreshIds.callTurn (h : FreshIds w) : FreshIds (callTurn w call reply).1 := by
  cases call with
  | insert => cases reply <;> first | exact h | exact h.create _ _ _ _
  | updating => cases reply <;> first | exact h | exact h.update _ _
  | lookup | select | attempt | posting | ended => cases reply <;> exact h

/-- The exchanges about a delivery. -/
def World.exchangesOf (w : World) (id : ℕ) : List Exchange :=
  w.exchanges.filter (·.deliveryId = id)

theorem exchangesOf_append {w' : World} {e : Exchange} (h : w'.exchanges = w.exchanges ++ [e]) :
    w'.exchangesOf id =
      if e.deliveryId = id then w.exchangesOf id ++ [e] else w.exchangesOf id := by
  rw [World.exchangesOf, h, List.filter_append, List.filter_singleton]
  split_ifs with he <;> simp [he, World.exchangesOf]

/-- The POSTs among some exchanges. -/
def posts (es : List Exchange) : ℕ :=
  es.countP fun
    | .posted _ _ => true
    | .answered _ _ _ => false

/-- The results among some exchanges: whether the answers have been a success. -/
def results (es : List Exchange) : List Bool :=
  es.filterMap fun
    | .posted _ _ => none
    | .answered _ _ success => some success

@[simp] theorem posts_append_posted (es : List Exchange) (job : DeliveryJob) (time : ℕ) :
    posts (es ++ [.posted job time]) = posts es + 1 := by
  simp [posts]

@[simp] theorem posts_append_answered (es : List Exchange) (deliveryId time : ℕ) (success : Bool) :
    posts (es ++ [.answered deliveryId time success]) = posts es := by
  simp [posts]

@[simp] theorem results_append_posted (es : List Exchange) (job : DeliveryJob) (time : ℕ) :
    results (es ++ [.posted job time]) = results es := by
  simp [results]

@[simp] theorem results_append_answered (es : List Exchange) (deliveryId time : ℕ)
    (success : Bool) :
    results (es ++ [.answered deliveryId time success]) = results es ++ [success] := by
  simp [results]

end SorobanPay.WebhookWorker
