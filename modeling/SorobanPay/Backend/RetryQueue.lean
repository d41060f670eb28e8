import Mathlib.Data.List.Sort
import SorobanPay.Backend.WebhookNotifier
import SorobanPay.Foundation.InsertionMap
import SorobanPay.Foundation.Interleaving
import SorobanPay.Foundation.Transaction

/-!
# The retry queue

`services/retryQueue.ts` schedules up to three retries of a failed payment, each a row of
`payment_retries` and a delayed job of BullMQ. `enqueueRetries` makes the rows and the jobs,
`processRetryJob` is what the worker does for a job, and `cancelRetries` gives the pending ones of a
pair up. The three of them are followed from one await to the next, as calls that overlap: each
statement takes effect as a whole, fails, or takes effect without a reply.

BullMQ is not modelled: what it answers is part of the input, and a job may be processed at any
time, also one that has been removed. Nor is the sending of webhooks, whose end is an input here;
it is modelled in `SorobanPay.Backend.WebhookNotifier`. Dates are milliseconds.

## Main definitions

* `PaymentRetry`, `RetryDb`: the table, and the escalations that have been sent.
* `getRetryDelays`, `getRawRetries`, `createRetryRecord`, `updateRetryRecord`: the helpers.
* `Call`, `callTurn`, `retryStep`: the calls.

## Main results

* `get_createRetryRecord`, `get_updateRetryRecord`: what the statements do to a row.
* `FreshIds.callTurn`: ids are not given twice.
-/

set_option autoImplicit false

namespace SorobanPay.RetryQueue

open Foundation

/-! ### The table -/

inductive RetryStatus
  | pending
  | succeeded
  | failed
  | cancelled
  deriving DecidableEq, Repr

/-- The payment that is retried. -/
structure RetryParams where
  subscriber : String
  merchant : String
  amount : String
  token : String
  deriving DecidableEq, Repr

/-- A row of `payment_retries`, without its id. -/
structure PaymentRetry extends RetryParams where
  attemptNumber : ℕ
  status : RetryStatus
  scheduledAt : ℕ
  attemptedAt : Option ℕ
  error : Option String
  jobId : Option String
  createdAt : ℕ
  updatedAt : ℕ
  deriving DecidableEq, Repr

/-- The data of a job. -/
structure RetryJobData extends RetryParams where
  attemptNumber : ℕ
  retryId : ℕ
  deriving DecidableEq, Repr

/-- The table, its next id, the clock, and the escalations that have been sent. -/
structure RetryDb where
  retries : InsertionMap ℕ PaymentRetry
  nextId : ℕ
  now : ℕ
  escalations : List RetryParams

/-! ### The configuration -/

/-- The largest number of retries. -/
def maxRetries : ℕ := 3

/-- `parseInt` in base 10: the number that a text begins with after white space, if there is one.
-/
def parseInt (text : String) : Option ℤ :=
  let digits := fun cs : List Char => cs.takeWhile Char.isDigit
  let value := fun cs : List Char =>
    if cs = [] then none
    else some ((cs.foldl (fun n c => 10 * n + (c.toNat - '0'.toNat)) 0 : ℕ) : ℤ)
  match text.toList.dropWhile WebhookNotifier.isTrimmed with
  | '-' :: cs => (value (digits cs)).map Neg.neg
  | '+' :: cs => value (digits cs)
  | cs => value (digits cs)

/-- The delays of the retries; `env` is the variable `RETRY_DELAYS_MS`. -/
def getRetryDelays (env : Option String) : List ℕ :=
  let day := 24 * 60 * 60 * 1000
  let defaults := [day, 3 * day, 7 * day]
  match env.filter (· ≠ "") with
  | none => defaults
  | some text =>
    let parsed := (text.splitOn ",").map fun v =>
      parseInt (String.ofList (WebhookNotifier.trim v.toList))
    if ∀ n ∈ parsed, ∃ k ∈ n, 0 < k then parsed.map fun n => (n.getD 0).toNat else defaults

/-! ### Statements -/

/-- `getRawRetries`: the rows of a pair with their ids, by attempt number. -/
def getRawRetries (db : RetryDb) (subscriber merchant : String) : List (ℕ × PaymentRetry) :=
  (db.retries.entries.filter fun entry =>
    entry.2.subscriber = subscriber ∧ entry.2.merchant = merchant).insertionSort
    fun entry entry' => entry.2.attemptNumber ≤ entry'.2.attemptNumber

/-- `createRetryRecord`: the id of the row is `nextId`. -/
def createRetryRecord (db : RetryDb) (params : RetryParams) (attemptNumber scheduledAt : ℕ) :
    RetryDb :=
  { db with
    nextId := db.nextId + 1
    retries := db.retries.set db.nextId
      { params with
        attemptNumber, scheduledAt
        status := .pending
        attemptedAt := none
        error := none
        jobId := none
        createdAt := db.now
        updatedAt := db.now } }

/-- What `updateRetryRecord` is to change. -/
structure UpdateRetryInput where
  status : Option RetryStatus := none
  attemptedAt : Option ℕ := none
  error : Option String := none
  jobId : Option (Option String) := none

def PaymentRetry.update (row : PaymentRetry) (updates : UpdateRetryInput) (now : ℕ) :
    PaymentRetry :=
  { row with
    status := updates.status.getD row.status
    attemptedAt := updates.attemptedAt.or row.attemptedAt
    error := updates.error.or row.error
    jobId := updates.jobId.getD row.jobId
    updatedAt := now }

def updateRetryRecord (db : RetryDb) (id : ℕ) (updates : UpdateRetryInput) : RetryDb :=
  { db with retries := db.retries.modify id (·.update updates db.now) }

/-- A statement that changes the table, if it takes effect. -/
def execute (reply : DbReply) (db db' : RetryDb) : RetryDb :=
  if reply.outcome = .failed then db else db'

/-! ### Calls -/

/-- Where `enqueueRetries` is in its loop. -/
structure Scheduling where
  params : RetryParams
  delays : List ℕ
  startedAt : ℕ
  index : ℕ
  createdIds : List ℕ
  deriving DecidableEq, Repr

/-- What a call waits for. The loop that cancels retries is that of `cancelRetries`, or that of a
job that has succeeded. -/
inductive Call
  | check (params : RetryParams)
  | insert (s : Scheduling)
  | addJob (s : Scheduling) (retryId : ℕ)
  | backfill (s : Scheduling) (retryId : ℕ) (jobId : Option String)
  | readPending (subscriber merchant : String)
  | remove (job : Option RetryJobData) (retryId : ℕ) (rest : List (ℕ × PaymentRetry))
  | cancel (job : Option RetryJobData) (retryId : ℕ) (rest : List (ℕ × PaymentRetry))
  | mark (job : RetryJobData)
  | notify (job : RetryJobData)
  | succeed (job : RetryJobData)
  | readRemaining (job : RetryJobData)
  | fail (job : RetryJobData) (errorMsg : String)
  | escalate (job : RetryJobData)
  | ended (result : Except String (List ℕ))
  deriving DecidableEq, Repr

/-- What a call is answered: by the database, by BullMQ, or by `notifyWebhooks`. -/
inductive Reply
  | db (reply : DbReply)
  | added (result : Except String (Option String))
  | removed
  | notified (result : Except String Unit)
  deriving DecidableEq, Repr

/-- The loop of `enqueueRetries` goes on. -/
def Scheduling.next (s : Scheduling) : Call :=
  if s.index < min maxRetries s.delays.length then .insert s else .ended (.ok s.createdIds)

/-- `enqueueRetries` once the rows of the pair have been read. -/
def Call.afterCheck (env : Option String) (db : RetryDb) (params : RetryParams) : Call :=
  if ∃ entry ∈ getRawRetries db params.subscriber params.merchant, entry.2.status = .pending then
    .ended (.ok [])
  else Scheduling.next ⟨params, getRetryDelays env, db.now, 0, []⟩

/-- The loop that cancels retries goes on. A retry without a job is cancelled at once. -/
def Call.cancelNext (job : Option RetryJobData) : List (ℕ × PaymentRetry) → Call
  | [] => .ended (.ok [])
  | (id, row) :: rest =>
    if row.jobId.filter (· ≠ "") = none then .cancel job id rest else .remove job id rest

/-- A statement of a call is answered; an error is thrown, or caught by the job that it is part of.
-/
def Call.afterStatement (reply : DbReply) (job : Option RetryJobData) (next : Call) : Call :=
  if reply.outcome = .acknowledged then next
  else job.elim (.ended (.error reply.err)) fun job => .fail job reply.err

/-- A call goes on to its next await. -/
def callTurn (env : Option String) (db : RetryDb) : Call → Reply → RetryDb × Call
  | .check params, .db reply => (db, .afterStatement reply none (.afterCheck env db params))
  | .insert s, .db reply =>
    (execute reply db (createRetryRecord db s.params (s.index + 1)
        (s.startedAt + s.delays.getD s.index 0)),
      .afterStatement reply none (.addJob s db.nextId))
  | .addJob s retryId, .added result =>
    (db, match result with
      | .ok jobId => .backfill s retryId jobId
      | .error msg => .ended (.error msg))
  | .backfill s retryId jobId, .db reply =>
    (execute reply db (updateRetryRecord db retryId { jobId := some jobId }),
      .afterStatement reply none
        (Scheduling.next { s with index := s.index + 1, createdIds := s.createdIds ++ [retryId] }))
  | .readPending subscriber merchant, .db reply =>
    (db, .afterStatement reply none (.cancelNext none
      ((getRawRetries db subscriber merchant).filter fun entry => entry.2.status = .pending)))
  | .remove job retryId rest, .removed => (db, .cancel job retryId rest)
  | .cancel job retryId rest, .db reply =>
    (execute reply db (updateRetryRecord db retryId { status := some .cancelled }),
      .afterStatement reply job (.cancelNext job rest))
  | .mark job, .db reply =>
    (execute reply db (updateRetryRecord db job.retryId { attemptedAt := some db.now }),
      .afterStatement reply none (.notify job))
  | .notify job, .notified result =>
    (db, match result with
      | .ok () => .succeed job
      | .error msg => .fail job msg)
  | .succeed job, .db reply =>
    (execute reply db (updateRetryRecord db job.retryId { status := some .succeeded }),
      .afterStatement reply (some job) (.readRemaining job))
  | .readRemaining job, .db reply =>
    (db, .afterStatement reply (some job) (.cancelNext (some job)
      ((getRawRetries db job.subscriber job.merchant).filter fun entry =>
        entry.2.status = .pending ∧ entry.1 ≠ job.retryId)))
  | .fail job errorMsg, .db reply =>
    let db' := execute reply db
      (updateRetryRecord db job.retryId { status := some .failed, error := some errorMsg })
    if reply.outcome = .acknowledged ∧ maxRetries ≤ job.attemptNumber then
      ({ db' with escalations := db'.escalations ++ [job.toRetryParams] }, .escalate job)
    else (db', .afterStatement reply none (.ended (.ok [])))
  -- what the escalation throws is caught
  | .escalate _, .notified _ => (db, .ended (.ok []))
  | call, _ => (db, call)

/-- What can happen next: one of the three is called, a call is answered, or time passes. -/
inductive Input
  | enqueueRetries (params : RetryParams)
  | cancelRetries (subscriber merchant : String)
  | processRetryJob (job : RetryJobData)
  | answer (i : ℕ) (reply : Reply)
  | elapse (ms : ℕ)
  deriving DecidableEq, Repr

def retryStep (env : Option String) (p : Pool RetryDb Call) : Input → Pool RetryDb Call
  | .enqueueRetries params => p.start (.check params)
  | .cancelRetries subscriber merchant => p.start (.readPending subscriber merchant)
  | .processRetryJob job => p.start (.mark job)
  | .answer i reply => p.resume (callTurn env) i reply
  | .elapse ms => p.act fun db => { db with now := db.now + ms }

/-! ### What the statements do -/

variable {db : RetryDb} {env : Option String} {call : Call} {reply : Reply} {id : ℕ}

theorem get_createRetryRecord {params : RetryParams} {attemptNumber scheduledAt : ℕ}
    (hid : id ≠ db.nextId) :
    (createRetryRecord db params attemptNumber scheduledAt).retries.get id = db.retries.get id := by
  rw [createRetryRecord, InsertionMap.get_set, if_neg hid]

theorem get_updateRetryRecord {retryId : ℕ} {updates : UpdateRetryInput} :
    (updateRetryRecord db retryId updates).retries.get id =
      if id = retryId then (db.retries.get id).map (·.update updates db.now)
      else db.retries.get id := InsertionMap.get_modify

/-- The ids that have been given are below the next one. -/
def FreshIds (db : RetryDb) : Prop := db.retries.Below db.nextId

theorem FreshIds.create (h : FreshIds db) (params : RetryParams) (attemptNumber scheduledAt : ℕ) :
    FreshIds (createRetryRecord db params attemptNumber scheduledAt) := h.set _

theorem FreshIds.update (h : FreshIds db) (retryId : ℕ) (updates : UpdateRetryInput) :
    FreshIds (updateRetryRecord db retryId updates) := h.modify _ _

theorem FreshIds.execute {db' : RetryDb} (h : FreshIds db) (h' : FreshIds db') (reply : DbReply) :
    FreshIds (execute reply db db') := by
  unfold RetryQueue.execute
  split_ifs
  · exact h
  · exact h'

theorem FreshIds.callTurn (h : FreshIds db) : FreshIds (callTurn env db call reply).1 := by
  cases reply with
  | db r =>
    cases call with
    | insert s => exact h.execute (h.create _ _ _) r
    | backfill | cancel | mark | succeed => exact h.execute (h.update _ _) r
    | fail job errorMsg =>
      simp only [RetryQueue.callTurn]
      split_ifs <;> exact h.execute (h.update _ _) r
    | check | addJob | readPending | remove | notify | readRemaining | escalate | ended => exact h
  | added | removed | notified => cases call <;> exact h

end SorobanPay.RetryQueue
