import SorobanPay.Foundation.InsertionMap
import SorobanPay.Foundation.Interleaving

/-!
# The webhook queue

`WebhookQueue` of `services/webhookQueue.ts` delivers webhook jobs, each in at most `maxAttempts`
attempts, puts a job whose attempts are exhausted among the dead letters, and lets an operator
replay it. Jobs and dead letters are kept in two maps by the id of the job.

`enqueue` and `replayDeadLetter` run without interruption. `deliver` waits for the injected
deliverer, so it has two parts: `deliverStart`, which stores the job as being delivered and calls
the deliverer, and `deliverEnd`, which stores what has become of the job it has stored before. If
the deliverer throws a value that no text can be made of, such as an object without a prototype,
then `deliver` throws, too, and the job stays as it is. What the queue has done is noted beside its
state. Dates are milliseconds, and the payload is of any type.

## Main definitions

* `WebhookJob`, `DeadLetterEntry`, `QueueState`: the two stores.
* `enqueue`, `deliverStart`, `deliverEnd`, `replayDeadLetter`: the operations.
* `queueStep`: calls that overlap at the await of the deliverer.

## Main results

* `enqueue_cases`, `deliverStart_cases`, `deliverEnd_cases`, `replayDeadLetter_cases`: what the
  operations write.
-/

set_option autoImplicit false

namespace SorobanPay.WebhookQueue

open Foundation

/-! ### Jobs -/

/-- The largest number of attempts at a job before it is a dead letter. -/
def maxAttempts : ℕ := 5

inductive JobStatus
  | pending
  | delivering
  | delivered
  | failed
  | deadLettered
  deriving DecidableEq, Repr

structure WebhookJob (P : Type) where
  id : String
  merchantAddress : String
  url : String
  payload : P
  attempts : ℕ
  lastAttemptAt : Option ℕ
  lastError : Option String
  status : JobStatus
  createdAt : ℕ
  resolvedAt : Option ℕ
  deriving DecidableEq, Repr

structure DeadLetterEntry (P : Type) where
  job : WebhookJob P
  reason : String
  deadLetteredAt : ℕ
  replayCount : ℕ
  lastReplayedAt : Option ℕ
  deriving DecidableEq, Repr

/-- The arguments of `enqueue`. -/
structure EnqueueParams (P : Type) where
  id : String
  merchantAddress : String
  url : String
  payload : P
  deriving DecidableEq, Repr

/-- The result of the deliverer. -/
structure DeliveryResult where
  success : Bool
  statusCode : Option ℕ
  error : Option String
  deriving DecidableEq, Repr

inductive DeliveryOutcome
  | delivered (id : String) (attempt : ℕ)
  | failed (id : String) (attempt retryDelayMs : ℕ) (error : Option String)
  | deadLettered (id : String) (attempts : Option ℕ) (reason : Option String)
  | notFound (id : String)
  | alreadyDelivered (id : String)
  deriving DecidableEq, Repr

structure ReplayResult where
  replayed : Bool
  reason : Option String
  jobId : Option String
  deriving DecidableEq, Repr

/-- What the queue does with a job: it stores it, hands it to the deliverer, is told whether it is
delivered, or replays it. -/
inductive QueueEvent (P : Type)
  | enqueued (params : EnqueueParams P)
  | posted (id url : String) (payload : P) (attempt : ℕ)
  | answered (id : String) (success : Bool)
  | replayed (id : String)
  deriving DecidableEq, Repr

/-- The two stores, the clock, and what the queue has done. -/
structure QueueState (P : Type) where
  jobs : InsertionMap String (WebhookJob P)
  deadLetters : InsertionMap String (DeadLetterEntry P)
  now : ℕ
  events : List (QueueEvent P)

/-! ### The operations -/

section Operations

variable {P : Type}

/-- `InMemoryJobStore.save`. -/
def QueueState.save (q : QueueState P) (job : WebhookJob P) : QueueState P :=
  { q with jobs := q.jobs.set job.id job }

/-- `InMemoryJobStore.saveDeadLetter`. -/
def QueueState.saveDeadLetter (q : QueueState P) (entry : DeadLetterEntry P) : QueueState P :=
  { q with deadLetters := q.deadLetters.set entry.job.id entry }

/-- The queue has done something. -/
def QueueState.note (q : QueueState P) (event : QueueEvent P) : QueueState P :=
  { q with events := q.events ++ [event] }

/-- An error message, cut off after 200 characters. -/
def sanitiseError (msg : String) : String :=
  if 200 < msg.length then (msg.take 200).toString ++ "…" else msg

def EnqueueParams.job (params : EnqueueParams P) (now : ℕ) : WebhookJob P where
  id := params.id
  merchantAddress := params.merchantAddress
  url := params.url
  payload := params.payload
  attempts := 0
  lastAttemptAt := none
  lastError := none
  status := .pending
  createdAt := now
  resolvedAt := none

def enqueue (q : QueueState P) (params : EnqueueParams P) : QueueState P × Bool :=
  match q.jobs.get params.id with
  | some _ => (q, false)
  | none => ((q.save (params.job q.now)).note (.enqueued params), true)

/-- What a call of `deliver` does next: wait for the deliverer, or nothing. -/
inductive Call (P : Type)
  | delivering (job : WebhookJob P)
  | ended (outcome : Except String DeliveryOutcome)
  deriving DecidableEq, Repr

/-- The job that `deliver` stores before it calls the deliverer. -/
def WebhookJob.begun (job : WebhookJob P) (now : ℕ) : WebhookJob P :=
  { job with status := .delivering, attempts := job.attempts + 1, lastAttemptAt := some now }

/-- `deliver` up to the await of the deliverer. -/
def deliverStart (q : QueueState P) (id : String) : QueueState P × Call P :=
  match q.jobs.get id with
  | none => (q, .ended (.ok (.notFound id)))
  | some job =>
    if job.status = .delivered then (q, .ended (.ok (.alreadyDelivered id)))
    else if job.status = .deadLettered then (q, .ended (.ok (.deadLettered id none none)))
    else
      ((q.save (job.begun q.now)).note (.posted job.id job.url job.payload (job.attempts + 1)),
        .delivering (job.begun q.now))

/-- How the deliverer ends. What it throws has a text, or making a text of it throws again. -/
inductive DelivererEnd
  | returned (result : DeliveryResult)
  | threw (text : Except String String)
  deriving DecidableEq, Repr

/-- How the deliverer ends; the delay that is recommended after a failure, and what the operator
alerter throws. -/
structure DelivererReply where
  result : DelivererEnd
  retryDelayMs : ℕ
  alertError : Option String
  deriving DecidableEq, Repr

/-- The result of the deliverer, also if it throws, or what `deliver` throws. -/
def DelivererReply.outcome (reply : DelivererReply) : Except String DeliveryResult :=
  match reply.result with
  | .returned result => .ok result
  | .threw (.ok msg) => .ok ⟨false, none, some (sanitiseError msg)⟩
  | .threw (.error error) => .error error

/-- The deliverer reports a failure, or throws a value that has a text. -/
def DelivererReply.Fails (reply : DelivererReply) : Prop :=
  ∃ result, reply.outcome = .ok result ∧ result.success = false

instance (reply : DelivererReply) : Decidable reply.Fails :=
  match h : reply.outcome with
  | .ok result => decidable_of_iff (result.success = false) (by simp [DelivererReply.Fails, h])
  | .error _ => .isFalse (by simp [DelivererReply.Fails, h])

/-- The job after a failure, its attempts exhausted or not. -/
def WebhookJob.afterFailure (job : WebhookJob P) (result : DeliveryResult) (now : ℕ) :
    WebhookJob P :=
  let lastError := result.error.getD ("HTTP " ++ (result.statusCode.map toString).getD "unknown")
  if maxAttempts ≤ job.attempts then
    { job with status := .deadLettered, lastError := some lastError, resolvedAt := some now }
  else { job with status := .failed, lastError := some lastError }

/-- The job after a success. -/
def WebhookJob.afterSuccess (job : WebhookJob P) (now : ℕ) : WebhookJob P :=
  { job with status := .delivered, resolvedAt := some now }

/-- The dead letter of a job whose attempts are exhausted. -/
def WebhookJob.deadLetter (job : WebhookJob P) (now : ℕ) : DeadLetterEntry P where
  job := job
  reason := "Exhausted " ++ toString maxAttempts ++ " delivery attempts. Last error: " ++
    job.lastError.getD "unknown"
  deadLetteredAt := now
  replayCount := 0
  lastReplayedAt := none

/-- `deliver` after the await: `job` is what has been stored before. -/
def deliverEnd (q : QueueState P) (job : WebhookJob P) (reply : DelivererReply) :
    QueueState P × Call P :=
  match reply.outcome with
  | .error error => (q.note (.answered job.id false), .ended (.error error))
  | .ok result =>
    if result.success then
      ((q.save (job.afterSuccess q.now)).note (.answered job.id true),
        .ended (.ok (.delivered job.id job.attempts)))
    else
      let failedJob := job.afterFailure result q.now
      let stored := (q.save failedJob).note (.answered job.id false)
      if maxAttempts ≤ job.attempts then
        let entry := failedJob.deadLetter q.now
        (stored.saveDeadLetter entry,
          .ended (match reply.alertError with
            | some msg => .error msg
            | none => .ok (.deadLettered job.id (some job.attempts) (some entry.reason))))
      else
        (stored, .ended (.ok (.failed job.id job.attempts reply.retryDelayMs failedJob.lastError)))

/-- The job that `replayDeadLetter` stores. -/
def WebhookJob.renewed (job : WebhookJob P) (now : ℕ) : WebhookJob P :=
  { job with
    attempts := 0
    status := .pending
    lastError := none
    lastAttemptAt := none
    resolvedAt := none
    createdAt := now }

/-- The entry of a dead letter after a replay. -/
def DeadLetterEntry.replayed (entry : DeadLetterEntry P) (now : ℕ) : DeadLetterEntry P :=
  { entry with replayCount := entry.replayCount + 1, lastReplayedAt := some now }

def replayDeadLetter (q : QueueState P) (id : String) : QueueState P × ReplayResult :=
  match q.deadLetters.get id with
  | none => (q, ⟨false, some "dead-letter entry not found", none⟩)
  | some entry =>
    if ∃ existing ∈ q.jobs.get id, existing.status ≠ .deadLettered then
      (q, ⟨false, some "live job already exists — replay is a no-op", none⟩)
    else
      (((q.save (entry.job.renewed q.now)).saveDeadLetter (entry.replayed q.now)).note
          (.replayed id),
        ⟨true, none, some id⟩)

/-! ### Calls that overlap -/

/-- What can happen next: an operation is called, a deliverer returns, or time passes. -/
inductive Input (P : Type)
  | enqueue (params : EnqueueParams P)
  | deliver (id : String)
  | replayDeadLetter (id : String)
  | answer (i : ℕ) (reply : DelivererReply)
  | elapse (ms : ℕ)
  deriving DecidableEq, Repr

/-- A call goes on when its deliverer returns. -/
def callTurn (q : QueueState P) : Call P → DelivererReply → QueueState P × Call P
  | .delivering job, reply => deliverEnd q job reply
  | .ended outcome, _ => (q, .ended outcome)

def queueStep (p : Pool (QueueState P) (Call P)) : Input P → Pool (QueueState P) (Call P)
  | .enqueue params => p.act fun q => (enqueue q params).1
  | .deliver id =>
    (p.act fun q => (deliverStart q id).1).start (deliverStart p.shared id).2
  | .replayDeadLetter id => p.act fun q => (replayDeadLetter q id).1
  | .answer i reply => p.resume callTurn i reply
  | .elapse ms => p.act fun q => { q with now := q.now + ms }

/-- The empty queue. -/
def queueStart : Pool (QueueState P) (Call P) := .idle ⟨.empty, .empty, 0, []⟩

/-! ### What is found after a step -/

variable {q q' : QueueState P} {job : WebhookJob P} {entry : DeadLetterEntry P}
  {event : QueueEvent P} {id : String}

/-- The job that the queue has done something with. -/
def QueueEvent.jobId : QueueEvent P → String
  | .enqueued params => params.id
  | .posted id _ _ _ | .answered id _ | .replayed id => id

/-- What the queue has done with a job. -/
def QueueState.eventsOf (q : QueueState P) (id : String) : List (QueueEvent P) :=
  q.events.filter (·.jobId = id)

@[simp] theorem get_save : (q.save job).jobs.get id =
    if id = job.id then some job else q.jobs.get id := InsertionMap.get_set

@[simp] theorem jobs_note : (q.note event).jobs = q.jobs := rfl

@[simp] theorem eventsOf_save : (q.save job).eventsOf id = q.eventsOf id := rfl

@[simp] theorem eventsOf_note : (q.note event).eventsOf id =
    if event.jobId = id then q.eventsOf id ++ [event] else q.eventsOf id := by
  rw [QueueState.eventsOf, QueueState.note, List.filter_append, List.filter_singleton]
  split_ifs with h <;> simp [h, QueueState.eventsOf]

@[simp] theorem afterFailure_id (result : DeliveryResult) (now : ℕ) :
    (job.afterFailure result now).id = job.id := by
  unfold WebhookJob.afterFailure
  split_ifs <;> rfl

@[simp] theorem afterFailure_attempts (result : DeliveryResult) (now : ℕ) :
    (job.afterFailure result now).attempts = job.attempts := by
  unfold WebhookJob.afterFailure
  split_ifs <;> rfl

theorem afterFailure_status (job : WebhookJob P) (result : DeliveryResult) (now : ℕ) :
    (job.afterFailure result now).status =
      if maxAttempts ≤ job.attempts then .deadLettered else .failed := by
  unfold WebhookJob.afterFailure
  split_ifs <;> rfl

/-- A job is written, with an event of it, and nothing else about jobs. -/
structure Writes (q : QueueState P) (job : WebhookJob P) (event : QueueEvent P)
    (q' : QueueState P) : Prop where
  jobs : ∀ id, q'.jobs.get id = if id = job.id then some job else q.jobs.get id
  events : ∀ id, q'.eventsOf id =
    if id = job.id then q.eventsOf id ++ [event] else q.eventsOf id

theorem writes_save_note (h : event.jobId = job.id) :
    Writes q job event ((q.save job).note event) := by
  refine ⟨fun id => by rw [jobs_note, get_save], fun id => ?_⟩
  rw [eventsOf_note, eventsOf_save, h]
  exact if_congr eq_comm rfl rfl

/-- A job is stored if its id is new. -/
theorem enqueue_cases (q : QueueState P) (params : EnqueueParams P) :
    (enqueue q params).1 = q ∨ q.jobs.get params.id = none ∧
      Writes q (params.job q.now) (.enqueued params) (enqueue q params).1 ∧
      (enqueue q params).1.deadLetters = q.deadLetters := by
  unfold enqueue
  cases hget : q.jobs.get params.id with
  | some existing => exact .inl rfl
  | none => exact .inr ⟨rfl, writes_save_note rfl, rfl⟩

/-- A job is posted unless it has been delivered or is a dead letter. -/
theorem deliverStart_cases (q : QueueState P) (id : String) :
    (deliverStart q id).1 = q ∧ (∃ outcome, (deliverStart q id).2 = .ended outcome) ∨
    ∃ job, q.jobs.get id = some job ∧ job.status ≠ .delivered ∧ job.status ≠ .deadLettered ∧
      Writes q (job.begun q.now) (.posted job.id job.url job.payload (job.attempts + 1))
        (deliverStart q id).1 ∧
      (deliverStart q id).1.deadLetters = q.deadLetters ∧
      (deliverStart q id).2 = .delivering (job.begun q.now) := by
  unfold deliverStart
  cases hget : q.jobs.get id with
  | none => exact .inl ⟨rfl, _, rfl⟩
  | some job =>
    by_cases hdelivered : job.status = .delivered
    · exact .inl ⟨by simp [hdelivered], _, by simp only [if_pos hdelivered]; rfl⟩
    · by_cases hdead : job.status = .deadLettered
      · exact .inl ⟨by simp [hdead], _, by simp only [if_neg hdelivered, if_pos hdead]; rfl⟩
      · simp only [if_neg hdelivered, if_neg hdead]
        exact .inr ⟨job, rfl, hdelivered, hdead, writes_save_note rfl, rfl, rfl⟩

/-- What has become of the job is written over whatever is stored by then, unless the deliverer has
thrown a value without a text. -/
theorem deliverEnd_cases (q : QueueState P) (job : WebhookJob P) (reply : DelivererReply) :
    (∃ error, reply.outcome = .error error ∧
      (deliverEnd q job reply).1 = q.note (.answered job.id false)) ∨
    (∃ result, reply.outcome = .ok result ∧ result.success = true ∧
      Writes q (job.afterSuccess q.now) (.answered job.id true) (deliverEnd q job reply).1 ∧
      (deliverEnd q job reply).1.deadLetters = q.deadLetters) ∨
    (∃ result, reply.outcome = .ok result ∧ result.success = false ∧
      Writes q (job.afterFailure result q.now) (.answered job.id false)
        (deliverEnd q job reply).1 ∧
      (job.attempts < maxAttempts ∧ (deliverEnd q job reply).1.deadLetters = q.deadLetters ∨
        maxAttempts ≤ job.attempts ∧ (deliverEnd q job reply).1.deadLetters =
          q.deadLetters.set job.id ((job.afterFailure result q.now).deadLetter q.now))) := by
  unfold deliverEnd
  rcases houtcome : reply.outcome with error | result
  · exact .inl ⟨error, rfl, rfl⟩
  right
  by_cases hsuccess : result.success = true
  · simp only [if_pos hsuccess]
    exact .inl ⟨result, rfl, hsuccess, writes_save_note rfl, rfl⟩
  · have hwrites : Writes q (job.afterFailure result q.now) (.answered job.id false)
        ((q.save (job.afterFailure result q.now)).note (.answered job.id false)) :=
      writes_save_note (afterFailure_id _ _).symm
    simp only [if_neg hsuccess]
    refine .inr ⟨result, rfl, by simpa using hsuccess, ?_⟩
    by_cases hlast : maxAttempts ≤ job.attempts
    · simp only [if_pos hlast]
      refine ⟨⟨hwrites.jobs, hwrites.events⟩, .inr ⟨hlast, ?_⟩⟩
      rw [QueueState.saveDeadLetter, WebhookJob.deadLetter, afterFailure_id]
      rfl
    · simp only [if_neg hlast]
      exact ⟨hwrites, .inl ⟨Nat.lt_of_not_le hlast, rfl⟩⟩

/-- A call ends when its deliverer has ended. -/
theorem deliverEnd_ended (q : QueueState P) (job : WebhookJob P) (reply : DelivererReply) :
    ∃ outcome, (deliverEnd q job reply).2 = .ended outcome := by
  unfold deliverEnd
  rcases reply.outcome with error | result
  · exact ⟨_, rfl⟩
  by_cases hsuccess : result.success = true
  · simp only [if_pos hsuccess]
    exact ⟨_, rfl⟩
  · by_cases hlast : maxAttempts ≤ job.attempts
    · simp only [if_neg hsuccess, if_pos hlast]
      exact ⟨_, rfl⟩
    · simp only [if_neg hsuccess, if_neg hlast]
      exact ⟨_, rfl⟩

/-- Unless the deliverer has thrown a value without a text, the job is written, and it is not being
delivered any more. -/
theorem deliverEnd_writes (q : QueueState P) (job : WebhookJob P) {reply : DelivererReply}
    {result : DeliveryResult} (h : reply.outcome = .ok result) :
    ∃ stored event, stored.id = job.id ∧ stored.status ≠ .delivering ∧
      Writes q stored event (deliverEnd q job reply).1 := by
  rcases deliverEnd_cases q job reply with
    ⟨error, herror, -⟩ | ⟨-, -, -, hwrites, -⟩ | ⟨result', -, -, hwrites, -⟩
  · cases h.symm.trans herror
  · exact ⟨job.afterSuccess q.now, _, rfl, JobStatus.noConfusion, hwrites⟩
  · refine ⟨job.afterFailure result' q.now, _, afterFailure_id _ _, ?_, hwrites⟩
    rw [afterFailure_status]
    split_ifs <;> decide

/-- A dead letter is replayed unless its job is alive. -/
theorem replayDeadLetter_cases (q : QueueState P) (id : String) :
    (replayDeadLetter q id).1 = q ∨
    ∃ entry, q.deadLetters.get id = some entry ∧
      (∀ job, q.jobs.get id = some job → job.status = .deadLettered) ∧
      (entry.job.id = id → Writes q (entry.job.renewed q.now) (.replayed id)
        (replayDeadLetter q id).1) ∧
      (replayDeadLetter q id).1.deadLetters =
        q.deadLetters.set entry.job.id (entry.replayed q.now) := by
  unfold replayDeadLetter
  cases hget : q.deadLetters.get id with
  | none => exact .inl rfl
  | some entry =>
    by_cases hlive : ∃ existing ∈ q.jobs.get id, existing.status ≠ .deadLettered
    · exact .inl (by simp only [if_pos hlive])
    · simp only [if_neg hlive]
      refine .inr ⟨entry, rfl, fun job hjob => ?_, fun hid => ?_, rfl⟩
      · exact not_not.1 fun hstatus => hlive ⟨job, hjob, hstatus⟩
      · have hwrites : Writes q (entry.job.renewed q.now) (.replayed id)
            ((q.save (entry.job.renewed q.now)).note (.replayed id)) := writes_save_note hid.symm
        exact ⟨hwrites.jobs, hwrites.events⟩

/-- Jobs and dead letters are stored under their ids. -/
structure Keyed (q : QueueState P) : Prop where
  jobs : ∀ id job, q.jobs.get id = some job → job.id = id
  deadLetters : ∀ id entry, q.deadLetters.get id = some entry → entry.job.id = id

theorem Keyed.of_writes (h : Keyed q) (hwrites : Writes q job event q')
    (hdead : ∀ id entry, q'.deadLetters.get id = some entry → entry.job.id = id) : Keyed q' := by
  refine ⟨fun id job' hget => ?_, hdead⟩
  rw [hwrites.jobs] at hget
  split_ifs at hget with hid
  · rw [← Option.some.inj hget, hid]
  · exact h.jobs id job' hget

theorem Keyed.deadLetters_set (h : Keyed q) {entry : DeadLetterEntry P}
    (hentry : entry.job.id = id) :
    ∀ id' entry', (q.deadLetters.set id entry).get id' = some entry' → entry'.job.id = id' := by
  intro id' entry' hget
  rw [InsertionMap.get_set] at hget
  split_ifs at hget with hid
  · rw [← Option.some.inj hget, hentry, hid]
  · exact h.deadLetters id' entry' hget

theorem Keyed.deliverEnd (h : Keyed q) (job : WebhookJob P) (reply : DelivererReply) :
    Keyed (deliverEnd q job reply).1 := by
  rcases deliverEnd_cases q job reply with
    ⟨-, -, heq⟩ | ⟨-, -, -, hwrites, hdead⟩ | ⟨result, -, -, hwrites, ⟨-, hdead⟩ | ⟨-, hdead⟩⟩
  · rw [heq]
    exact ⟨h.jobs, h.deadLetters⟩
  · exact h.of_writes hwrites (hdead ▸ h.deadLetters)
  · exact h.of_writes hwrites (hdead ▸ h.deadLetters)
  · refine h.of_writes hwrites ?_
    rw [hdead]
    exact h.deadLetters_set (afterFailure_id _ _)

theorem Keyed.enqueue (h : Keyed q) (params : EnqueueParams P) : Keyed (enqueue q params).1 := by
  rcases enqueue_cases q params with heq | ⟨-, hwrites, hdead⟩
  · rwa [heq]
  · exact h.of_writes hwrites (hdead ▸ h.deadLetters)

theorem Keyed.deliverStart (h : Keyed q) (id : String) : Keyed (deliverStart q id).1 := by
  rcases deliverStart_cases q id with ⟨heq, -⟩ | ⟨job, -, -, -, hwrites, hdead, -⟩
  · rwa [heq]
  · exact h.of_writes hwrites (hdead ▸ h.deadLetters)

theorem Keyed.replayDeadLetter (h : Keyed q) (id : String) : Keyed (replayDeadLetter q id).1 := by
  rcases replayDeadLetter_cases q id with heq | ⟨entry, hget, -, hwrites, hentry⟩
  · rwa [heq]
  · refine h.of_writes (hwrites (h.deadLetters id entry hget)) ?_
    rw [hentry]
    exact h.deadLetters_set rfl

theorem Keyed.step {p : Pool (QueueState P) (Call P)} (h : Keyed p.shared) (input : Input P) :
    Keyed (queueStep p input).shared := by
  cases input with
  | enqueue params => exact h.enqueue params
  | deliver id => exact h.deliverStart id
  | replayDeadLetter id => exact h.replayDeadLetter id
  | elapse ms => exact ⟨h.jobs, h.deadLetters⟩
  | answer i reply =>
    rw [queueStep, Pool.shared_resume]
    rcases p.calls[i]? with _ | job | outcome
    · exact h
    · exact h.deliverEnd job reply
    · exact h

theorem keyed_start : Keyed (queueStart (P := P)).shared :=
  ⟨fun _ _ h => by simp [queueStart, Pool.idle] at h,
    fun _ _ h => by simp [queueStart, Pool.idle] at h⟩

end Operations

end SorobanPay.WebhookQueue
