import SorobanPay.Backend.WebhookIngestion
import SorobanPay.Backend.WebhookQueue
import SorobanPay.Foundation.Run

/-!
# Webhooks from their arrival to their delivery

The routes of `routes/webhooks.ts`, with the queue behind them. A request for `/ingest` whose body
is not too large and whose signature is right is read as JSON, and what it asks for is enqueued
under its delivery ID. The queue delivers, gives up and replays; the other routes list jobs of a
merchant and dead letters, and replay a dead letter.

Whatever happens to a job, its merchant, its URL and its payload stay what the request has asked
for, and the first request under an ID decides. So the queue is a list of what has been accepted,
and nothing is sent anywhere else.

## Main definitions

* `IncomingBody`, `JsonReader`, `enqueueParams`, `ingest`: the route for new webhooks.
* `listJobs`, `listDeadLetters`, `replay`: the other routes.
* `Service`, `serviceStep`, `accepts`: runs of the service.

## Main results

* `Traced.step`: jobs, calls and dead letters are what has been accepted.
* `webhook_provenance`: what is listed and what is posted.
-/

set_option autoImplicit false

namespace SorobanPay.WebhookIntake

open Foundation WebhookIngestion WebhookQueue

/-! ### The routes -/

/-- The largest size of a body that is read from a stream, in bytes. -/
def maxBodyBytes : ℕ := 1024 * 512

/-- A body comes as a buffer, or as a stream. -/
inductive IncomingBody
  | buffer (bytes : List UInt8)
  | stream (chunks : List (List UInt8))
  deriving DecidableEq, Repr

/-- The chunks of a stream are collected until there are too many bytes. -/
def collect (size : ℕ) (data : List UInt8) : List (List UInt8) → Option (List UInt8)
  | [] => some data
  | chunk :: chunks =>
    if maxBodyBytes < size + chunk.length then none
    else collect (size + chunk.length) (data ++ chunk) chunks

/-- The body, unless it is too large. -/
def IncomingBody.read : IncomingBody → Option (List UInt8)
  | .buffer bytes => some bytes
  | .stream chunks => collect 0 [] chunks

/-- What is used of `JSON.parse`: what it makes of the bytes of a text, whether this is `null`, and
the fields that are texts. -/
structure JsonReader (J : Type) where
  parse : List UInt8 → Option J
  isNull : J → Bool
  text : J → String → Option String

/-- The answers of `/ingest`; `threw` is what Express makes of an error in the handler. -/
inductive IngestAnswer
  | payloadTooLarge
  | rejected (rejection : Rejection)
  | invalidJson
  | threw
  | missingCallbackUrl
  | accepted (jobId : String)
  | alreadyEnqueued (jobId : String)
  deriving DecidableEq, Repr

namespace IngestAnswer

def status : IngestAnswer → ℕ
  | payloadTooLarge => 413
  | rejected rejection => rejection.status
  | invalidJson | missingCallbackUrl => 400
  | threw => 500
  | accepted _ => 202
  | alreadyEnqueued _ => 200

def code : IngestAnswer → Option String
  | payloadTooLarge => some "PAYLOAD_TOO_LARGE"
  | rejected rejection => some rejection.code
  | invalidJson => some "INVALID_JSON"
  | missingCallbackUrl => some "MISSING_CALLBACK_URL"
  | threw | accepted _ | alreadyEnqueued _ => none

end IngestAnswer

/-- The cache of the middleware, and the queue with the deliveries under way. -/
structure Service (J : Type) where
  cache : ReplayCache
  queue : Pool (QueueState J) (Call J)

variable {J : Type}

/-- What a body that has been verified asks for. -/
def enqueueParams (json : JsonReader J) (deliveryId : String) (rawBody : List UInt8) :
    Except IngestAnswer (EnqueueParams J) :=
  match json.parse rawBody with
  | none => .error .invalidJson
  | some parsed =>
    if json.isNull parsed then .error .threw
    else
      let merchantAddress := (json.text parsed "merchantAddress").getD "unknown"
      let url := (json.text parsed "callbackUrl").getD ""
      if url = "" then .error .missingCallbackUrl
      else .ok ⟨deliveryId, merchantAddress, url, parsed⟩

section Routes

variable (hmac : String → List UInt8 → String) (webhookSecret : Option String)
  (json : JsonReader J)

/-- `POST /ingest`, when the body has been read. -/
def ingestBody (σ : Service J) (a : Arrival) (rawBody : List UInt8) : Service J × IngestAnswer :=
  match verifyWebhookSignature hmac webhookSecret σ.cache { a with body := some rawBody } with
  | (cache, some rejection) => ({ σ with cache }, .rejected rejection)
  | (cache, none) =>
    match enqueueParams json a.deliveryId rawBody with
    | .error answer => ({ σ with cache }, answer)
    | .ok params =>
      (⟨cache, σ.queue.act fun q => (enqueue q params).1⟩,
        if (enqueue σ.queue.shared params).2 then .accepted a.deliveryId
        else .alreadyEnqueued a.deliveryId)

/-- `POST /ingest`. -/
def ingest (σ : Service J) (a : Arrival) (body : IncomingBody) : Service J × IngestAnswer :=
  match body.read with
  | none => (σ, .payloadTooLarge)
  | some rawBody => ingestBody hmac webhookSecret json σ a rawBody

/-- A job with another payload, or none. -/
def withPayload {P : Type} (payload : P) (job : WebhookJob J) : WebhookJob P :=
  { job with payload }

/-- `id.trim().length === 0`. -/
def isBlank (text : String) : Bool := text.toList.all WebhookNotifier.isTrimmed

/-- `GET /jobs/:merchantAddress`: the jobs without their payloads. -/
def listJobs (q : QueueState J) (merchantAddress : String) : Option (List (WebhookJob Unit)) :=
  if isBlank merchantAddress then none
  else some ((q.jobs.values.filter (·.merchantAddress = merchantAddress)).map (withPayload ()))

/-- `GET /dead-letters`: the payloads are made unreadable. -/
def listDeadLetters (q : QueueState J) : List (DeadLetterEntry String) :=
  q.deadLetters.values.map fun entry =>
    { entry with job := withPayload "[redacted]" entry.job }

/-- `POST /dead-letters/:id/replay`, with the status of the answer. -/
def replay (q : QueueState J) (id : String) : QueueState J × ℕ :=
  if isBlank id then (q, 400)
  else
    match replayDeadLetter q id with
    | (q, result) =>
      (q, if result.replayed = false ∧ result.reason = some "dead-letter entry not found" then 404
        else 200)

/-- A request, or what the queue does on its own. -/
inductive ServiceInput
  | ingest (a : Arrival) (body : IncomingBody)
  | replay (id : String)
  | deliver (id : String)
  | answer (i : ℕ) (reply : DelivererReply)
  | elapse (ms : ℕ)

def serviceStep (σ : Service J) : ServiceInput → Service J
  | .ingest a body => (ingest hmac webhookSecret json σ a body).1
  | .replay id => { σ with queue := σ.queue.act fun q => (replay q id).1 }
  | .deliver id => { σ with queue := queueStep σ.queue (.deliver id) }
  | .answer i reply => { σ with queue := queueStep σ.queue (.answer i reply) }
  | .elapse ms => { σ with queue := queueStep σ.queue (.elapse ms) }

/-- Nothing has arrived. -/
def serviceStart (J : Type) : Service J := ⟨.empty, queueStart⟩

/-- What is asked for by a request that is accepted. -/
def accepts (σ : Service J) : ServiceInput → List (EnqueueParams J)
  | .ingest a body =>
    match (ingest hmac webhookSecret json σ a body).2, body.read with
    | .accepted _, some rawBody => (enqueueParams json a.deliveryId rawBody).toOption.toList
    | _, _ => []
  | .replay _ | .deliver _ | .answer _ _ | .elapse _ => []

end Routes

/-! ### What a job has been accepted with -/

/-- What is kept of a job whatever happens to it. -/
def origin (job : WebhookJob J) : EnqueueParams J :=
  ⟨job.id, job.merchantAddress, job.url, job.payload⟩

section Origin

variable (job : WebhookJob J) (now : ℕ)

@[simp] theorem origin_job (params : EnqueueParams J) : origin (params.job now) = params := rfl

@[simp] theorem origin_begun : origin (job.begun now) = origin job := rfl

@[simp] theorem origin_afterSuccess : origin (job.afterSuccess now) = origin job := rfl

@[simp] theorem origin_renewed : origin (job.renewed now) = origin job := rfl

@[simp] theorem origin_afterFailure (result : DeliveryResult) :
    origin (job.afterFailure result now) = origin job := by
  rw [WebhookJob.afterFailure]
  split_ifs <;> rfl

end Origin

/-- What is posted has been accepted. -/
def Vouched (accepted : List (EnqueueParams J)) : QueueEvent J → Prop
  | .posted id url payload _ =>
    ∃ params ∈ accepted, params.id = id ∧ params.url = url ∧ params.payload = payload
  | .enqueued _ | .answered _ _ | .replayed _ => True

/-- The jobs are what has been accepted, in this order, whatever has become of them; so are the dead
letters and the jobs that are being delivered, and what has been posted. -/
structure Traced (accepted : List (EnqueueParams J)) (q : QueueState J) : Prop where
  keyed : Keyed q
  jobs : q.jobs.values.map origin = accepted
  deadLetters : ∀ id entry, q.deadLetters.get id = some entry → origin entry.job ∈ accepted
  events : ∀ event ∈ q.events, Vouched accepted event

namespace Traced

variable {accepted : List (EnqueueParams J)} {q : QueueState J} {job : WebhookJob J}

theorem start : Traced [] (queueStart (P := J)).shared :=
  ⟨keyed_start, rfl, fun _ _ h => by simp [queueStart, Pool.idle] at h,
    fun _ h => by simp [queueStart, Pool.idle] at h⟩

/-- A job that is stored has been accepted. -/
theorem origin_mem (h : Traced accepted q) {id : String} (hget : q.jobs.get id = some job) :
    origin job ∈ accepted :=
  h.jobs ▸ List.mem_map_of_mem (InsertionMap.mem_values_iff.2 ⟨id, hget⟩)

/-- What has been accepted is stored. -/
theorem exists_job (h : Traced accepted q) {params : EnqueueParams J}
    (hparams : params ∈ accepted) :
    ∃ job, q.jobs.get params.id = some job ∧ origin job = params := by
  rw [← h.jobs] at hparams
  obtain ⟨job, hjob, rfl⟩ := List.mem_map.1 hparams
  obtain ⟨id, hget⟩ := InsertionMap.mem_values_iff.1 hjob
  obtain rfl := h.keyed.jobs id job hget
  exact ⟨job, hget, rfl⟩

/-- No two requests have been accepted under one ID. -/
theorem nodup (h : Traced accepted q) : (accepted.map EnqueueParams.id).Nodup := by
  have hids : accepted.map EnqueueParams.id = q.jobs.keys := by
    rw [← h.jobs, InsertionMap.values, List.map_map, List.map_map]
    refine List.map_congr_left fun entry hentry => ?_
    exact h.keyed.jobs entry.1 entry.2 (InsertionMap.mem_entries_iff.1 hentry)
  rw [hids]
  exact q.jobs.nodup_keys

/-- A job is stored again, as something that has been accepted. -/
theorem save (h : Traced accepted q) (hjob : origin job ∈ accepted) :
    Traced accepted (q.save job) := by
  obtain ⟨old, hold, horigin⟩ := h.exists_job hjob
  refine ⟨⟨fun id job' hget => ?_, h.keyed.deadLetters⟩, ?_, h.deadLetters, h.events⟩
  · rw [get_save] at hget
    split_ifs at hget with hid
    · rw [← Option.some.inj hget, hid]
    · exact h.keyed.jobs id job' hget
  · exact (InsertionMap.map_values_set origin hold horigin.symm).trans h.jobs

/-- A dead letter is stored, of a job that has been accepted. -/
theorem saveDeadLetter (h : Traced accepted q) {entry : DeadLetterEntry J}
    (hentry : origin entry.job ∈ accepted) : Traced accepted (q.saveDeadLetter entry) := by
  refine ⟨⟨h.keyed.jobs, h.keyed.deadLetters_set rfl⟩, h.jobs, fun id entry' hget => ?_, h.events⟩
  rw [QueueState.saveDeadLetter, InsertionMap.get_set] at hget
  split_ifs at hget with hid
  · rwa [← Option.some.inj hget]
  · exact h.deadLetters id entry' hget

/-- The queue has done something. -/
theorem note (h : Traced accepted q) {event : QueueEvent J} (hevent : Vouched accepted event) :
    Traced accepted (q.note event) := by
  refine ⟨⟨h.keyed.jobs, h.keyed.deadLetters⟩, h.jobs, h.deadLetters, fun event' hmem => ?_⟩
  rcases List.mem_append.1 hmem with hmem | hmem
  · exact h.events event' hmem
  · exact List.mem_singleton.1 hmem ▸ hevent

/-- Another request is accepted. -/
theorem enqueue (h : Traced accepted q) {params : EnqueueParams J}
    (hnew : q.jobs.get params.id = none) :
    Traced (accepted ++ [params]) ((q.save (params.job q.now)).note (.enqueued params)) := by
  have hmono : ∀ {p : EnqueueParams J}, p ∈ accepted → p ∈ accepted ++ [params] :=
    List.mem_append_left _
  have hsave : Traced (accepted ++ [params]) (q.save (params.job q.now)) := by
    refine ⟨⟨fun id job hget => ?_, h.keyed.deadLetters⟩, ?_,
      fun id entry hget => hmono (h.deadLetters id entry hget), fun event hmem => ?_⟩
    · rw [get_save] at hget
      split_ifs at hget with hid
      · rw [← Option.some.inj hget, hid]
      · exact h.keyed.jobs id job hget
    · have hnew' : q.jobs.get (params.job q.now).id = none := hnew
      rw [QueueState.save, InsertionMap.values_set_of_none hnew', List.map_append, h.jobs]
      rfl
    · have hvouched := h.events event hmem
      cases event with
      | posted id url payload attempt =>
        obtain ⟨params', hparams, hposted⟩ := hvouched
        exact ⟨params', hmono hparams, hposted⟩
      | _ => trivial
  exact hsave.note trivial

theorem deliverStart (h : Traced accepted q) (id : String) :
    Traced accepted (deliverStart q id).1 := by
  unfold WebhookQueue.deliverStart
  cases hget : q.jobs.get id with
  | none => exact h
  | some job =>
    have hjob := h.origin_mem hget
    have hsave : Traced accepted (q.save (job.begun q.now)) := h.save hjob
    dsimp only
    split_ifs
    · exact h
    · exact h
    · exact hsave.note ⟨origin job, hjob, rfl, rfl, rfl⟩

theorem deliverEnd (h : Traced accepted q) (hjob : origin job ∈ accepted)
    (reply : DelivererReply) : Traced accepted (deliverEnd q job reply).1 := by
  have hanswered : Vouched accepted (.answered job.id false) := trivial
  unfold WebhookQueue.deliverEnd
  rcases reply.outcome with error | result
  · exact h.note hanswered
  have hfailed : origin (job.afterFailure result q.now) ∈ accepted := by simpa using hjob
  have hsave := (h.save hfailed).note hanswered
  dsimp only
  split_ifs
  · have hsuccess : Traced accepted (q.save (job.afterSuccess q.now)) := h.save hjob
    exact hsuccess.note trivial
  · exact hsave.saveDeadLetter hfailed
  · exact hsave

theorem replayDeadLetter (h : Traced accepted q) (id : String) :
    Traced accepted (replayDeadLetter q id).1 := by
  unfold WebhookQueue.replayDeadLetter
  cases hget : q.deadLetters.get id with
  | none => exact h
  | some entry =>
    have hentry := h.deadLetters id entry hget
    have hsave : Traced accepted (q.save (entry.job.renewed q.now)) := h.save hentry
    have hstored : Traced accepted ((q.save (entry.job.renewed q.now)).saveDeadLetter
        (entry.replayed q.now)) := hsave.saveDeadLetter hentry
    dsimp only
    split_ifs
    · exact h
    · exact hstored.note trivial

end Traced

/-! ### Runs -/

section Runs

variable {hmac : String → List UInt8 → String} {webhookSecret : Option String}
  {json : JsonReader J}

variable (hmac webhookSecret json) in
/-- A request is genuine, and asks for this. -/
def Asks (a : Arrival) (body : IncomingBody) (params : EnqueueParams J) : Prop :=
  ∃ rawBody, body.read = some rawBody ∧
    ({ a with body := some rawBody } : Arrival).Genuine hmac webhookSecret rawBody ∧
    enqueueParams json a.deliveryId rawBody = .ok params

/-- What is asked for is asked for under the delivery ID. -/
theorem id_of_enqueueParams {deliveryId : String} {rawBody : List UInt8} {params : EnqueueParams J}
    (h : enqueueParams json deliveryId rawBody = .ok params) : params.id = deliveryId := by
  unfold enqueueParams at h
  split at h
  · cases h
  · dsimp only at h
    split_ifs at h
    cases h
    rfl

variable (hmac webhookSecret json) in
/-- A request changes the queue only if it is genuine and its ID is new, and then it is accepted. -/
theorem ingest_cases (σ : Service J) (a : Arrival) (body : IncomingBody) :
    ((ingest hmac webhookSecret json σ a body).1.queue = σ.queue ∧
      accepts hmac webhookSecret json σ (.ingest a body) = []) ∨
    ∃ params, Asks hmac webhookSecret json a body params ∧
      σ.queue.shared.jobs.get params.id = none ∧
      (ingest hmac webhookSecret json σ a body).1.queue =
        σ.queue.act (fun q => (enqueue q params).1) ∧
      accepts hmac webhookSecret json σ (.ingest a body) = [params] := by
  cases hread : body.read with
  | none => exact .inl ⟨by simp [ingest, hread], by simp [accepts, hread]⟩
  | some rawBody =>
    have houtcome := outcome_verifyWebhookSignature hmac webhookSecret σ.cache
      { a with body := some rawBody }
    obtain ⟨cache, rejection, hverify⟩ : ∃ cache rejection,
        verifyWebhookSignature hmac webhookSecret σ.cache { a with body := some rawBody } =
          (cache, rejection) := ⟨_, _, rfl⟩
    rw [hverify] at houtcome
    cases rejection with
    | some rejection =>
      have hingest : ingest hmac webhookSecret json σ a body =
          ({ σ with cache }, .rejected rejection) := by
        simp only [ingest, hread, ingestBody, hverify]
      exact .inl ⟨by rw [hingest], by simp only [accepts, hingest]⟩
    | none =>
      cases hparams : enqueueParams json a.deliveryId rawBody with
      | error answer =>
        have hingest : ingest hmac webhookSecret json σ a body = ({ σ with cache }, answer) := by
          simp only [ingest, hread, ingestBody, hverify, hparams]
        have hnone : accepts hmac webhookSecret json σ (.ingest a body) = [] := by
          cases answer <;> simp [accepts, hingest, hread, hparams, Except.toOption]
        exact .inl ⟨by rw [hingest], hnone⟩
      | ok params =>
        have hingest : ingest hmac webhookSecret json σ a body =
            (⟨cache, σ.queue.act fun q => (enqueue q params).1⟩,
              if (enqueue σ.queue.shared params).2 then .accepted a.deliveryId
              else .alreadyEnqueued a.deliveryId) := by
          simp only [ingest, hread, ingestBody, hverify, hparams]
        cases hget : σ.queue.shared.jobs.get params.id with
        | some job =>
          have hsame : enqueue σ.queue.shared params = (σ.queue.shared, false) := by
            simp only [enqueue, hget]
          refine .inl ⟨?_, by simp [accepts, hingest, hsame]⟩
          rw [hingest]
          exact congrArg (Pool.mk · σ.queue.calls) (congrArg Prod.fst hsame)
        | none =>
          have hnew : (enqueue σ.queue.shared params).2 = true := by simp only [enqueue, hget]
          have hgenuine : ({ a with body := some rawBody } : Arrival).Genuine hmac webhookSecret
              rawBody := by
            cases houtcome with
            | accepted hgenuine hnew =>
              obtain rfl := Option.some.inj hgenuine.body
              exact hgenuine
          exact .inr ⟨params, ⟨rawBody, hread, hgenuine, hparams⟩, hget, by rw [hingest],
            by simp [accepts, hingest, hnew, hread, hparams, Except.toOption]⟩

/-- The service, and what it has accepted. -/
structure Served (t : Service J × List (EnqueueParams J)) : Prop where
  queue : Traced t.2 t.1.queue.shared
  calls : ∀ (i : ℕ) job, t.1.queue.calls[i]? = some (.delivering job) → origin job ∈ t.2

theorem served_start : Served (serviceStart J, []) :=
  ⟨.start, fun _ _ h => by simp [serviceStart, queueStart, Pool.idle] at h⟩

theorem Served.step {t : Service J × List (EnqueueParams J)} (h : Served t)
    (input : ServiceInput) :
    Served (logged (serviceStep hmac webhookSecret json) (accepts hmac webhookSecret json) t
      input) := by
  obtain ⟨σ, accepted⟩ := t
  obtain ⟨hqueue, hcalls⟩ := h
  cases input with
  | ingest a body =>
    rcases ingest_cases hmac webhookSecret json σ a body with
      ⟨hsame, hnone⟩ | ⟨params, -, hnew, hnext, hsome⟩
    · rw [logged, hnone, List.append_nil]
      exact ⟨by rw [serviceStep, hsame]; exact hqueue, by rw [serviceStep, hsame]; exact hcalls⟩
    · have henqueue : (enqueue σ.queue.shared params).1 =
          (σ.queue.shared.save (params.job σ.queue.shared.now)).note (.enqueued params) := by
        simp only [enqueue, hnew]
      rw [logged, hsome]
      refine ⟨?_, fun i job hi => ?_⟩
      · rw [serviceStep, hnext]
        change Traced (accepted ++ [params]) (enqueue σ.queue.shared params).1
        rw [henqueue]
        exact hqueue.enqueue hnew
      · rw [serviceStep, hnext] at hi
        exact List.mem_append_left _ (hcalls i job hi)
  | replay id =>
    rw [logged, accepts, List.append_nil]
    refine ⟨?_, hcalls⟩
    change Traced accepted (replay σ.queue.shared id).1
    unfold replay
    split_ifs
    · exact hqueue
    · exact hqueue.replayDeadLetter id
  | deliver id =>
    rw [logged, accepts, List.append_nil]
    refine ⟨hqueue.deliverStart id, fun i job hi => ?_⟩
    rcases Pool.getElem?_start hi with hi | ⟨-, hjob⟩
    · exact hcalls i job hi
    · rcases deliverStart_cases σ.queue.shared id with
        ⟨-, outcome, hended⟩ | ⟨stored, hget, -, -, -, -, hstored⟩
      · cases hended.symm.trans hjob.symm
      · obtain rfl := Call.delivering.inj (hjob.trans hstored)
        exact (hqueue.origin_mem hget : origin stored ∈ accepted)
  | answer i reply =>
    rw [logged, accepts, List.append_nil]
    refine ⟨?_, fun j job hj => ?_⟩
    · change Traced accepted (Pool.resume callTurn σ.queue i reply).shared
      rw [Pool.shared_resume]
      cases hcall : σ.queue.calls[i]? with
      | none => exact hqueue
      | some call =>
        cases call with
        | delivering job => exact hqueue.deliverEnd (hcalls i job hcall) reply
        | ended outcome => exact hqueue
    · change (Pool.resume callTurn σ.queue i reply).calls[j]? = _ at hj
      cases hcall : σ.queue.calls[i]? with
      | none =>
        rw [Pool.resume_of_none hcall] at hj
        exact hcalls j job hj
      | some call =>
        rw [Pool.resume_of_some hcall] at hj
        rcases Pool.getElem?_set hj with ⟨-, hj⟩ | ⟨-, hj⟩
        · cases call with
          | delivering job' =>
            obtain ⟨outcome, hended⟩ := deliverEnd_ended σ.queue.shared job' reply
            cases hj.trans hended
          | ended outcome => cases hj
        · exact hcalls j job hj
  | elapse ms =>
    rw [logged, accepts, List.append_nil]
    exact ⟨⟨⟨hqueue.keyed.jobs, hqueue.keyed.deadLetters⟩, hqueue.jobs, hqueue.deadLetters,
      hqueue.events⟩, hcalls⟩

variable (hmac webhookSecret json) in
/-- **From the arrival to the delivery.** After any requests, deliveries, failures and replays: what
has been accepted was asked for by genuine requests, each under another delivery ID. A merchant who
lists jobs finds those that have been accepted with its address, all of them, in order. And what has
been posted, or is a dead letter, is what has been accepted: the same URL and the same payload,
under the same ID. -/
theorem webhook_provenance (inputs : List ServiceInput) :
    let σ := after (serviceStep hmac webhookSecret json) (serviceStart J) inputs
    let accepted := history (serviceStep hmac webhookSecret json)
      (accepts hmac webhookSecret json) (serviceStart J) inputs
    (accepted.map EnqueueParams.id).Nodup ∧
      (∀ params ∈ accepted, ∃ a body, .ingest a body ∈ inputs ∧ params.id = a.deliveryId ∧
        Asks hmac webhookSecret json a body params) ∧
      (∀ merchantAddress, isBlank merchantAddress = false →
        ∃ listed, listJobs σ.queue.shared merchantAddress = some listed ∧
          listed.map (fun job => (job.id, job.merchantAddress, job.url)) =
            (accepted.filter (·.merchantAddress = merchantAddress)).map
              fun params => (params.id, params.merchantAddress, params.url)) ∧
      (∀ id url payload attempt, .posted id url payload attempt ∈ σ.queue.shared.events →
        ∃ merchantAddress, ⟨id, merchantAddress, url, payload⟩ ∈ accepted) ∧
      ∀ id entry, σ.queue.shared.deadLetters.get id = some entry →
        entry.job.id = id ∧ origin entry.job ∈ accepted := by
  intro σ accepted
  have hserved : Served (after (logged (serviceStep hmac webhookSecret json)
      (accepts hmac webhookSecret json)) (serviceStart J, []) inputs) :=
    after_invariant (fun _ input h => h.step input) served_start inputs
  rw [after_logged, List.nil_append] at hserved
  have hqueue : Traced accepted σ.queue.shared := hserved.queue
  refine ⟨hqueue.nodup, fun params hparams => ?_, fun merchantAddress hblank => ?_,
    fun id url payload attempt hposted => ?_, fun id entry hentry => ?_⟩
  · obtain ⟨input, hinput, τ, hobs⟩ := exists_of_mem_history hparams
    cases input with
    | ingest a body =>
      rcases ingest_cases hmac webhookSecret json τ a body with
        ⟨-, hnone⟩ | ⟨params', hasks, -, -, hsome⟩
      · simp [hnone] at hobs
      · obtain rfl : params = params' := by simpa [hsome] using hobs
        obtain ⟨rawBody, hread, hgenuine, hask⟩ := hasks
        exact ⟨a, body, hinput, id_of_enqueueParams hask, rawBody, hread, hgenuine, hask⟩
    | _ => simp [accepts] at hobs
  · refine ⟨_, by rw [listJobs, hblank, if_neg Bool.false_ne_true], ?_⟩
    rw [← hqueue.jobs, List.filter_map, List.map_map, List.map_map]
    rfl
  · obtain ⟨⟨id', merchantAddress, url', payload'⟩, hparams, rfl, rfl, rfl⟩ :=
      hqueue.events _ hposted
    exact ⟨merchantAddress, hparams⟩
  · exact ⟨hqueue.keyed.deadLetters id entry hentry, hqueue.deadLetters id entry hentry⟩

end Runs

end SorobanPay.WebhookIntake
