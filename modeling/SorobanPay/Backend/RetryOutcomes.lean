import SorobanPay.Backend.RetryQueue
import SorobanPay.Backend.WebhookNotifier
import SorobanPay.Foundation.Run

/-!
# The outcome of a retry

A retry is a notification of the merchant, and should be recorded as succeeded only when the
merchant has been reached. `processRetryJob` takes it that `notifyWebhooks` throws otherwise, but
`notifyWebhooks` returns also when all attempts have failed, or when there is no endpoint at all.
`succeeded_only_if_reached_iff` says exactly when the record is right.

Here the job is run by itself, with all its statements acknowledged; `after_processRetryJob` says
that this is a run of the calls of `SorobanPay.Backend.RetryQueue`.

## Main definitions

* `processRetryJob`: the job as a function.
* `RecordsReached`: a retry is recorded as succeeded only if the merchant was reached.

## Main results

* `after_processRetryJob`: the job is a run of the system of calls.
* `succeeded_only_if_reached_iff`: when the record is right.
-/

set_option autoImplicit false

namespace SorobanPay.RetryQueue

open Foundation WebhookNotifier

/-! ### The job as a function -/

/-- The event that a retry sends. -/
def RetryJobData.payload (job : RetryJobData) (now : ℕ) : WebhookPayload where
  event := .paymentFailed
  subscriber := job.subscriber
  merchant := job.merchant
  amount := job.amount
  timestamp := now

/-- The event of `emitMaxRetriesExceeded`. -/
def RetryParams.escalation (params : RetryParams) (now : ℕ) : WebhookPayload where
  event := .paymentFailed
  subscriber := params.subscriber
  merchant := params.merchant
  amount := params.amount
  timestamp := now
  txHash := some "max_retries_exceeded"

/-- What a job meets: the notification, how long it takes, and the notification of the escalation.
-/
structure JobInput where
  notify : NotifyInput
  elapsed : ℕ
  escalate : NotifyInput

/-- The pending retries of the pair other than that of the job. -/
def remainingRetries (db : RetryDb) (job : RetryJobData) : List (ℕ × PaymentRetry) :=
  (getRawRetries db job.subscriber job.merchant).filter fun entry =>
    entry.2.status = .pending ∧ entry.1 ≠ job.retryId

/-- Retries are cancelled one after the other. -/
def cancelAll (db : RetryDb) (retries : List (ℕ × PaymentRetry)) : RetryDb :=
  retries.foldl (fun db entry => updateRetryRecord db entry.1 { status := some .cancelled }) db

/-- The job is marked, and its notification takes this long. -/
def RetryJobData.attempted (job : RetryJobData) (db : RetryDb) (elapsed : ℕ) : RetryDb :=
  let marked := updateRetryRecord db job.retryId { attemptedAt := some db.now }
  { marked with now := marked.now + elapsed }

/-- The rest of the `try` block. -/
def RetryJobData.afterSuccess (job : RetryJobData) (db : RetryDb) : RetryDb :=
  let db := updateRetryRecord db job.retryId { status := some .succeeded }
  cancelAll db (remainingRetries db job)

/-- The `catch` block, without the escalation. -/
def RetryJobData.afterError (job : RetryJobData) (db : RetryDb) (errorMsg : String) : RetryDb :=
  updateRetryRecord db job.retryId { status := some .failed, error := some errorMsg }

def processRetryJob (crypto : Crypto) (input : JobInput) (db : RetryDb) (job : RetryJobData) :
    RetryDb × Sent :=
  let notified := notifyWebhooks crypto input.notify (job.payload db.now) db.now
  let db := job.attempted db input.elapsed
  match notified.2 with
  | .ok () => (job.afterSuccess db, notified.1)
  | .error errorMsg =>
    let db := job.afterError db errorMsg
    if maxRetries ≤ job.attemptNumber then
      ({ db with escalations := db.escalations ++ [job.toRetryParams] },
        notified.1.append
          (notifyWebhooks crypto input.escalate (job.escalation db.now) db.now).1)
    else (db, notified.1)

/-! ### The job as a run of calls -/

variable {db db' : RetryDb} {env : Option String} {job : RetryJobData} {crypto : Crypto}
  {input : JobInput} {id : ℕ}

/-- The answers of a run in which nothing fails. -/
def Smooth (replies : List Reply) : Prop :=
  ∀ reply ∈ replies, reply = .db .done ∨ reply = .removed ∨ reply = .notified (.ok ())

/-- The turn of the only call. -/
theorem retryStep_singleton {call : Call} {reply : Reply} :
    retryStep env ⟨db, [call]⟩ (.answer 0 reply) =
      ⟨(callTurn env db call reply).1, [(callTurn env db call reply).2]⟩ := rfl

/-- The loop that cancels retries comes to its end. -/
theorem exists_after_cancelNext (env : Option String) (job : RetryJobData) (db : RetryDb)
    (retries : List (ℕ × PaymentRetry)) :
    ∃ replies, Smooth replies ∧
      after (retryStep env) ⟨db, [.cancelNext (some job) retries]⟩ (replies.map (.answer 0)) =
        ⟨cancelAll db retries, [.ended (.ok [])]⟩ := by
  induction retries generalizing db with
  | nil => exact ⟨[], by simp [Smooth], rfl⟩
  | cons entry rest ih =>
    obtain ⟨replies, hsmooth, hafter⟩ :=
      ih (updateRetryRecord db entry.1 { status := some .cancelled })
    have hcancel : after (retryStep env) ⟨db, [.cancel (some job) entry.1 rest]⟩
        ((.db .done :: replies).map (.answer 0)) =
          ⟨cancelAll db (entry :: rest), [.ended (.ok [])]⟩ := hafter
    by_cases hjob : entry.2.jobId.filter (· ≠ "") = none
    · refine ⟨.db .done :: replies, ?_, ?_⟩
      · exact List.forall_mem_cons.2 ⟨.inl rfl, hsmooth⟩
      · rw [Call.cancelNext, if_pos hjob]
        exact hcancel
    · refine ⟨.removed :: .db .done :: replies, ?_, ?_⟩
      · exact List.forall_mem_cons.2 ⟨.inr (.inl rfl),
          List.forall_mem_cons.2 ⟨.inl rfl, hsmooth⟩⟩
      · rw [Call.cancelNext, if_neg hjob]
        exact hcancel

/-- The turn that ends the `catch` block, or leads to the escalation. -/
theorem callTurn_fail {errorMsg : String} :
    callTurn env db (.fail job errorMsg) (.db .done) =
      if maxRetries ≤ job.attemptNumber then
        ({ job.afterError db errorMsg with
            escalations := (job.afterError db errorMsg).escalations ++ [job.toRetryParams] },
          .escalate job)
      else (job.afterError db errorMsg, .ended (.ok [])) := by
  by_cases hlast : maxRetries ≤ job.attemptNumber
  · rw [if_pos hlast]
    exact if_pos ⟨rfl, hlast⟩
  · rw [if_neg hlast]
    exact if_neg fun h => hlast h.2

/-- **Jobs are runs of calls.** A job that runs by itself, its notification ending as that of
`notifyWebhooks` does, leaves what `processRetryJob` says. -/
theorem after_processRetryJob (crypto : Crypto) (input : JobInput) (db : RetryDb)
    (job : RetryJobData) :
    ∃ replies, Smooth replies ∧
      after (retryStep env) (.idle db)
          ([.processRetryJob job, .answer 0 (.db .done), .elapse input.elapsed,
            .answer 0 (.notified
              (notifyWebhooks crypto input.notify (job.payload db.now) db.now).2)] ++
            replies.map (.answer 0)) =
        ⟨(processRetryJob crypto input db job).1, [.ended (.ok [])]⟩ := by
  cases hnotified : (notifyWebhooks crypto input.notify (job.payload db.now) db.now).2 with
  | ok =>
    let marked := job.attempted db input.elapsed
    let succeeded := updateRetryRecord marked job.retryId { status := some .succeeded }
    obtain ⟨replies, hsmooth, hafter⟩ :=
      exists_after_cancelNext env job succeeded (remainingRetries succeeded job)
    refine ⟨.db .done :: .db .done :: replies, ?_, ?_⟩
    · exact List.forall_mem_cons.2 ⟨.inl rfl, List.forall_mem_cons.2 ⟨.inl rfl, hsmooth⟩⟩
    · have hsucceed : after (retryStep env) ⟨marked, [.succeed job]⟩
          ((.db .done :: .db .done :: replies).map (.answer 0)) =
            ⟨job.afterSuccess marked, [.ended (.ok [])]⟩ := hafter
      simp only [processRetryJob, hnotified]
      exact hsucceed
  | error msg =>
    by_cases hlast : maxRetries ≤ job.attemptNumber
    · refine ⟨[.db .done, .notified (.ok ())], ?_, ?_⟩
      · exact List.forall_mem_cons.2 ⟨.inl rfl, List.forall_mem_singleton.2 (.inr (.inr rfl))⟩
      · have hfail : after (retryStep env) ⟨job.attempted db input.elapsed, [.fail job msg]⟩
            ([.db .done, .notified (.ok ())].map (.answer 0)) =
              ⟨(processRetryJob crypto input db job).1, [.ended (.ok [])]⟩ := by
          simp only [List.map_cons, List.map_nil, after_cons, after_nil, retryStep_singleton,
            callTurn_fail, processRetryJob, hnotified, if_pos hlast]
          rfl
        exact hfail
    · refine ⟨[.db .done], List.forall_mem_singleton.2 (.inl rfl), ?_⟩
      have hfail : after (retryStep env) ⟨job.attempted db input.elapsed, [.fail job msg]⟩
          ([.db .done].map (.answer 0)) =
            ⟨(processRetryJob crypto input db job).1, [.ended (.ok [])]⟩ := by
        simp only [List.map_cons, List.map_nil, after_cons, after_nil, retryStep_singleton,
          callTurn_fail, processRetryJob, hnotified, if_neg hlast]
      exact hfail

/-! ### What is recorded -/

/-- A POST to a registered endpoint of the merchant has been answered with success. -/
def Reached (endpoints : List WebhookEndpoint) (merchant : String) (sent : Sent) : Prop :=
  ∃ post ∈ sent.posts, post.result.Ok ∧ ∃ ep ∈ endpoints, ep.merchant = merchant ∧ ep.url = post.url

/-- The row of this id has this status. -/
def HasStatus (db : RetryDb) (id : ℕ) (status : RetryStatus) : Prop :=
  ∃ row, db.retries.get id = some row ∧ row.status = status

/-- The other pending retries of the pair are still pending. -/
def KeepsRemaining (job : RetryJobData) (db db' : RetryDb) : Prop :=
  ∀ id row, id ≠ job.retryId → db.retries.get id = some row → row.subscriber = job.subscriber →
    row.merchant = job.merchant → row.status = .pending → HasStatus db' id .pending

/-- The retry is recorded as succeeded, or the remaining ones are cancelled, only if the merchant
has been reached; otherwise it is recorded as failed, and the remaining ones stay pending. -/
structure RecordsReached (endpoints : List WebhookEndpoint) (job : RetryJobData)
    (db db' : RetryDb) (sent : Sent) : Prop where
  reached : HasStatus db' job.retryId .succeeded ∨ ¬ KeepsRemaining job db db' →
    Reached endpoints job.merchant sent
  otherwise : ¬ Reached endpoints job.merchant sent →
    HasStatus db' job.retryId .failed ∧ KeepsRemaining job db db'

/-- A statement that writes a status to a row that is there. -/
theorem hasStatus_update {updates : UpdateRetryInput} {status : RetryStatus} {row : PaymentRetry}
    (hrow : db.retries.get id = some row) (hstatus : updates.status = some status) :
    HasStatus (updateRetryRecord db id updates) id status := by
  refine ⟨row.update updates db.now, ?_, ?_⟩
  · rw [get_updateRetryRecord, if_pos rfl, hrow, Option.map_some]
  · rw [PaymentRetry.update, hstatus, Option.getD_some]

/-- Cancelling others leaves a row alone. -/
theorem get_cancelAll {retries : List (ℕ × PaymentRetry)} (h : ∀ entry ∈ retries, entry.1 ≠ id) :
    (cancelAll db retries).retries.get id = db.retries.get id := by
  induction retries generalizing db with
  | nil => rfl
  | cons entry rest ih =>
    obtain ⟨hentry, hrest⟩ := List.forall_mem_cons.1 h
    have htail : (cancelAll db (entry :: rest)).retries.get id =
        (updateRetryRecord db entry.1 { status := some .cancelled }).retries.get id := ih hrest
    rw [htail, get_updateRetryRecord, if_neg hentry.symm]

/-- The row of the job is there when the notification ends. -/
theorem exists_row_attempted (hrow : (db.retries.get job.retryId).isSome) (elapsed : ℕ) :
    ∃ row, (job.attempted db elapsed).retries.get job.retryId = some row := by
  obtain ⟨row, hget⟩ := Option.isSome_iff_exists.1 hrow
  refine ⟨row.update { attemptedAt := some db.now } db.now, ?_⟩
  rw [RetryJobData.attempted, get_updateRetryRecord, if_pos rfl, hget, Option.map_some]

theorem hasStatus_afterSuccess {row : PaymentRetry} (hrow : db.retries.get job.retryId = some row) :
    HasStatus (job.afterSuccess db) job.retryId .succeeded := by
  have hothers : ∀ entry ∈ remainingRetries
      (updateRetryRecord db job.retryId { status := some .succeeded }) job,
      entry.1 ≠ job.retryId := by
    intro entry hentry
    exact (of_decide_eq_true (List.mem_filter.1 hentry).2).2
  have hupdate : HasStatus (updateRetryRecord db job.retryId { status := some .succeeded })
      job.retryId .succeeded := hasStatus_update hrow rfl
  obtain ⟨row', hget, hstatus⟩ := hupdate
  exact ⟨row', (get_cancelAll hothers).trans hget, hstatus⟩

/-- Every row but that of the job is as it was when the notification has failed. -/
theorem get_afterError {errorMsg : String} {elapsed : ℕ} (hid : id ≠ job.retryId) :
    (job.afterError (job.attempted db elapsed) errorMsg).retries.get id = db.retries.get id := by
  rw [RetryJobData.afterError, get_updateRetryRecord, if_neg hid, RetryJobData.attempted,
    get_updateRetryRecord, if_neg hid]

/-- The table after a notification that has thrown. -/
theorem retries_processRetryJob_of_error {errorMsg : String}
    (h : (notifyWebhooks crypto input.notify (job.payload db.now) db.now).2 = .error errorMsg) :
    (processRetryJob crypto input db job).1.retries =
      (job.afterError (job.attempted db input.elapsed) errorMsg).retries := by
  simp only [processRetryJob, h]
  split_ifs <;> rfl

/-- A job whose notification returns. -/
theorem processRetryJob_of_ok
    (h : (notifyWebhooks crypto input.notify (job.payload db.now) db.now).2 = .ok ()) :
    processRetryJob crypto input db job =
      (job.afterSuccess (job.attempted db input.elapsed),
        (notifyWebhooks crypto input.notify (job.payload db.now) db.now).1) := by
  simp only [processRetryJob, h]

/-- A job whose notification throws is recorded as failed. -/
theorem recordsReached_of_error {errorMsg : String}
    (hrow : (db.retries.get job.retryId).isSome)
    (h : (notifyWebhooks crypto input.notify (job.payload db.now) db.now).2 = .error errorMsg)
    (endpoints : List WebhookEndpoint) (sent : Sent) :
    RecordsReached endpoints job db (processRetryJob crypto input db job).1 sent := by
  have hretries := retries_processRetryJob_of_error h
  have hfailed : HasStatus (processRetryJob crypto input db job).1 job.retryId .failed := by
    obtain ⟨row, hget⟩ := exists_row_attempted hrow input.elapsed
    have hupdate : HasStatus (job.afterError (job.attempted db input.elapsed) errorMsg)
        job.retryId .failed := hasStatus_update hget rfl
    unfold HasStatus
    rw [hretries]
    exact hupdate
  have hkeeps : KeepsRemaining job db (processRetryJob crypto input db job).1 := by
    intro id row hid hget _ _ hpending
    refine ⟨row, ?_, hpending⟩
    rw [hretries, get_afterError hid, hget]
  refine ⟨fun hrecorded => ?_, fun _ => ⟨hfailed, hkeeps⟩⟩
  rcases hrecorded with ⟨row, hget, hstatus⟩ | hcancelled
  · obtain ⟨row', hget', hstatus'⟩ := hfailed
    obtain rfl := Option.some.inj (hget.symm.trans hget')
    exact absurd (hstatus.symm.trans hstatus') (by decide)
  · exact absurd hkeeps hcancelled

/-- The record is right unless the notification reaches nobody and does not throw. -/
theorem recordsReached_iff_not_silent (hrow : (db.retries.get job.retryId).isSome) :
    RecordsReached input.notify.endpoints job db (processRetryJob crypto input db job).1
        (processRetryJob crypto input db job).2 ↔
      ¬ Silent (notifyWebhooks crypto input.notify (job.payload db.now) db.now) := by
  constructor
  · rintro h ⟨hreaches, hok⟩
    rw [processRetryJob_of_ok hok] at h
    obtain ⟨row, hget⟩ := exists_row_attempted hrow input.elapsed
    obtain ⟨post, hpost, hpostOk, -⟩ := h.reached (.inl (hasStatus_afterSuccess hget))
    exact hreaches ⟨post, hpost, hpostOk⟩
  · intro hsilent
    cases hnotified : (notifyWebhooks crypto input.notify (job.payload db.now) db.now).2 with
    | error errorMsg => exact recordsReached_of_error hrow hnotified _ _
    | ok =>
      have hreached : Reached input.notify.endpoints job.merchant
          (processRetryJob crypto input db job).2 := by
        obtain ⟨post, hpost, hpostOk⟩ := not_not.1 fun h => hsilent ⟨h, hnotified⟩
        rw [processRetryJob_of_ok hnotified]
        exact ⟨post, hpost, hpostOk, (exists_endpoint_and_body_of_mem_posts hpost).1⟩
      exact ⟨fun _ => hreached, fun h => absurd hreached h⟩

/-- **When a retry is recorded as it went.** Whatever endpoints are registered and whatever they
answer, a retry is recorded as succeeded only if the merchant was reached, and as failed otherwise,
exactly if the endpoints cannot be read, or some attempt at an endpoint that the event applies to is
not swallowed: what it sends cannot be signed, it is answered with success, or its failure cannot be
recorded. -/
theorem succeeded_only_if_reached_iff (crypto : Crypto) (input : JobInput)
    (hrow : (db.retries.get job.retryId).isSome) :
    RecordsReached input.notify.endpoints job db (processRetryJob crypto input db job).1
        (processRetryJob crypto input db job).2 ↔
      input.notify.query.outcome ≠ .acknowledged ∨
        ∃ ep ∈ applicableEndpoints input.notify.endpoints (job.payload db.now),
          ∃ attempt < maxAttempts,
            ¬ Swallowed crypto ep ((job.payload db.now).body input.notify.uuid)
              (input.notify.attempts ep.id attempt) := by
  have heventId : eventIdOf crypto (job.payload db.now) input.notify.uuid = input.notify.uuid := rfl
  rw [recordsReached_iff_not_silent hrow, silent_notifyWebhooks_iff, heventId, not_and_or]
  simp only [not_forall, exists_prop, ne_eq]

/-- Two pending retries of a payment. -/
def sampleScheduledDb : RetryDb where
  retries :=
    (InsertionMap.empty.set 1
      ⟨⟨"GSUB", "GMER", "100", "CTOKEN"⟩, 1, .pending, 86400000, none, none, some "job-1", 0,
        0⟩).set 2
      ⟨⟨"GSUB", "GMER", "100", "CTOKEN"⟩, 2, .pending, 259200000, none, none, some "job-2", 0, 0⟩
  nextId := 3
  now := 86400000
  escalations := []

/-- The job of the first retry. -/
def sampleJob : RetryJobData := ⟨⟨"GSUB", "GMER", "100", "CTOKEN"⟩, 1, 1⟩

/-- Nothing is signed. -/
def sampleCrypto : Crypto := ⟨fun text => text, fun _ _ => .error "signPayload is not defined"⟩

/-- Every POST is answered with a status of 500, and recorded. -/
def sampleNotifyInput (endpoints : List WebhookEndpoint) : NotifyInput where
  endpoints := endpoints
  query := .done
  uuid := "event"
  attempts _ _ := ⟨"delivery", 0, .response 500, .done, .done⟩
  first := 0

def sampleJobInput (endpoints : List WebhookEndpoint) : JobInput :=
  ⟨sampleNotifyInput endpoints, 81000, sampleNotifyInput endpoints⟩

/-- An endpoint of the merchant. -/
def sampleEndpoint : WebhookEndpoint :=
  ⟨1, "GMER", "https://merchant.example/hook", true, none, "payment.executed,payment.failed"⟩

theorem succeeded_only_if_reached_sample :
    RecordsReached [sampleEndpoint] sampleJob sampleScheduledDb
        (processRetryJob sampleCrypto (sampleJobInput [sampleEndpoint]) sampleScheduledDb
          sampleJob).1
        (processRetryJob sampleCrypto (sampleJobInput [sampleEndpoint]) sampleScheduledDb
          sampleJob).2 ↔
      DbReply.done.outcome ≠ .acknowledged ∨
        ∃ ep ∈ applicableEndpoints [sampleEndpoint] (sampleJob.payload 86400000),
          ∃ attempt < maxAttempts,
            ¬ Swallowed sampleCrypto ep ((sampleJob.payload 86400000).body "event")
              ⟨"delivery", 0, .response 500, .done, .done⟩ := by
  have hrow : (sampleScheduledDb.retries.get sampleJob.retryId).isSome := by decide
  exact succeeded_only_if_reached_iff sampleCrypto (sampleJobInput [sampleEndpoint]) hrow

/-- The retry is recorded as succeeded when the endpoint has answered 500 five times, and also when
no endpoint is registered. -/
theorem not_succeeded_only_if_reached :
    ¬ RecordsReached [sampleEndpoint] sampleJob sampleScheduledDb
        (processRetryJob sampleCrypto (sampleJobInput [sampleEndpoint]) sampleScheduledDb
          sampleJob).1
        (processRetryJob sampleCrypto (sampleJobInput [sampleEndpoint]) sampleScheduledDb
          sampleJob).2 ∧
      ¬ RecordsReached [] sampleJob sampleScheduledDb
        (processRetryJob sampleCrypto (sampleJobInput []) sampleScheduledDb sampleJob).1
        (processRetryJob sampleCrypto (sampleJobInput []) sampleScheduledDb sampleJob).2 := by
  constructor
  · intro h
    obtain ⟨post, hpost, hpostOk, -⟩ := h.reached (.inl ⟨_, rfl, by decide⟩)
    have hnone : ∀ post ∈ (processRetryJob sampleCrypto (sampleJobInput [sampleEndpoint])
        sampleScheduledDb sampleJob).2.posts, ¬ post.result.Ok := by decide
    exact hnone post hpost hpostOk
  · intro h
    obtain ⟨post, hpost, -⟩ := h.reached (.inl ⟨_, rfl, by decide⟩)
    cases hpost

end SorobanPay.RetryQueue
