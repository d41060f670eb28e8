import SorobanPay.Backend.RetryOutcomes
import SorobanPay.Backend.RetryScheduling

/-!
# Escalating once

When all retries of a payment have failed, its merchant should be told so once. The job of a retry
escalates if it fails and has the number `maxRetries`. The retries that are scheduled may be fewer,
and the job with this number need not be the last to end: a job starts when its delay is over, the
delays are configured in any order, and a job may start while another is active.
`escalates_once_iff` says in which runs there is one escalation in the right place.

BullMQ is followed in what it does with the jobs of one call of `enqueueRetries`: it starts each of
them once, not before its delay is over and not when it has been removed. A job that is active is
not removed.

## Main definitions

* `enqueueRetries`, `ScheduledJob`: the rows and the jobs of one call.
* `finishRetryJob`, `workerStep`: how a job ends, and the worker.
* `EscalatesOnce`: there has been one escalation if all retries have failed, and none otherwise.
* `FailsInOrder`: the attempt that fails is the third exactly if all others have failed before.

## Main results

* `exists_after_enqueueRetries`: the scheduling is a run of the system of calls.
* `after_start_elapse_finish`: a job that runs by itself does what `processRetryJob` says.
* `escalates_once_iff`: when there is one escalation in the right place.
* `escalations_of_few_delays`: with fewer than three delays there is none at all.
-/

set_option autoImplicit false

namespace SorobanPay.RetryQueue

open Foundation WebhookNotifier

/-! ### Scheduling -/

/-- A job as BullMQ keeps it, with the time it was added at. -/
structure ScheduledJob where
  jobId : String
  timestamp : ℕ
  delay : ℕ
  data : RetryJobData
  deriving DecidableEq, Repr

/-- One round of the loop of `enqueueRetries`; BullMQ names the job by its round. -/
def scheduleRetry (jobIds : ℕ → String) (params : RetryParams) (delays : List ℕ) (startedAt : ℕ)
    (s : RetryDb × List ScheduledJob) (i : ℕ) : RetryDb × List ScheduledJob :=
  let delayMs := delays.getD i 0
  let created := createRetryRecord s.1 params (i + 1) (startedAt + delayMs)
  let jobData : RetryJobData := { params with attemptNumber := i + 1, retryId := s.1.nextId }
  (updateRetryRecord created s.1.nextId { jobId := some (some (jobIds i)) },
    s.2 ++ [⟨jobIds i, s.1.now, delayMs, jobData⟩])

/-- `enqueueRetries`, with all statements acknowledged. -/
def enqueueRetries (env : Option String) (jobIds : ℕ → String) (db : RetryDb)
    (params : RetryParams) : RetryDb × List ScheduledJob :=
  if ∃ entry ∈ getRawRetries db params.subscriber params.merchant, entry.2.status = .pending then
    (db, [])
  else
    let delays := getRetryDelays env
    (List.range (min maxRetries delays.length)).foldl
      (scheduleRetry jobIds params delays db.now) (db, [])

/-! ### The worker -/

/-- How `processRetryJob` ends once `notifyWebhooks` has. -/
def finishRetryJob (job : RetryJobData) (result : Except String Unit) (db : RetryDb) : RetryDb :=
  match result with
  | .ok () => job.afterSuccess db
  | .error errorMsg =>
    let db := job.afterError db errorMsg
    if maxRetries ≤ job.attemptNumber then
      { db with escalations := db.escalations ++ [job.toRetryParams] }
    else db

/-- The jobs that are removed when a job has succeeded. -/
def RetryJobData.removes (job : RetryJobData) (db : RetryDb) : List String :=
  (remainingRetries (updateRetryRecord db job.retryId { status := some .succeeded }) job).filterMap
    fun entry => entry.2.jobId.filter (· ≠ "")

/-- The table, the jobs that have not been started yet, and those under way. -/
structure WorkerState where
  db : RetryDb
  delayed : List ScheduledJob
  active : List ScheduledJob

/-- What can happen next: a job is started, its notification ends, or time passes. -/
inductive WorkerEvent
  | start (job : ScheduledJob)
  | finish (job : ScheduledJob) (result : Except String Unit)
  | elapse (ms : ℕ)
  deriving DecidableEq

def workerStep (s : WorkerState) : WorkerEvent → WorkerState
  | .start job =>
    if job ∈ s.delayed ∧ job.timestamp + job.delay ≤ s.db.now then
      { db := updateRetryRecord s.db job.data.retryId { attemptedAt := some s.db.now }
        delayed := s.delayed.filter (· ≠ job)
        active := s.active ++ [job] }
    else s
  | .finish job result =>
    if job ∈ s.active then
      { db := finishRetryJob job.data result s.db
        delayed := s.delayed.filter fun other =>
          ¬ (result = .ok () ∧ other.jobId ∈ job.data.removes s.db)
        active := s.active.filter (· ≠ job) }
    else s
  | .elapse ms => { s with db := { s.db with now := s.db.now + ms } }

/-- The worker after one call of `enqueueRetries`. -/
def scheduledState (env : Option String) (jobIds : ℕ → String) (db : RetryDb)
    (params : RetryParams) : WorkerState :=
  let scheduled := enqueueRetries env jobIds db params
  ⟨scheduled.1, scheduled.2, []⟩

/-! ### What is asked for -/

/-- Some retries have been scheduled, and all of them are recorded as failed. -/
def AllFailed (jobs : List ScheduledJob) (db : RetryDb) : Prop :=
  jobs ≠ [] ∧ ∀ job ∈ jobs, HasStatus db job.data.retryId .failed

/-- Since `before` there has been one escalation if all retries have failed, and none otherwise. -/
structure EscalatesOnce (params : RetryParams) (jobs : List ScheduledJob) (before : RetryDb)
    (db : RetryDb) : Prop where
  failed : AllFailed jobs db → db.escalations = before.escalations ++ [params]
  otherwise : ¬ AllFailed jobs db → db.escalations = before.escalations

/-- The attempt that fails is the third exactly if all others have failed before. -/
def FailsInOrder (jobs : List ScheduledJob) (s : WorkerState) : WorkerEvent → Prop
  | .finish job (.error _) => job ∈ s.active →
      (maxRetries ≤ job.data.attemptNumber ↔
        ∀ other ∈ jobs, other ≠ job → HasStatus s.db other.data.retryId .failed)
  | .finish _ (.ok _) | .start _ | .elapse _ => True

/-! ### The scheduling as a run of calls -/

variable {env : Option String} {jobIds : ℕ → String} {db db' before : RetryDb}
  {params : RetryParams} {jobs : List ScheduledJob} {job other : ScheduledJob}
  {s : WorkerState} {id : ℕ}

/-- The answers of a run of `enqueueRetries` in which nothing fails. -/
def Schedules (jobIds : ℕ → String) (replies : List Reply) : Prop :=
  ∀ reply ∈ replies, reply = .db .done ∨ ∃ i, reply = .added (.ok (some (jobIds i)))

/-- The ids that `enqueueRetries` returns. -/
def createdIds (jobs : List ScheduledJob) : List ℕ := jobs.map fun job => job.data.retryId

/-- The loop that schedules retries comes to its end. -/
theorem exists_after_next (env : Option String) (jobIds : ℕ → String) (db : RetryDb)
    (jobs : List ScheduledJob) (scheduling : Scheduling) {n : ℕ}
    (hn : scheduling.index + n = min maxRetries scheduling.delays.length)
    (hids : scheduling.createdIds = createdIds jobs) :
    ∃ replies, Schedules jobIds replies ∧
      after (retryStep env) ⟨db, [scheduling.next]⟩ (replies.map (.answer 0)) =
        let scheduled := (List.range' scheduling.index n).foldl
          (scheduleRetry jobIds scheduling.params scheduling.delays scheduling.startedAt) (db, jobs)
        ⟨scheduled.1, [.ended (.ok (createdIds scheduled.2))]⟩ := by
  induction n generalizing scheduling db jobs with
  | zero =>
    refine ⟨[], by simp [Schedules], ?_⟩
    rw [Scheduling.next, if_neg (by omega), hids]
    rfl
  | succ n ih =>
    let round := scheduleRetry jobIds scheduling.params scheduling.delays scheduling.startedAt
      (db, jobs) scheduling.index
    let scheduling' : Scheduling :=
      { scheduling with
        index := scheduling.index + 1
        createdIds := scheduling.createdIds ++ [db.nextId] }
    have hids' : scheduling'.createdIds = createdIds round.2 := by
      simp [scheduling', round, scheduleRetry, createdIds, hids]
    obtain ⟨replies, hreplies, hafter⟩ :=
      ih round.1 round.2 scheduling' (by simp only [scheduling']; omega) hids'
    refine ⟨.db .done :: .added (.ok (some (jobIds scheduling.index))) :: .db .done :: replies,
      ?_, ?_⟩
    · exact List.forall_mem_cons.2 ⟨.inl rfl, List.forall_mem_cons.2 ⟨.inr ⟨_, rfl⟩,
        List.forall_mem_cons.2 ⟨.inl rfl, hreplies⟩⟩⟩
    · rw [Scheduling.next, if_pos (by omega)]
      exact hafter

/-- **Schedules are runs of calls.** A call of `enqueueRetries` that runs by itself leaves what the
function says, and returns the ids of its rows. -/
theorem exists_after_enqueueRetries (env : Option String) (jobIds : ℕ → String) (db : RetryDb)
    (params : RetryParams) :
    ∃ replies, Schedules jobIds replies ∧
      after (retryStep env) (.idle db) (.enqueueRetries params :: replies.map (.answer 0)) =
        ⟨(enqueueRetries env jobIds db params).1,
          [.ended (.ok (createdIds (enqueueRetries env jobIds db params).2))]⟩ := by
  have hcheck : ∀ inputs, after (retryStep env) (.idle db)
      (.enqueueRetries params :: .answer 0 (.db .done) :: inputs) =
        after (retryStep env) ⟨db, [.afterCheck env db params]⟩ inputs := fun _ => rfl
  by_cases hpending :
      ∃ entry ∈ getRawRetries db params.subscriber params.merchant, entry.2.status = .pending
  · refine ⟨[.db .done], by simp [Schedules], ?_⟩
    rw [List.map_singleton, hcheck, Call.afterCheck, if_pos hpending, enqueueRetries,
      if_pos hpending]
    rfl
  · obtain ⟨replies, hreplies, hafter⟩ :=
      exists_after_next env jobIds db [] ⟨params, getRetryDelays env, db.now, 0, []⟩
        (Nat.zero_add _) rfl
    refine ⟨.db .done :: replies, List.forall_mem_cons.2 ⟨.inl rfl, hreplies⟩, ?_⟩
    rw [List.map_cons, hcheck, Call.afterCheck, if_neg hpending, hafter, enqueueRetries,
      if_neg hpending]
    simp only [List.range_eq_range']

/-! ### A job that runs by itself -/

/-- `finishRetryJob` is what remains of `processRetryJob`. -/
theorem fst_processRetryJob (crypto : Crypto) (input : JobInput) (db : RetryDb)
    (job : RetryJobData) :
    (processRetryJob crypto input db job).1 =
      finishRetryJob job (notifyWebhooks crypto input.notify (job.payload db.now) db.now).2
        (job.attempted db input.elapsed) := by
  cases hnotified : (notifyWebhooks crypto input.notify (job.payload db.now) db.now).2 with
  | ok => simp only [processRetryJob, finishRetryJob, hnotified]
  | error errorMsg =>
    simp only [processRetryJob, finishRetryJob, hnotified, apply_ite Prod.fst]

/-- A job that runs by itself does what `processRetryJob` says. -/
theorem after_start_elapse_finish (crypto : Crypto) (input : JobInput) (hjob : job ∈ s.delayed)
    (hdue : job.timestamp + job.delay ≤ s.db.now) :
    (after workerStep s [.start job, .elapse input.elapsed, .finish job
        (notifyWebhooks crypto input.notify (job.data.payload s.db.now) s.db.now).2]).db =
      (processRetryJob crypto input s.db job.data).1 := by
  have hactive : job ∈ s.active ++ [job] := List.mem_append_right _ (List.mem_singleton_self job)
  simp only [after_cons, after_nil, workerStep, if_pos (And.intro hjob hdue), if_pos hactive,
    fst_processRetryJob, RetryJobData.attempted]

/-! ### The rows of the jobs -/

theorem isSome_get_updateRetryRecord {retryId : ℕ} {updates : UpdateRetryInput} :
    ((updateRetryRecord db retryId updates).retries.get id).isSome =
      (db.retries.get id).isSome := by
  rw [get_updateRetryRecord]
  split_ifs
  · exact Option.isSome_map
  · rfl

theorem isSome_get_cancelAll {retries : List (ℕ × PaymentRetry)} :
    ((cancelAll db retries).retries.get id).isSome = (db.retries.get id).isSome := by
  induction retries generalizing db with
  | nil => rfl
  | cons entry rest ih => exact ih.trans isSome_get_updateRetryRecord

/-- A statement that gives no row the status `failed`. -/
theorem HasStatus.of_update {retryId : ℕ} {updates : UpdateRetryInput} {status : RetryStatus}
    (hupdates : updates.status ≠ some status)
    (h : HasStatus (updateRetryRecord db retryId updates) id status) : HasStatus db id status := by
  obtain ⟨row', hget, hstatus⟩ := h
  rw [get_updateRetryRecord] at hget
  split_ifs at hget
  · obtain ⟨row, hrow, rfl⟩ := Option.map_eq_some_iff.1 hget
    refine ⟨row, hrow, ?_⟩
    cases hnew : updates.status with
    | none => rwa [PaymentRetry.update, hnew] at hstatus
    | some status' =>
      rw [PaymentRetry.update, hnew] at hstatus
      exact absurd (hnew.trans (congrArg some hstatus)) hupdates
  · exact ⟨row', hget, hstatus⟩

theorem HasStatus.of_cancelAll {retries : List (ℕ × PaymentRetry)}
    (h : HasStatus (cancelAll db retries) id .failed) : HasStatus db id .failed := by
  induction retries generalizing db with
  | nil => exact h
  | cons entry rest ih => exact (ih h).of_update (by decide)

/-- No row fails when a job succeeds. -/
theorem HasStatus.of_afterSuccess {data : RetryJobData}
    (h : HasStatus (data.afterSuccess db) id .failed) : HasStatus db id .failed :=
  h.of_cancelAll.of_update (by decide)

theorem escalations_afterSuccess {data : RetryJobData} :
    (data.afterSuccess db).escalations = db.escalations := by
  have hcancel : ∀ (retries : List (ℕ × PaymentRetry)) (db : RetryDb),
      (cancelAll db retries).escalations = db.escalations := by
    intro retries
    induction retries with
    | nil => exact fun _ => rfl
    | cons entry rest ih => exact fun _ => ih _
  exact hcancel _ _

/-- What a failed attempt records. -/
theorem hasStatus_afterError_iff {data : RetryJobData} {errorMsg : String}
    (hrow : (db.retries.get data.retryId).isSome) :
    HasStatus (data.afterError db errorMsg) id .failed ↔
      id = data.retryId ∨ HasStatus db id .failed := by
  by_cases hid : id = data.retryId
  · obtain ⟨row, hget⟩ := Option.isSome_iff_exists.1 hrow
    rw [hid]
    exact iff_of_true (hasStatus_update hget rfl) (.inl rfl)
  · rw [or_iff_right hid]
    unfold HasStatus RetryJobData.afterError
    rw [get_updateRetryRecord, if_neg hid]

/-! ### Invariants -/

/-- The jobs of one payment, each with its own row. -/
structure JobsOf (params : RetryParams) (jobs : List ScheduledJob) : Prop where
  params : ∀ job ∈ jobs, job.data.toRetryParams = params
  ids : ∀ job ∈ jobs, ∀ other ∈ jobs, job.data.retryId = other.data.retryId → job = other

/-- The rows of the jobs are there, and a job that has not ended is not recorded as failed. -/
structure WorkerState.Sound (jobs : List ScheduledJob) (s : WorkerState) : Prop where
  rows : ∀ job ∈ jobs, (s.db.retries.get job.data.retryId).isSome
  delayed : ∀ job ∈ s.delayed, job ∈ jobs ∧ ¬ HasStatus s.db job.data.retryId .failed
  active : ∀ job ∈ s.active,
    job ∈ jobs ∧ job ∉ s.delayed ∧ ¬ HasStatus s.db job.data.retryId .failed

namespace WorkerState.Sound

/-- A job ends, and of those that have not ended the ones that stay are not recorded as failed. -/
theorem finish (h : s.Sound jobs) {result : Except String Unit}
    (hrows : ∀ id, ((finishRetryJob job.data result s.db).retries.get id).isSome =
      (s.db.retries.get id).isSome)
    (hstatus : ∀ other ∈ jobs, other ≠ job →
      HasStatus (finishRetryJob job.data result s.db) other.data.retryId .failed →
        HasStatus s.db other.data.retryId .failed) :
    (workerStep s (.finish job result)).Sound jobs := by
  rw [workerStep]
  split_ifs with hjob
  · refine ⟨fun other hother => ?_, fun other hother => ?_, fun other hother => ?_⟩
    · rw [hrows]
      exact h.rows other hother
    · have hdelayed : other ∈ s.delayed := (List.mem_filter.1 hother).1
      obtain ⟨hmem, hfailed⟩ := h.delayed other hdelayed
      have hne : other ≠ job := fun heq => (h.active job hjob).2.1 (heq ▸ hdelayed)
      exact ⟨hmem, fun hnew => hfailed (hstatus other hmem hne hnew)⟩
    · obtain ⟨hactive, hne⟩ := List.mem_filter.1 hother
      obtain ⟨hmem, hdelayed, hfailed⟩ := h.active other hactive
      refine ⟨hmem, fun hin => hdelayed (List.mem_filter.1 hin).1, fun hnew => ?_⟩
      exact hfailed (hstatus other hmem (of_decide_eq_true hne) hnew)
  · exact h

/-- A step keeps the books. -/
theorem step (h : s.Sound jobs) (hjobs : JobsOf params jobs) (event : WorkerEvent) :
    (workerStep s event).Sound jobs := by
  cases event with
  | elapse ms => exact ⟨h.rows, h.delayed, h.active⟩
  | start job =>
    rw [workerStep]
    split_ifs with hstart
    · have hold : ∀ id, HasStatus (updateRetryRecord s.db job.data.retryId
          { attemptedAt := some s.db.now }) id .failed → HasStatus s.db id .failed :=
        fun id hnew => hnew.of_update (Option.some_ne_none _).symm
      have hself : job ∉ s.delayed.filter (· ≠ job) :=
        fun hmem => of_decide_eq_true (List.mem_filter.1 hmem).2 rfl
      refine ⟨fun other hother => ?_, fun other hother => ?_, fun other hother => ?_⟩
      · rw [isSome_get_updateRetryRecord]
        exact h.rows other hother
      · obtain ⟨hmem, hfailed⟩ := h.delayed other (List.mem_filter.1 hother).1
        exact ⟨hmem, fun hnew => hfailed (hold _ hnew)⟩
      · rcases List.mem_append.1 hother with hactive | hnewest
        · obtain ⟨hmem, hdelayed, hfailed⟩ := h.active other hactive
          exact ⟨hmem, fun hin => hdelayed (List.mem_filter.1 hin).1,
            fun hnew => hfailed (hold _ hnew)⟩
        · obtain rfl := List.mem_singleton.1 hnewest
          obtain ⟨hmem, hfailed⟩ := h.delayed other hstart.1
          exact ⟨hmem, hself, fun hnew => hfailed (hold _ hnew)⟩
    · exact h
  | finish job result =>
    by_cases hjob : job ∈ s.active
    · have hmem := (h.active job hjob).1
      have hrow := h.rows job hmem
      cases result with
      | ok =>
        exact h.finish (fun id => isSome_get_cancelAll.trans isSome_get_updateRetryRecord)
          fun other _ _ hnew => hnew.of_afterSuccess
      | error errorMsg =>
        refine h.finish (fun id => ?_) fun other hother hne hnew => ?_
        · unfold finishRetryJob
          split_ifs <;> exact isSome_get_updateRetryRecord
        · have hretries : HasStatus (job.data.afterError s.db errorMsg) other.data.retryId
              .failed := by
            unfold finishRetryJob at hnew
            split_ifs at hnew <;> exact hnew
          refine ((hasStatus_afterError_iff hrow).1 hretries).resolve_left fun hid => ?_
          exact hne (hjobs.ids other hother job hmem hid)
    · rw [workerStep, if_neg hjob]
      exact h

end WorkerState.Sound

/-! ### Escalations -/

/-- A job that has not been recorded as failed. -/
theorem not_allFailed (hjob : job ∈ jobs) (h : ¬ HasStatus db job.data.retryId .failed) :
    ¬ AllFailed jobs db := fun hall => h (hall.2 job hjob)

/-- Nothing is escalated while some job has not failed. -/
theorem EscalatesOnce.of_not_allFailed (h : EscalatesOnce params jobs before db)
    (hdb : ¬ AllFailed jobs db) (hdb' : ¬ AllFailed jobs db')
    (hescalations : db'.escalations = db.escalations) : EscalatesOnce params jobs before db' :=
  ⟨fun hall => absurd hall hdb', fun _ => hescalations.trans (h.otherwise hdb)⟩

/-- A failure that leaves all retries failed is to be escalated, and no other one. -/
theorem escalatesOnce_finish_iff (hjobs : JobsOf params jobs) (hsound : s.Sound jobs)
    (h : EscalatesOnce params jobs before s.db) (hjob : job ∈ s.active) {errorMsg : String} :
    EscalatesOnce params jobs before (finishRetryJob job.data (.error errorMsg) s.db) ↔
      (maxRetries ≤ job.data.attemptNumber ↔
        ∀ other ∈ jobs, other ≠ job → HasStatus s.db other.data.retryId .failed) := by
  obtain ⟨hmem, -, hfailed⟩ := hsound.active job hjob
  have hbefore : s.db.escalations = before.escalations := h.otherwise (not_allFailed hmem hfailed)
  have hall : AllFailed jobs (job.data.afterError s.db errorMsg) ↔
      ∀ other ∈ jobs, other ≠ job → HasStatus s.db other.data.retryId .failed := by
    unfold AllFailed
    simp only [hasStatus_afterError_iff (hsound.rows job hmem)]
    constructor
    · intro hall other hother hne
      refine (hall.2 other hother).resolve_left fun hid => hne ?_
      exact hjobs.ids other hother job hmem hid
    · intro hothers
      refine ⟨List.ne_nil_of_mem hmem, fun other hother => ?_⟩
      by_cases hne : other = job
      · exact .inl (congrArg (fun job => job.data.retryId) hne)
      · exact .inr (hothers other hother hne)
  have hnew : before.escalations ≠ before.escalations ++ [params] := by simp
  rw [← hall]
  by_cases hlast : maxRetries ≤ job.data.attemptNumber
  · -- the job escalates
    have hfinish : (finishRetryJob job.data (.error errorMsg) s.db).escalations =
        before.escalations ++ [params] := by
      simp only [finishRetryJob, if_pos hlast, hjobs.params job hmem]
      exact congrArg (· ++ [params]) hbefore
    have hrows : AllFailed jobs (finishRetryJob job.data (.error errorMsg) s.db) ↔
        AllFailed jobs (job.data.afterError s.db errorMsg) := by
      simp only [finishRetryJob, if_pos hlast]
      rfl
    rw [← hrows, iff_true_left hlast]
    refine ⟨fun honce => not_not.1 fun hnot => ?_, fun hall => ⟨fun _ => hfinish, absurd hall⟩⟩
    exact hnew ((honce.otherwise hnot).symm.trans hfinish)
  · have hfinish : finishRetryJob job.data (.error errorMsg) s.db =
        job.data.afterError s.db errorMsg := by
      simp only [finishRetryJob, if_neg hlast]
    rw [hfinish, iff_false_left hlast]
    refine ⟨fun honce hall => ?_, fun hnot => ⟨fun hall => absurd hall hnot, fun _ => hbefore⟩⟩
    exact hnew (hbefore.symm.trans (honce.failed hall))

theorem escalatesOnce_step_iff (hjobs : JobsOf params jobs) (hsound : s.Sound jobs)
    (h : EscalatesOnce params jobs before s.db) (event : WorkerEvent) :
    EscalatesOnce params jobs before (workerStep s event).db ↔ FailsInOrder jobs s event := by
  cases event with
  | elapse ms => exact iff_of_true ⟨h.failed, h.otherwise⟩ trivial
  | start job =>
    refine iff_of_true ?_ trivial
    rw [workerStep]
    split_ifs with hstart
    · obtain ⟨hmem, hfailed⟩ := hsound.delayed job hstart.1
      refine h.of_not_allFailed (not_allFailed hmem hfailed) (not_allFailed hmem fun hnew => ?_) rfl
      exact hfailed (hnew.of_update (Option.some_ne_none _).symm)
    · exact h
  | finish job result =>
    by_cases hjob : job ∈ s.active
    · simp only [workerStep, if_pos hjob]
      cases result with
      | ok =>
        obtain ⟨hmem, -, hfailed⟩ := hsound.active job hjob
        refine iff_of_true (h.of_not_allFailed (not_allFailed hmem hfailed)
          (not_allFailed hmem fun hnew => hfailed hnew.of_afterSuccess)
          escalations_afterSuccess) trivial
      | error errorMsg =>
        rw [escalatesOnce_finish_iff hjobs hsound h hjob]
        exact ⟨fun horder _ => horder, fun horder => horder hjob⟩
    · simp only [workerStep, if_neg hjob]
      refine iff_of_true h ?_
      cases result with
      | ok => trivial
      | error errorMsg => exact fun hactive => absurd hactive hjob

/-! ### The jobs of one call -/

/-- The rows and jobs that have been made so far, `n` at most. -/
structure MadeFor (params : RetryParams) (before : RetryDb) (n : ℕ)
    (s : RetryDb × List ScheduledJob) : Prop where
  jobsOf : JobsOf params s.2
  below : ∀ job ∈ s.2, job.data.retryId < s.1.nextId
  pending : ∀ job ∈ s.2, HasStatus s.1 job.data.retryId .pending
  attempts : ∀ job ∈ s.2, job.data.attemptNumber ≤ n
  escalations : s.1.escalations = before.escalations

theorem MadeFor.schedule {made : RetryDb × List ScheduledJob} {n i startedAt : ℕ}
    (h : MadeFor params before n made) (hi : i < n) (delays : List ℕ) :
    MadeFor params before n (scheduleRetry jobIds params delays startedAt made i) := by
  obtain ⟨hjobsOf, hbelow, hpending, hattempts, hescalations⟩ := h
  have hnew : ∀ job ∈ made.2, job.data.retryId ≠ made.1.nextId := fun job hjob =>
    (hbelow job hjob).ne
  refine ⟨⟨?_, ?_⟩, ?_, ?_, ?_, hescalations⟩
  · exact List.forall_mem_append.2 ⟨hjobsOf.params, List.forall_mem_singleton.2 rfl⟩
  · intro job hjob other hother hid
    rcases List.mem_append.1 hjob with hjob | hjob <;>
      rcases List.mem_append.1 hother with hother | hother
    · exact hjobsOf.ids job hjob other hother hid
    · obtain rfl := List.mem_singleton.1 hother
      exact absurd hid (hnew job hjob)
    · obtain rfl := List.mem_singleton.1 hjob
      exact absurd hid.symm (hnew other hother)
    · rw [List.mem_singleton.1 hjob, List.mem_singleton.1 hother]
  · refine List.forall_mem_append.2 ⟨fun job hjob => ?_, List.forall_mem_singleton.2 ?_⟩
    · exact (hbelow job hjob).trans (Nat.lt_succ_self _)
    · exact Nat.lt_succ_self _
  · refine List.forall_mem_append.2 ⟨fun job hjob => ?_, List.forall_mem_singleton.2 ?_⟩
    · obtain ⟨row, hget, hstatus⟩ := hpending job hjob
      refine ⟨row, ?_, hstatus⟩
      simp only [scheduleRetry]
      rw [get_updateRetryRecord, if_neg (hnew job hjob), get_createRetryRecord (hnew job hjob)]
      exact hget
    · simp only [scheduleRetry, HasStatus, get_updateRetryRecord, if_true, createRetryRecord,
        InsertionMap.get_set, Option.map_some, Option.some.injEq, exists_eq_left']
      rfl
  · exact List.forall_mem_append.2 ⟨hattempts, List.forall_mem_singleton.2 hi⟩

theorem madeFor_enqueueRetries (env : Option String) (jobIds : ℕ → String) (db : RetryDb)
    (params : RetryParams) :
    MadeFor params db (min maxRetries (getRetryDelays env).length)
      (enqueueRetries env jobIds db params) := by
  have hstart : MadeFor params db (min maxRetries (getRetryDelays env).length) (db, []) := by
    refine ⟨⟨?_, ?_⟩, ?_, ?_, ?_, rfl⟩ <;> exact fun _ h => absurd h List.not_mem_nil
  unfold enqueueRetries
  split_ifs
  · exact hstart
  · exact List.foldlRecOn _ _ hstart fun _ h i hi => h.schedule (List.mem_range.1 hi) _

/-- No row has two statuses. -/
theorem HasStatus.eq {status status' : RetryStatus} (h : HasStatus db id status)
    (h' : HasStatus db id status') : status = status' := by
  obtain ⟨row, hget, hstatus⟩ := h
  obtain ⟨row', hget', hstatus'⟩ := h'
  obtain rfl := Option.some.inj (hget.symm.trans hget')
  exact hstatus.symm.trans hstatus'

theorem sound_scheduledState (env : Option String) (jobIds : ℕ → String) (db : RetryDb)
    (params : RetryParams) :
    (scheduledState env jobIds db params).Sound (enqueueRetries env jobIds db params).2 := by
  have hmade := madeFor_enqueueRetries env jobIds db params
  refine ⟨fun job hjob => ?_, fun job hjob => ⟨hjob, fun hfailed => ?_⟩,
    fun job hjob => absurd hjob List.not_mem_nil⟩
  · obtain ⟨row, hget, -⟩ := hmade.pending job hjob
    exact Option.isSome_of_eq_some hget
  · exact absurd ((hmade.pending job hjob).eq hfailed) (by decide)

/-- **Escalating once.** Whatever delays are configured and in whatever order the jobs of a call of
`enqueueRetries` start and end, there has been one escalation when all of them have failed, and none
otherwise, in all states exactly if an attempt that fails is the third one when all others have
failed before, and only then. -/
theorem escalates_once_iff (env : Option String) (jobIds : ℕ → String) (db : RetryDb)
    (params : RetryParams) (events : List WorkerEvent) :
    Throughout workerStep
        (fun s => EscalatesOnce params (enqueueRetries env jobIds db params).2 db s.db)
        (scheduledState env jobIds db params) events ↔
      Along workerStep (FailsInOrder (enqueueRetries env jobIds db params).2)
        (scheduledState env jobIds db params) events := by
  let jobs := (enqueueRetries env jobIds db params).2
  have hmade := madeFor_enqueueRetries env jobIds db params
  let Inv : WorkerState → Prop := fun s => s.Sound jobs ∧ EscalatesOnce params jobs db s.db
  have hstart : Inv (scheduledState env jobIds db params) := by
    refine ⟨sound_scheduledState env jobIds db params, fun hall => ?_, fun _ => hmade.escalations⟩
    obtain ⟨job, hjob⟩ := List.exists_mem_of_ne_nil _ hall.1
    exact absurd ((hmade.pending job hjob).eq (hall.2 job hjob)) (by decide)
  refine throughout_iff_along Inv (fun _ h => h.2) (fun s event h horder => ?_)
    (fun s event h honce => ?_) hstart
  · exact ⟨h.1.step hmade.jobsOf event,
      (escalatesOnce_step_iff hmade.jobsOf h.1 h.2 event).2 horder⟩
  · exact (escalatesOnce_step_iff hmade.jobsOf h.1 h.2 event).1 honce

/-- **Few delays.** With fewer than three delays nothing is escalated in any run, whether all
attempts fail or not. -/
theorem escalations_of_few_delays (jobIds : ℕ → String) (db : RetryDb) (params : RetryParams)
    (hfew : (getRetryDelays env).length < maxRetries) (events : List WorkerEvent) :
    (after workerStep (scheduledState env jobIds db params) events).db.escalations =
      db.escalations := by
  have hmade := madeFor_enqueueRetries env jobIds db params
  let Inv : WorkerState → Prop := fun s => s.db.escalations = db.escalations ∧
    (∀ job ∈ s.delayed, job.data.attemptNumber < maxRetries) ∧
    ∀ job ∈ s.active, job.data.attemptNumber < maxRetries
  have hstart : Inv (scheduledState env jobIds db params) := by
    refine ⟨hmade.escalations, fun job hjob => ?_, fun job hjob => absurd hjob List.not_mem_nil⟩
    exact ((hmade.attempts job hjob).trans (min_le_right _ _)).trans_lt hfew
  have hstep : ∀ s event, Inv s → Inv (workerStep s event) := by
    rintro s event ⟨hescalations, hdelayed, hactive⟩
    cases event with
    | elapse ms => exact ⟨hescalations, hdelayed, hactive⟩
    | start job =>
      rw [workerStep]
      split_ifs with hstart
      · refine ⟨hescalations, fun other hother => ?_, ?_⟩
        · exact hdelayed other (List.mem_filter.1 hother).1
        · exact List.forall_mem_append.2
            ⟨hactive, List.forall_mem_singleton.2 (hdelayed job hstart.1)⟩
      · exact ⟨hescalations, hdelayed, hactive⟩
    | finish job result =>
      rw [workerStep]
      split_ifs with hjob
      · refine ⟨?_, fun other hother => hdelayed other (List.mem_filter.1 hother).1,
          fun other hother => hactive other (List.mem_filter.1 hother).1⟩
        cases result with
        | ok => exact escalations_afterSuccess.trans hescalations
        | error errorMsg =>
          simp only [finishRetryJob, if_neg (not_le.2 (hactive job hjob))]
          exact hescalations
      · exact ⟨hescalations, hdelayed, hactive⟩
  exact (after_invariant hstep hstart events).1

/-! ### Delays that are accepted -/

/-- A payment that has failed. -/
def sampleRetryParams : RetryParams := ⟨"GSUB", "GMER", "100", "CTOKEN"⟩

def sampleJobIds (i : ℕ) : String := ["1", "2", "3"].getD i ""

/-- The job of an attempt, on a table that was empty. -/
def sampleScheduledJob (attemptNumber delay : ℕ) : ScheduledJob :=
  ⟨sampleJobIds (attemptNumber - 1), 0, delay,
    { sampleRetryParams with attemptNumber, retryId := attemptNumber }⟩

/-- An attempt fails as soon as its delay is over. -/
def sampleFailure (attemptNumber delay : ℕ) : List WorkerEvent :=
  [.elapse delay, .start (sampleScheduledJob attemptNumber delay),
    .finish (sampleScheduledJob attemptNumber delay) (.error "Merchant not found")]

theorem getRetryDelays_single : getRetryDelays (some "5") = [5] := by
  have hsplit : "5".splitOn "," = ["5"] := by
    have h1 : "5".splitOnAux "," 0 ⟨1⟩ 0 [] = ["5"] := by rw [String.splitOnAux]; rfl
    rw [String.splitOn, if_neg (by decide), String.splitOnAux]
    exact h1
  have hfilter : (some "5").filter (· ≠ "") = some "5" := by decide
  simp only [getRetryDelays, hfilter, hsplit]
  decide +kernel

theorem getRetryDelays_unordered : getRetryDelays (some "3,2,1") = [3, 2, 1] := by
  have hsplit : "3,2,1".splitOn "," = ["3", "2", "1"] := by
    have h5 : "3,2,1".splitOnAux "," ⟨4⟩ ⟨5⟩ 0 ["2", "3"] = ["3", "2", "1"] := by
      rw [String.splitOnAux]; rfl
    have h4 : "3,2,1".splitOnAux "," ⟨4⟩ ⟨4⟩ 0 ["2", "3"] = ["3", "2", "1"] := by
      rw [String.splitOnAux]; exact h5
    have h3 : "3,2,1".splitOnAux "," ⟨2⟩ ⟨3⟩ 0 ["3"] = ["3", "2", "1"] := by
      rw [String.splitOnAux]; exact h4
    have h2 : "3,2,1".splitOnAux "," ⟨2⟩ ⟨2⟩ 0 ["3"] = ["3", "2", "1"] := by
      rw [String.splitOnAux]; exact h3
    have h1 : "3,2,1".splitOnAux "," 0 ⟨1⟩ 0 [] = ["3", "2", "1"] := by
      rw [String.splitOnAux]; exact h2
    rw [String.splitOn, if_neg (by decide), String.splitOnAux]
    exact h1
  have hfilter : (some "3,2,1").filter (· ≠ "") = some "3,2,1" := by decide
  simp only [getRetryDelays, hfilter, hsplit]
  decide +kernel

/-- With one delay the only attempt fails and nothing is escalated; with delays of 3, 2 and 1 ms the
third attempt fails first and is escalated at once. -/
theorem not_escalates_once :
    ¬ Throughout workerStep
        (fun s => EscalatesOnce sampleRetryParams
          (enqueueRetries (some "5") sampleJobIds emptyRetryDb sampleRetryParams).2 emptyRetryDb
          s.db)
        (scheduledState (some "5") sampleJobIds emptyRetryDb sampleRetryParams)
        (sampleFailure 1 5) ∧
      ¬ Throughout workerStep
        (fun s => EscalatesOnce sampleRetryParams
          (enqueueRetries (some "3,2,1") sampleJobIds emptyRetryDb sampleRetryParams).2 emptyRetryDb
          s.db)
        (scheduledState (some "3,2,1") sampleJobIds emptyRetryDb sampleRetryParams)
        (sampleFailure 3 1) := by
  simp only [scheduledState, enqueueRetries, getRetryDelays_single, getRetryDelays_unordered]
  constructor
  · intro h
    have hend := h (sampleFailure 1 5) [] (List.append_nil _).symm
    refine absurd (hend.failed ⟨by decide, fun job hjob => ?_⟩) (by decide)
    obtain rfl := List.mem_singleton.1 hjob
    exact ⟨_, rfl, by decide⟩
  · intro h
    have hend := h (sampleFailure 3 1) [] (List.append_nil _).symm
    refine absurd (hend.otherwise fun hall => ?_) (by decide)
    obtain ⟨row, hget, hstatus⟩ := hall.2 (sampleScheduledJob 1 3) (by decide)
    obtain rfl := Option.some.inj hget
    exact absurd hstatus (by decide)

end SorobanPay.RetryQueue
