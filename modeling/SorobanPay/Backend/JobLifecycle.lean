import SorobanPay.Backend.WebhookQueue
import SorobanPay.Foundation.BoundedRetry
import SorobanPay.Foundation.Listing

/-!
# The life of a webhook job

The queue is meant to give a job the life of a task with at most `maxAttempts` attempts
(`Foundation.RetryStep`): it is attempted until an attempt succeeds or the last one fails, becomes
a dead letter then, and starts again when it is replayed. As long as the calls for a job do not
overlap, and the deliverer does not throw a value without a text at the last attempt, the two stores
refine this life: the state of the task is read off the stored job and what the queue has done last
with it, and what the queue does with the job are the labels of a path. What is asked for of the
attempts, the statuses and the dead letters follows.

## Main definitions

* `WebhookJob.life`, `QueueEvent.label`: the life of a job.
* `NonOverlapping`: a job is not delivered while it is being delivered.
* `ThrowsUnread`: the deliverer throws a value without a text at the last attempt.
* `JobLifecycle`, `Preserves`: what is asked for of a state, and of two states of a run.

## Main results

* `refines_retryStep`: the queue refines the life of a task.
* `job_lifecycle_iff`: when what is asked for holds in all states of a run.
-/

set_option autoImplicit false

namespace SorobanPay.WebhookQueue

open Foundation

variable {P : Type} {q q' : QueueState P} {job : WebhookJob P} {event : QueueEvent P} {id : String}
  {p : Pool (QueueState P) (Call P)}
  {params : EnqueueParams P}

/-! ### The life of a job -/

/-- The queue has been told how an attempt has ended. -/
def QueueEvent.isAnswer : QueueEvent P → Bool
  | .answered _ _ => true
  | .enqueued _ | .posted _ _ _ _ | .replayed _ => false

/-- The state of a task that a stored job stands for, after what the queue has done with it. A job
that is stored as being delivered is waiting again if the last attempt has ended. -/
def WebhookJob.life (job : WebhookJob P) (events : List (QueueEvent P)) : RetryState :=
  match job.status with
  | .pending | .failed => .waiting job.attempts
  | .delivering =>
    if events.getLast?.any (·.isAnswer) then .waiting job.attempts else .inFlight job.attempts
  | .delivered => .done
  | .deadLettered => .dead

/-- The state of a task that the queue gives a job. -/
def QueueState.life (q : QueueState P) (id : String) : RetryState :=
  (q.jobs.get id).elim .absent fun job => job.life (q.eventsOf id)

/-- What the queue does with a job, as a step of a task. -/
def QueueEvent.label : QueueEvent P → RetryLabel
  | .enqueued _ => .created
  | .posted _ _ _ _ => .attempted
  | .answered _ success => if success then .succeeded else .failed
  | .replayed _ => .revived

/-- The steps of a job so far. -/
def QueueState.labelsOf (q : QueueState P) (id : String) : List RetryLabel :=
  (q.eventsOf id).map QueueEvent.label

/-! ### What is asked for -/

/-- The call is delivering the job. -/
def Call.Delivers (id : String) : Call P → Prop
  | .delivering job => job.id = id
  | .ended _ => False

instance : DecidablePred (Call.Delivers (P := P) id)
  | .delivering job => inferInstanceAs (Decidable (job.id = id))
  | .ended _ => instDecidableFalse

/-- The job is not delivered while a call is delivering it. -/
def NonOverlapping (id : String) (p : Pool (QueueState P) (Call P)) : Input P → Prop
  | .deliver id' => id' = id → ∀ call ∈ p.calls, ¬ call.Delivers id
  | .enqueue _ | .replayDeadLetter _ | .answer _ _ | .elapse _ => True

instance : (input : Input P) → Decidable (NonOverlapping id p input)
  | .deliver _ => inferInstanceAs (Decidable (_ → ∀ call ∈ p.calls, _))
  | .enqueue _ | .replayDeadLetter _ | .answer _ _ | .elapse _ => instDecidableTrue

/-- The deliverer throws a value that no text can be made of, at the last attempt at the job. -/
def ThrowsUnread (id : String) (p : Pool (QueueState P) (Call P)) : Input P → Prop
  | .answer i reply => ∃ job error, p.calls[i]? = some (.delivering job) ∧ job.id = id ∧
      reply.outcome = .error error ∧ maxAttempts ≤ job.attempts
  | .enqueue _ | .deliver _ | .replayDeadLetter _ | .elapse _ => False

/-- The job is what the parameters ask for. -/
structure Carries (params : EnqueueParams P) (job : WebhookJob P) : Prop where
  id : job.id = params.id
  merchantAddress : job.merchantAddress = params.merchantAddress
  url : job.url = params.url
  payload : job.payload = params.payload

/-- The first that the queue has done with a job is to store it with these parameters. -/
def EnqueuedWith (q : QueueState P) (id : String) (params : EnqueueParams P) : Prop :=
  params.id = id ∧ (q.eventsOf id).head? = some (.enqueued params)

/-- What is asked for of a job in a state: its attempts and its POSTs are bounded, it is a dead
letter exactly if its last attempts have all failed, and it and its dead letter are as enqueued. -/
structure JobLifecycle (id : String) (q : QueueState P) : Prop where
  attempts_le : ∀ job, q.jobs.get id = some job → job.attempts ≤ maxAttempts
  posts_le : attemptCount (q.labelsOf id) ≤ maxAttempts * (1 + revivalCount (q.labelsOf id))
  deadLettered_iff : ∀ job, q.jobs.get id = some job →
    (job.status = .deadLettered ↔ failuresInARow (q.labelsOf id) = maxAttempts)
  as_enqueued : ∀ job, q.jobs.get id = some job →
    ∃ params, EnqueuedWith q id params ∧ Carries params job
  deadLetter : ∀ job, q.jobs.get id = some job → job.status = .deadLettered →
    ∃ entry params, q.deadLetters.get id = some entry ∧ EnqueuedWith q id params ∧
      Carries params entry.job

/-- What a state asks of all later ones: a job keeps what it carries, and stays delivered. -/
def Preserves (id : String) (q q' : QueueState P) : Prop :=
  ∀ job, q.jobs.get id = some job → ∃ job', q'.jobs.get id = some job' ∧
    job'.merchantAddress = job.merchantAddress ∧ job'.url = job.url ∧ job'.payload = job.payload ∧
    (job.status = .delivered → job'.status = .delivered)

/-! ### Refinement -/

/-- The step of the task that a write has to be. -/
theorem path_of_writes (h : Path (RetryStep maxAttempts) .absent (q.labelsOf id) (q.life id))
    (hwrites : Writes q job event q')
    (hstep : job.id = id → RetryStep maxAttempts (q.life id) event.label
      (job.life (q.eventsOf id ++ [event]))) :
    Path (RetryStep maxAttempts) .absent (q'.labelsOf id) (q'.life id) := by
  by_cases hid : id = job.id
  · rw [QueueState.labelsOf, QueueState.life, hwrites.events, hwrites.jobs, if_pos hid, if_pos hid,
      List.map_append]
    exact h.append (.single (hstep hid.symm))
  · rw [QueueState.labelsOf, QueueState.life, hwrites.events, hwrites.jobs, if_neg hid, if_neg hid]
    exact h

/-- What a job and its dead letter carry. -/
structure Origin (id : String) (q : QueueState P) : Prop where
  absent : q.jobs.get id = none → q.eventsOf id = [] ∧ q.deadLetters.get id = none
  job : ∀ job, q.jobs.get id = some job → ∃ params, EnqueuedWith q id params ∧ Carries params job
  entry : ∀ entry, q.deadLetters.get id = some entry →
    ∃ params, EnqueuedWith q id params ∧ Carries params entry.job
  dead : ∀ job, q.jobs.get id = some job → job.status = .deadLettered →
    q.deadLetters.get id ≠ none

/-- What was enqueued first stays so. -/
theorem EnqueuedWith.of_writes {params : EnqueueParams P} (h : EnqueuedWith q id params)
    (hwrites : Writes q job event q') : EnqueuedWith q' id params := by
  refine ⟨h.1, ?_⟩
  rw [hwrites.events]
  split_ifs
  · rw [List.head?_append, h.2, Option.some_or]
  · exact h.2

theorem Origin.of_writes (h : Origin id q) (hwrites : Writes q job event q')
    (hjob : job.id = id → ∃ params, EnqueuedWith q' id params ∧ Carries params job)
    (hentry : ∀ entry, q'.deadLetters.get id = some entry →
      q.deadLetters.get id = some entry ∨ ∃ params, EnqueuedWith q' id params ∧
        Carries params entry.job)
    (hkeep : q.deadLetters.get id ≠ none → q'.deadLetters.get id ≠ none)
    (hdead : job.id = id → job.status = .deadLettered → q'.deadLetters.get id ≠ none)
    (hnone : job.id ≠ id → q'.deadLetters.get id = q.deadLetters.get id) : Origin id q' := by
  refine ⟨fun hget => ?_, fun job' hget => ?_, fun entry hget => ?_, fun job' hget hstatus => ?_⟩
  · rw [hwrites.jobs] at hget
    split_ifs at hget with hid
    rw [hwrites.events, if_neg hid, hnone fun heq => hid heq.symm]
    exact h.absent hget
  · rw [hwrites.jobs] at hget
    split_ifs at hget with hid
    · rw [← Option.some.inj hget]
      exact hjob hid.symm
    · obtain ⟨params, hparams, hcarries⟩ := h.job job' hget
      exact ⟨params, hparams.of_writes hwrites, hcarries⟩
  · rcases hentry entry hget with hold | hnew
    · obtain ⟨params, hparams, hcarries⟩ := h.entry entry hold
      exact ⟨params, hparams.of_writes hwrites, hcarries⟩
    · exact hnew
  · rw [hwrites.jobs] at hget
    split_ifs at hget with hid
    · obtain rfl := Option.some.inj hget
      exact hdead hid.symm hstatus
    · exact hkeep (h.dead job' hget hstatus)

/-- The invariant of a job. -/
structure JobInv (id : String) (q : QueueState P) : Prop where
  keyed : Keyed q
  path : Path (RetryStep maxAttempts) .absent (q.labelsOf id) (q.life id)
  attempts : ∀ job, q.jobs.get id = some job → job.attempts ≤ maxAttempts
  origin : Origin id q

theorem Preserves.refl (id : String) (q : QueueState P) : Preserves id q q :=
  fun job hget => ⟨job, hget, rfl, rfl, rfl, fun hstatus => hstatus⟩

theorem Preserves.trans {q'' : QueueState P} (h : Preserves id q q') (h' : Preserves id q' q'') :
    Preserves id q q'' := by
  intro job hget
  obtain ⟨job', hget', hmerchant, hurl, hpayload, hstatus⟩ := h job hget
  obtain ⟨job'', hget'', hmerchant', hurl', hpayload', hstatus'⟩ := h' job' hget'
  exact ⟨job'', hget'', hmerchant'.trans hmerchant, hurl'.trans hurl, hpayload'.trans hpayload,
    fun h => hstatus' (hstatus h)⟩

theorem JobInv.lifecycle (h : JobInv id q) : JobLifecycle id q := by
  have hmax : 0 < maxAttempts := by decide
  refine ⟨h.attempts, attemptCount_le hmax h.path, fun job hget => ?_, h.origin.job,
    fun job hget hstatus => ?_⟩
  · rw [← dead_iff_failuresInARow hmax h.path, QueueState.life, hget, Option.elim_some,
      WebhookJob.life]
    cases job.status <;> simp
    split_ifs <;> simp
  · obtain ⟨entry, hentry⟩ := Option.ne_none_iff_exists'.1 (h.origin.dead job hget hstatus)
    obtain ⟨params, hparams, hcarries⟩ := h.origin.entry entry hentry
    exact ⟨entry, params, hentry, hparams, hcarries⟩

/-- A job that waits has attempts left. -/
theorem JobInv.attempts_lt (h : JobInv id q) {n : ℕ} (hlife : q.life id = .waiting n) :
    n < maxAttempts := by
  have hfailed := failed_of_path (by decide) h.path
  rw [hlife] at hfailed
  exact hfailed.2

/-- What a write of the job has to satisfy to keep the invariant. What it writes is preserved, since
a job that is done does not take another step. -/
theorem JobInv.of_writes (h : JobInv id q) (hkeyed : Keyed q') (hwrites : Writes q job event q')
    (hown : job.id = id → RetryStep maxAttempts (q.life id) event.label
      (job.life (q.eventsOf id ++ [event])) ∧ job.attempts ≤ maxAttempts ∧
        ∃ params, EnqueuedWith q' id params ∧ Carries params job)
    (hentry : ∀ entry, q'.deadLetters.get id = some entry →
      q.deadLetters.get id = some entry ∨ ∃ params, EnqueuedWith q' id params ∧
        Carries params entry.job)
    (hkeep : q.deadLetters.get id ≠ none → q'.deadLetters.get id ≠ none)
    (hdead : job.id = id → job.status = .deadLettered → q'.deadLetters.get id ≠ none)
    (hnone : job.id ≠ id → q'.deadLetters.get id = q.deadLetters.get id) :
    JobInv id q' ∧ Preserves id q q' := by
  refine ⟨⟨hkeyed, path_of_writes h.path hwrites fun hid => (hown hid).1, fun job' hget => ?_,
    h.origin.of_writes hwrites (fun hid => (hown hid).2.2) hentry hkeep hdead hnone⟩,
    fun old hget => ?_⟩
  · rw [hwrites.jobs] at hget
    split_ifs at hget with hid
    · rw [← Option.some.inj hget]
      exact (hown hid.symm).2.1
    · exact h.attempts job' hget
  · rw [hwrites.jobs]
    split_ifs with hid
    · obtain ⟨hstep, -, params, hparams, hcarries⟩ := hown hid.symm
      obtain ⟨params', hparams', hcarries'⟩ := h.origin.job old hget
      obtain rfl : params' = params := by
        have hhead := (hparams'.of_writes hwrites).2.symm.trans hparams.2
        exact QueueEvent.enqueued.inj (Option.some.inj hhead)
      refine ⟨job, rfl, hcarries.merchantAddress.trans hcarries'.merchantAddress.symm,
        hcarries.url.trans hcarries'.url.symm, hcarries.payload.trans hcarries'.payload.symm,
        fun hdelivered => ?_⟩
      rw [QueueState.life, hget, Option.elim_some, WebhookJob.life, hdelivered] at hstep
      exact hstep.done_final.elim
    · exact ⟨old, hget, rfl, rfl, rfl, fun hstatus => hstatus⟩

/-- A write that leaves the dead letters alone, and no dead job behind. -/
theorem JobInv.of_writes_same (h : JobInv id q) (hkeyed : Keyed q')
    (hwrites : Writes q job event q') (hdeadLetters : q'.deadLetters = q.deadLetters)
    (hstatus : job.status ≠ .deadLettered)
    (hown : job.id = id → RetryStep maxAttempts (q.life id) event.label
      (job.life (q.eventsOf id ++ [event])) ∧ job.attempts ≤ maxAttempts ∧
        ∃ params, EnqueuedWith q' id params ∧ Carries params job) :
    JobInv id q' ∧ Preserves id q q' := by
  refine h.of_writes hkeyed hwrites hown (fun entry hget => .inl ?_) ?_
    (fun _ hdead => absurd hdead hstatus) fun _ => by rw [hdeadLetters]
  · rwa [hdeadLetters] at hget
  · rw [hdeadLetters]
    exact fun hentry => hentry

theorem JobInv.enqueue (h : JobInv id q) (params : EnqueueParams P) :
    JobInv id (enqueue q params).1 ∧ Preserves id q (enqueue q params).1 := by
  rcases enqueue_cases q params with heq | ⟨hnone, hwrites, hdead⟩
  · rw [heq]
    exact ⟨h, .refl id q⟩
  · refine h.of_writes_same (h.keyed.enqueue params) hwrites hdead nofun ?_
    rintro rfl
    refine ⟨?_, Nat.zero_le _, params, ⟨rfl, ?_⟩, ⟨rfl, rfl, rfl, rfl⟩⟩
    · rw [QueueState.life, EnqueueParams.job, hnone]
      exact .create
    · rw [hwrites.events, if_pos rfl, (h.origin.absent hnone).1]
      rfl

/-- A job that is neither delivered nor dead waits, unless it is being delivered. -/
theorem life_waiting (hget : q.jobs.get id = some job) (hdelivered : job.status ≠ .delivered)
    (hdead : job.status ≠ .deadLettered) (hidle : ∀ n, q.life id ≠ .inFlight n) :
    q.life id = .waiting job.attempts := by
  have hidle := hidle job.attempts
  rw [QueueState.life, hget, Option.elim_some, WebhookJob.life] at hidle ⊢
  cases hstatus : job.status with
  | pending | failed => rfl
  | delivered => exact absurd hstatus hdelivered
  | deadLettered => exact absurd hstatus hdead
  | delivering =>
    rw [hstatus] at hidle
    dsimp only at hidle ⊢
    split_ifs at hidle ⊢
    · rfl
    · exact absurd rfl hidle

/-- A job is posted that is not being delivered. -/
theorem JobInv.deliverStart (h : JobInv id q) (id' : String)
    (hidle : id' = id → ∀ n, q.life id ≠ .inFlight n) :
    JobInv id (deliverStart q id').1 ∧ Preserves id q (deliverStart q id').1 := by
  rcases deliverStart_cases q id' with
    ⟨heq, -⟩ | ⟨job, hget, hdelivered, hdeadLettered, hwrites, hdead, -⟩
  · rw [heq]
    exact ⟨h, .refl id q⟩
  · refine h.of_writes_same (h.keyed.deliverStart id') hwrites hdead
      (fun heq => by cases heq) fun hid => ?_
    obtain rfl : id' = id := (h.keyed.jobs id' job hget).symm.trans hid
    have hlife := life_waiting hget hdelivered hdeadLettered (hidle rfl)
    obtain ⟨params, hparams, hcarries⟩ := h.origin.job job hget
    refine ⟨?_, h.attempts_lt hlife, params, hparams.of_writes hwrites,
      ⟨hcarries.id, hcarries.merchantAddress, hcarries.url, hcarries.payload⟩⟩
    have hbegun : (job.begun q.now).life
        (q.eventsOf id' ++ [.posted job.id job.url job.payload (job.attempts + 1)]) =
          .inFlight (job.attempts + 1) := by
      simp [WebhookJob.life, WebhookJob.begun, QueueEvent.isAnswer]
    rw [hlife, hbegun]
    exact .attempt job.attempts

theorem Carries.afterFailure (h : Carries params job) (result : DeliveryResult) (now : ℕ) :
    Carries params (job.afterFailure result now) := by
  unfold WebhookJob.afterFailure
  split_ifs <;> exact ⟨h.id, h.merchantAddress, h.url, h.payload⟩

theorem eventsOf_note_answered_self (delivered : Bool) :
    (q.note (.answered job.id delivered)).eventsOf job.id =
      q.eventsOf job.id ++ [.answered job.id delivered] :=
  eventsOf_note.trans (if_pos rfl)

theorem eventsOf_note_answered_ne (hid : job.id ≠ id) (delivered : Bool) :
    (q.note (.answered job.id delivered)).eventsOf id = q.eventsOf id :=
  eventsOf_note.trans (if_neg hid)

/-- A job that is being delivered waits when the attempt has failed, although it is not written. -/
theorem life_note_answered (hget : q.jobs.get job.id = some job)
    (hlife : q.life job.id = .inFlight job.attempts) :
    (q.note (.answered job.id false)).life job.id = .waiting job.attempts := by
  have hstatus : job.status = .delivering := by
    rw [QueueState.life, hget, Option.elim_some, WebhookJob.life] at hlife
    revert hlife
    cases job.status <;> simp
  rw [QueueState.life, jobs_note, hget, Option.elim_some, eventsOf_note_answered_self,
    WebhookJob.life, hstatus]
  simp [QueueEvent.isAnswer]

/-- What the queue is told about a job that it does not write. -/
theorem JobInv.note_answered (h : JobInv id q)
    (hstored : job.id = id → q.jobs.get id = some job ∧ q.life id = .inFlight job.attempts)
    (hlt : job.id = id → job.attempts < maxAttempts) :
    JobInv id (q.note (.answered job.id false)) ∧
      Preserves id q (q.note (.answered job.id false)) := by
  have hkeyed : Keyed (q.note (.answered job.id false)) := ⟨h.keyed.jobs, h.keyed.deadLetters⟩
  have hparams : ∀ params, EnqueuedWith q id params →
      EnqueuedWith (q.note (.answered job.id false)) id params := by
    refine fun params hparams => ⟨hparams.1, ?_⟩
    rw [eventsOf_note]
    split_ifs
    · rw [List.head?_append, hparams.2, Option.some_or]
    · exact hparams.2
  refine ⟨⟨hkeyed, ?_, h.attempts, fun hget => ?_, fun job' hget => ?_, fun entry hget => ?_,
    h.origin.dead⟩, .refl id q⟩
  · by_cases hid : job.id = id
    · obtain ⟨hget, hlife⟩ := hstored hid
      have hattempt := hlt hid
      subst hid
      rw [life_note_answered hget hlife, QueueState.labelsOf, eventsOf_note_answered_self,
        List.map_append]
      exact h.path.append (.single (hlife ▸ .fail job.attempts hattempt))
    · rw [QueueState.labelsOf, QueueState.life, jobs_note, eventsOf_note_answered_ne hid]
      exact h.path
  · have hid : job.id ≠ id := fun hid => by
      cases (hstored hid).1.symm.trans hget
    rw [eventsOf_note_answered_ne hid]
    exact h.origin.absent hget
  · obtain ⟨params, hold, hcarries⟩ := h.origin.job job' hget
    exact ⟨params, hparams params hold, hcarries⟩
  · obtain ⟨params, hold, hcarries⟩ := h.origin.entry entry hget
    exact ⟨params, hparams params hold, hcarries⟩

/-- What has become of a job is written that is being delivered. -/
theorem JobInv.deliverEnd (h : JobInv id q) (reply : DelivererReply)
    (hstored : job.id = id → q.jobs.get id = some job ∧ q.life id = .inFlight job.attempts)
    (hread : ∀ error, job.id = id → reply.outcome = .error error → job.attempts < maxAttempts) :
    JobInv id (deliverEnd q job reply).1 ∧ Preserves id q (deliverEnd q job reply).1 := by
  have hkeyed := h.keyed.deliverEnd job reply
  rcases deliverEnd_cases q job reply with
    ⟨error, herror, heq⟩ | ⟨result, -, -, hwrites, hdead⟩ |
      ⟨result, -, -, hwrites, ⟨hlt, hdead⟩ | ⟨hle, hdead⟩⟩
  · rw [heq]
    exact h.note_answered hstored fun hid => hread error hid herror
  · have hdelivered : (job.afterSuccess q.now).status = .delivered := rfl
    refine h.of_writes_same hkeyed hwrites hdead (by rw [hdelivered]; decide) fun hid => ?_
    obtain ⟨params, hparams, hcarries⟩ := h.origin.job job (hstored hid).1
    refine ⟨?_, h.attempts job (hstored hid).1, params, hparams.of_writes hwrites,
      ⟨hcarries.id, hcarries.merchantAddress, hcarries.url, hcarries.payload⟩⟩
    rw [(hstored hid).2]
    exact .succeed job.attempts
  · have hstatus := afterFailure_status job result q.now
    rw [if_neg (not_le.2 hlt)] at hstatus
    refine h.of_writes_same hkeyed hwrites hdead (by rw [hstatus]; decide) fun hid => ?_
    rw [afterFailure_id] at hid
    obtain ⟨params, hparams, hcarries⟩ := h.origin.job job (hstored hid).1
    refine ⟨?_, ?_, params, hparams.of_writes hwrites, hcarries.afterFailure _ _⟩
    · rw [(hstored hid).2, WebhookJob.life, hstatus, afterFailure_attempts]
      exact .fail job.attempts hlt
    · rw [afterFailure_attempts]
      exact hlt.le
  · have hstatus := afterFailure_status job result q.now
    rw [if_pos hle] at hstatus
    have hcarried : job.id = id → ∃ params, EnqueuedWith (WebhookQueue.deliverEnd q job reply).1
        id params ∧ Carries params (job.afterFailure result q.now) := by
      intro hid
      obtain ⟨params, hparams, hcarries⟩ := h.origin.job job (hstored hid).1
      exact ⟨params, hparams.of_writes hwrites, hcarries.afterFailure _ _⟩
    refine h.of_writes hkeyed hwrites (fun hid => ?_) (fun entry hget => ?_) (fun hold => ?_)
      (fun hid _ => ?_) fun hid => ?_
    · rw [afterFailure_id] at hid
      refine ⟨?_, ?_, hcarried hid⟩
      · rw [(hstored hid).2, WebhookJob.life, hstatus]
        exact .exhaust job.attempts hle
      · rw [afterFailure_attempts]
        exact h.attempts job (hstored hid).1
    · rw [hdead, InsertionMap.get_set] at hget
      split_ifs at hget with hid
      · rw [← Option.some.inj hget]
        exact .inr (hcarried hid.symm)
      · exact .inl hget
    · rw [hdead, InsertionMap.get_set]
      split_ifs
      · exact Option.some_ne_none _
      · exact hold
    · rw [afterFailure_id] at hid
      rw [hdead, InsertionMap.get_set, if_pos hid.symm]
      exact Option.some_ne_none _
    · rw [afterFailure_id] at hid
      rw [hdead, InsertionMap.get_set, if_neg fun heq => hid heq.symm]

/-- A dead letter is replayed. -/
theorem JobInv.replayDeadLetter (h : JobInv id q) (id' : String) :
    JobInv id (replayDeadLetter q id').1 ∧ Preserves id q (replayDeadLetter q id').1 := by
  rcases replayDeadLetter_cases q id' with heq | ⟨entry, hget, hstatus, hwrites, hentry⟩
  · rw [heq]
    exact ⟨h, .refl id q⟩
  · have hid' := h.keyed.deadLetters id' entry hget
    have hwrites := hwrites hid'
    have hpending : (entry.job.renewed q.now).status = .pending := rfl
    refine h.of_writes (h.keyed.replayDeadLetter id') hwrites (fun hid => ?_)
      (fun entry' hget' => ?_) (fun hold => ?_)
      (fun _ hdead => absurd (hpending.symm.trans hdead) (by decide)) fun hid => ?_
    · obtain rfl : id' = id := hid'.symm.trans hid
      obtain ⟨params, hparams, hcarries⟩ := h.origin.entry entry hget
      refine ⟨?_, Nat.zero_le _, params, hparams.of_writes hwrites,
        ⟨hcarries.id, hcarries.merchantAddress, hcarries.url, hcarries.payload⟩⟩
      have hlife : q.life id' = .dead := by
        cases hjob : q.jobs.get id' with
        | none => cases hget.symm.trans (h.origin.absent hjob).2
        | some job =>
          rw [QueueState.life, hjob, Option.elim_some, WebhookJob.life, hstatus job hjob]
      rw [hlife]
      exact .revive
    · rw [hentry, InsertionMap.get_set] at hget'
      split_ifs at hget' with hid
      · obtain rfl : id' = id := hid'.symm.trans hid.symm
        obtain ⟨params, hparams, hcarries⟩ := h.origin.entry entry hget
        rw [← Option.some.inj hget']
        exact .inr ⟨params, hparams.of_writes hwrites, hcarries⟩
      · exact .inl hget'
    · rw [hentry, InsertionMap.get_set]
      split_ifs
      · exact Option.some_ne_none _
      · exact hold
    · rw [hentry, InsertionMap.get_set, if_neg fun heq => hid heq.symm]

/-! ### Runs -/

/-- The job is stored, and it is being delivered. -/
def InHand (id : String) (q : QueueState P) (job : WebhookJob P) : Prop :=
  q.jobs.get id = some job ∧ q.life id = .inFlight job.attempts

/-- A call that is delivering the job is delivering what is stored. -/
def UpToDate (id : String) (q : QueueState P) (call : Call P) : Prop :=
  ∀ job, call = .delivering job → job.id = id → InHand id q job

theorem upToDate_of_not_delivers {call : Call P} (h : ¬ call.Delivers id) : UpToDate id q call := by
  rintro job rfl hid
  exact absurd hid h

/-- The invariant of a job and of the calls: it is being delivered exactly by one call. -/
structure LifeInv (id : String) (p : Pool (QueueState P) (Call P)) : Prop where
  holds : p.Holds (JobInv id) (UpToDate id) fun _ call call' =>
    ¬ (call.Delivers id ∧ call'.Delivers id)
  busy : ∀ job, InHand id p.shared job →
    ∃ (i : ℕ) (call : Call P), p.calls[i]? = some call ∧ call.Delivers id

/-- A change that neither begins nor ends a delivery of the job. -/
theorem LifeInv.act (h : LifeInv id p) {f : QueueState P → QueueState P}
    (hinv : JobInv id (f p.shared))
    (hsame : ∀ job : WebhookJob P, InHand id (f p.shared) job ↔ InHand id p.shared job) :
    LifeInv id (p.act f) :=
  ⟨h.holds.act hinv (fun _ _ hcall job hjob hid => (hsame job).2 (hcall job hjob hid))
    fun _ _ hapart => hapart, fun job hjob => h.busy job ((hsame job).1 hjob)⟩

/-- What is being delivered is stored. -/
theorem exists_inHand {n : ℕ} (h : q.life id = .inFlight n) : ∃ job, InHand id q job := by
  rcases hget : q.jobs.get id with _ | job
  · rw [QueueState.life, hget] at h
    cases h
  · refine ⟨job, hget, ?_⟩
    rw [QueueState.life, hget, Option.elim_some, WebhookJob.life] at h ⊢
    cases hstatus : job.status with
    | pending | delivered | failed | deadLettered => rw [hstatus] at h; cases h
    | delivering =>
      rw [hstatus] at h
      dsimp only at h ⊢
      split_ifs at h ⊢
      rfl

/-- Nothing is in hand that waits. -/
theorem not_inHand (h : ∀ n, q.life id ≠ .inFlight n) (job : WebhookJob P) : ¬ InHand id q job :=
  fun hjob => h _ hjob.2

/-- A write that neither begins nor ends a delivery of the job. -/
theorem Writes.inHand_iff (hwrites : Writes q job event q')
    (hnew : job.id = id → ∀ n, q'.life id ≠ .inFlight n)
    (hold : job.id = id → ∀ n, q.life id ≠ .inFlight n)
    (job' : WebhookJob P) : InHand id q' job' ↔ InHand id q job' := by
  by_cases hid : job.id = id
  · exact iff_of_false (not_inHand (hnew hid) job') (not_inHand (hold hid) job')
  · rw [InHand, InHand, QueueState.life, QueueState.life, hwrites.jobs, hwrites.events,
      if_neg (Ne.symm hid), if_neg (Ne.symm hid)]

/-- A job whose status is another one is not being delivered. -/
theorem life_ne_inFlight (hget : q.jobs.get id = some job) (hstatus : job.status ≠ .delivering)
    (n : ℕ) : q.life id ≠ .inFlight n := by
  rw [QueueState.life, hget, Option.elim_some, WebhookJob.life]
  cases hjob : job.status with
  | delivering => exact absurd hjob hstatus
  | pending | delivered | failed | deadLettered => exact fun h => by cases h

theorem Writes.life_ne_inFlight (hwrites : Writes q job event q')
    (hstatus : job.status ≠ .delivering) (hid : job.id = id) (n : ℕ) :
    q'.life id ≠ .inFlight n := by
  have hget : q'.jobs.get id = some job := by rw [hwrites.jobs, if_pos hid.symm]
  exact WebhookQueue.life_ne_inFlight hget hstatus n

/-- A call that does not deliver the job is made. -/
theorem LifeInv.start (h : LifeInv id p) {call : Call P} (hcall : ¬ call.Delivers id) :
    LifeInv id (p.start call) := by
  refine ⟨h.holds.start (upToDate_of_not_delivers hcall) fun _ _ _ =>
    ⟨fun hboth => hcall hboth.1, fun hboth => hcall hboth.2⟩, fun job hjob => ?_⟩
  obtain ⟨i, other, hother, hdelivers⟩ := h.busy job hjob
  exact ⟨i, other, by
    rw [Pool.start, List.getElem?_append_left (List.getElem?_eq_some_iff.1 hother).1, hother],
    hdelivers⟩

theorem LifeInv.enqueue (h : LifeInv id p) (params : EnqueueParams P) :
    LifeInv id (queueStep p (.enqueue params)) := by
  refine h.act (f := fun q => (WebhookQueue.enqueue q params).1)
    (h.holds.shared.enqueue params).1 ?_
  rcases enqueue_cases p.shared params with heq | ⟨hnone, hwrites, -⟩
  · rw [heq]
    exact fun _ => Iff.rfl
  · refine hwrites.inHand_iff (hwrites.life_ne_inFlight (fun heq => by cases heq)) ?_
    rintro rfl n hlife
    obtain ⟨old, hget, -⟩ := exists_inHand hlife
    cases hnone.symm.trans hget

theorem LifeInv.replayDeadLetter (h : LifeInv id p) (id' : String) :
    LifeInv id (queueStep p (.replayDeadLetter id')) := by
  refine h.act (f := fun q => (WebhookQueue.replayDeadLetter q id').1)
    (h.holds.shared.replayDeadLetter id').1 ?_
  rcases replayDeadLetter_cases p.shared id' with heq | ⟨entry, hget, hdead, hwrites, -⟩
  · rw [heq]
    exact fun _ => Iff.rfl
  · have hid' := h.holds.shared.keyed.deadLetters id' entry hget
    refine (hwrites hid').inHand_iff ((hwrites hid').life_ne_inFlight fun heq => by cases heq)
      fun hid n hlife => ?_
    obtain rfl : id' = id := hid'.symm.trans hid
    obtain ⟨old, hold, -⟩ := exists_inHand hlife
    exact life_ne_inFlight hold (by rw [hdead old hold]; decide) n hlife

/-- No delivery of the job is under way if no call delivers it. -/
theorem LifeInv.not_inFlight (h : LifeInv id p) (hidle : ∀ call ∈ p.calls, ¬ call.Delivers id)
    (n : ℕ) : p.shared.life id ≠ .inFlight n := by
  intro hlife
  obtain ⟨job, hjob⟩ := exists_inHand hlife
  obtain ⟨i, call, hcall, hdelivers⟩ := h.busy job hjob
  exact hidle call (List.mem_of_getElem? hcall) hdelivers

theorem LifeInv.deliver (h : LifeInv id p) {id' : String}
    (halone : NonOverlapping id p (.deliver id')) : LifeInv id (queueStep p (.deliver id')) := by
  have hinv := (h.holds.shared.deliverStart id' fun hid => h.not_inFlight (halone hid)).1
  rcases deliverStart_cases p.shared id' with
    ⟨heq, outcome, hended⟩ | ⟨job, hget, -, -, hwrites, -, hcall⟩
  · rw [queueStep, hended]
    refine LifeInv.start (h.act hinv ?_) not_false
    rw [heq]
    exact fun _ => Iff.rfl
  · have hid' := h.holds.shared.keyed.jobs id' job hget
    rw [queueStep, hcall]
    by_cases hid : id' = id
    · -- the call that is made is the only one that delivers the job
      subst hid
      have hidle := halone rfl
      have hstored : InHand id' (WebhookQueue.deliverStart p.shared id').1
          (job.begun p.shared.now) := by
        have hget' : (WebhookQueue.deliverStart p.shared id').1.jobs.get id' =
            some (job.begun p.shared.now) := by
          rw [hwrites.jobs, if_pos]
          exact hid'.symm
        refine ⟨hget', ?_⟩
        rw [QueueState.life, hget', Option.elim_some, hwrites.events, if_pos (by exact hid'.symm)]
        simp [WebhookJob.life, WebhookJob.begun, QueueEvent.isAnswer]
      refine ⟨Pool.Holds.start (h.holds.act hinv (fun call hcall _ =>
        upToDate_of_not_delivers (hidle call hcall)) fun _ _ hapart => hapart) ?_ ?_, ?_⟩
      · rintro _ ⟨⟩ -
        exact hstored
      · intro i call hcall
        have hnot := hidle call (List.mem_of_getElem? hcall)
        exact ⟨fun hboth => hnot hboth.2, fun hboth => hnot hboth.1⟩
      · refine fun _ _ => ⟨p.calls.length, .delivering (job.begun p.shared.now), ?_, hid'⟩
        simp [Pool.start, Pool.act]
    · refine LifeInv.start (h.act hinv ?_) fun hdelivers => hid (hid'.symm.trans hdelivers)
      refine hwrites.inHand_iff ?_ ?_
      · exact fun heq => absurd (hid'.symm.trans heq) hid
      · exact fun heq => absurd (hid'.symm.trans heq) hid

/-- What the deliverer does at an attempt that is not the last one. -/
theorem lt_of_not_throwsUnread {i : ℕ} {reply : DelivererReply}
    (hread : ¬ ThrowsUnread id p (.answer i reply)) (hcall : p.calls[i]? = some (.delivering job))
    (error : String) (hid : job.id = id) (herror : reply.outcome = .error error) :
    job.attempts < maxAttempts := by
  by_contra hle
  exact hread ⟨job, error, hcall, hid, herror, not_lt.1 hle⟩

/-- An attempt ends. Other jobs are not touched, and this one is not being delivered any more. -/
theorem deliverEnd_inHand (id : String) (q : QueueState P) (job : WebhookJob P)
    (reply : DelivererReply) :
    (job.id = id → ∀ job', InHand id q job → ¬ InHand id (deliverEnd q job reply).1 job') ∧
      (job.id ≠ id → ∀ job', InHand id (deliverEnd q job reply).1 job' ↔ InHand id q job') := by
  rcases houtcome : reply.outcome with error | result
  · have heq : (deliverEnd q job reply).1 = q.note (.answered job.id false) := by
      rw [deliverEnd, houtcome]
    rw [heq]
    constructor
    · rintro hid job' ⟨hget, -⟩ ⟨hget', hlife⟩
      obtain rfl := Option.some.inj (hget.symm.trans hget')
      rw [QueueState.life, jobs_note, hget, Option.elim_some, eventsOf_note,
        if_pos (by exact hid)] at hlife
      rw [WebhookJob.life] at hlife
      revert hlife
      cases job.status <;> simp [QueueEvent.isAnswer]
    · intro hid job'
      rw [InHand, InHand, QueueState.life, QueueState.life, jobs_note, eventsOf_note,
        if_neg (by exact hid)]
  · obtain ⟨stored, event, hid, hstatus, hwrites⟩ := deliverEnd_writes q job houtcome
    constructor
    · intro hown job' _
      exact not_inHand (hwrites.life_ne_inFlight hstatus (hid.trans hown)) job'
    · intro hne
      exact hwrites.inHand_iff (fun heq => absurd (hid.symm.trans heq) hne)
        fun heq => absurd (hid.symm.trans heq) hne

theorem LifeInv.answer (h : LifeInv id p) (i : ℕ) (reply : DelivererReply)
    (hread : ¬ ThrowsUnread id p (.answer i reply)) :
    LifeInv id (queueStep p (.answer i reply)) := by
  rw [queueStep]
  rcases hcall : p.calls[i]? with _ | job | outcome
  · rw [Pool.resume_of_none hcall]
    exact h
  · -- the call tells what has become of the job, and does not deliver it any more
    have hstored := h.holds.each i _ hcall job rfl
    obtain ⟨hinv, -⟩ := h.holds.shared.deliverEnd reply hstored (lt_of_not_throwsUnread hread hcall)
    obtain ⟨outcome, hended⟩ := deliverEnd_ended p.shared job reply
    obtain ⟨hown, hother⟩ := deliverEnd_inHand id p.shared job reply
    refine ⟨h.holds.resume (fun call hcall' => ?_) (fun call hcall' j other hj hget => ?_)
      fun _ _ _ _ hapart => hapart, fun job' hjob' => ?_⟩
    · obtain rfl := Option.some.inj (hcall.symm.trans hcall')
      refine ⟨hinv, upToDate_of_not_delivers ?_⟩
      rw [callTurn, hended]
      exact not_false
    · obtain rfl := Option.some.inj (hcall.symm.trans hcall')
      rw [callTurn, hended]
      refine ⟨fun job' hjob' hid' => ?_, fun hboth => hboth.1, fun hboth => hboth.2⟩
      refine (hother (fun heq => ?_) job').2 (h.holds.each j other hget job' hjob' hid')
      exact h.holds.apart i j _ other hj.symm hcall hget ⟨heq, hjob' ▸ hid'⟩
    · rw [Pool.resume_of_some hcall] at hjob' ⊢
      by_cases hid : job.id = id
      · exact absurd hjob' (hown hid job' (hstored hid))
      · obtain ⟨j, other, hj, hdelivers⟩ := h.busy job' ((hother hid job').1 hjob')
        have hne : i ≠ j := by
          rintro rfl
          obtain rfl := Option.some.inj (hcall.symm.trans hj)
          exact hid hdelivers
        exact ⟨j, other, by rw [List.getElem?_set_ne hne, hj], hdelivers⟩
  · rw [Pool.resume_of_same hcall rfl]
    exact h

theorem LifeInv.step (h : LifeInv id p) {input : Input P} (halone : NonOverlapping id p input)
    (hread : ¬ ThrowsUnread id p input) : LifeInv id (queueStep p input) := by
  cases input with
  | enqueue params => exact h.enqueue params
  | deliver id' => exact h.deliver halone
  | replayDeadLetter id' => exact h.replayDeadLetter id'
  | answer i reply => exact h.answer i reply hread
  | elapse ms =>
    exact h.act (f := fun q => { q with now := q.now + ms })
      ⟨⟨h.holds.shared.keyed.jobs, h.holds.shared.keyed.deadLetters⟩, h.holds.shared.path,
        h.holds.shared.attempts, ⟨h.holds.shared.origin.absent, h.holds.shared.origin.job,
          h.holds.shared.origin.entry, h.holds.shared.origin.dead⟩⟩ fun _ => Iff.rfl

/-- What a step preserves. -/
theorem LifeInv.preserves (h : LifeInv id p) {input : Input P}
    (halone : NonOverlapping id p input) (hread : ¬ ThrowsUnread id p input) :
    Preserves id p.shared (queueStep p input).shared := by
  cases input with
  | enqueue params => exact (h.holds.shared.enqueue params).2
  | deliver id' =>
    exact (h.holds.shared.deliverStart id' fun hid => h.not_inFlight (halone hid)).2
  | replayDeadLetter id' => exact (h.holds.shared.replayDeadLetter id').2
  | elapse ms => exact .refl id p.shared
  | answer i reply =>
    rw [queueStep, Pool.shared_resume]
    rcases hcall : p.calls[i]? with _ | job | outcome
    · exact .refl id p.shared
    · exact (h.holds.shared.deliverEnd reply (h.holds.each i _ hcall job rfl)
        (lt_of_not_throwsUnread hread hcall)).2
    · exact .refl id p.shared

/-- After a value without a text at the last attempt, all attempts have failed, and the job is not
a dead letter. -/
theorem LifeInv.not_lifecycle (h : LifeInv id p) {input : Input P}
    (hthrows : ThrowsUnread id p input) : ¬ JobLifecycle id (queueStep p input).shared := by
  cases input with
  | enqueue | deliver | replayDeadLetter | elapse => exact hthrows.elim
  | answer i reply =>
    obtain ⟨job, error, hcall, hid, herror, hle⟩ := hthrows
    obtain ⟨hget, hlife⟩ := h.holds.each i _ hcall job rfl hid
    have hafter : (queueStep p (.answer i reply)).shared =
        p.shared.note (.answered job.id false) := by
      rw [queueStep, Pool.shared_resume, hcall, Option.elim_some, callTurn, deliverEnd, herror]
    have hlabels : (p.shared.note (.answered job.id false)).labelsOf id =
        p.shared.labelsOf id ++ [.failed] := by
      rw [QueueState.labelsOf, eventsOf_note, if_pos (by exact hid), List.map_append]
      rfl
    have hfailed := failed_of_path (by decide) h.holds.shared.path
    rw [hlife] at hfailed
    have hrow : failuresInARow (p.shared.labelsOf id ++ [.failed]) = maxAttempts := by
      rw [failuresInARow, List.foldl_append]
      exact hfailed.1.trans (le_antisymm hfailed.2 hle)
    rw [hafter]
    intro hlifecycle
    have hdead := (hlifecycle.deadLettered_iff job hget).2 (hlabels ▸ hrow)
    rw [QueueState.life, hget, Option.elim_some, WebhookJob.life, hdead] at hlife
    cases hlife

theorem lifeInv_start (id : String) : LifeInv id (queueStart (P := P)) := by
  have hnone : ∀ job, (queueStart (P := P)).shared.jobs.get id ≠ some job := fun _ => nofun
  refine ⟨Pool.holds_idle ⟨keyed_start, .nil _, fun job hget => absurd hget (hnone job),
    ⟨fun _ => ⟨rfl, rfl⟩, fun job hget => absurd hget (hnone job), nofun,
      fun job hget => absurd hget (hnone job)⟩⟩, fun job hjob => absurd hjob.1 (hnone job)⟩

/-- **Refinement.** In a run in which the deliveries of a job do not overlap and none throws a
value without a text at its last attempt, what the queue does with it is the life of a task with at
most `maxAttempts` attempts. -/
theorem refines_retryStep {inputs : List (Input P)}
    (hinputs : Along queueStep (fun p input => NonOverlapping id p input ∧
      ¬ ThrowsUnread id p input) queueStart inputs) :
    Path (RetryStep maxAttempts) .absent ((after queueStep queueStart inputs).shared.labelsOf id)
      ((after queueStep queueStart inputs).shared.life id) := by
  have hinv : LifeInv id (after queueStep queueStart inputs) :=
    hinputs.invariant (fun _ _ h hinput => h.step hinput.1 hinput.2) (lifeInv_start id)
  exact hinv.holds.shared.path

/-- **The life of a job.** In a run in which the deliveries of a job do not overlap, its attempts
and POSTs are bounded, it is a dead letter exactly if its last attempts have all failed, and it and
its dead letter are as enqueued, in all states, and it keeps what it carries, and delivered is
final, exactly if no deliverer throws a value without a text at the last attempt. -/
theorem job_lifecycle_iff {inputs : List (Input P)}
    (halone : Along queueStep (NonOverlapping id) queueStart inputs) :
    Throughout queueStep (fun p => JobLifecycle id p.shared) queueStart inputs ∧
        Onwards queueStep (fun p p' => Preserves id p.shared p'.shared) queueStart inputs ↔
      Along queueStep (fun p input => ¬ ThrowsUnread id p input) queueStart inputs := by
  have hthroughout : Throughout queueStep (fun p => JobLifecycle id p.shared) queueStart inputs ↔
      Along queueStep (fun p input => ¬ ThrowsUnread id p input) queueStart inputs :=
    throughout_iff_along_of_admitted (LifeInv id) (NonOverlapping id)
      (fun _ h => h.holds.shared.lifecycle) (fun _ _ h hinput hread => h.step hinput hread)
      (fun _ _ h _ hlifecycle hthrows => h.not_lifecycle hthrows hlifecycle) (lifeInv_start id)
      halone
  refine ⟨fun h => hthroughout.1 h.1, fun hread => ⟨hthroughout.2 hread, ?_⟩⟩
  exact onwards_of_along (LifeInv id) (fun _ _ _ h h' => h.trans h') (fun _ _ => .refl id _)
    (fun _ _ h hinput => ⟨h.step hinput.1 hinput.2, h.preserves hinput.1 hinput.2⟩)
    (lifeInv_start id) (along_and.2 ⟨halone, hread⟩)

/-- A job that is delivered at the second attempt. -/
def sampleDelivery : List (Input Unit) :=
  [.enqueue ⟨"job-1", "GMER", "https://merchant.example/hook", ()⟩, .deliver "job-1",
    .answer 0 ⟨.threw (.ok "socket hang up"), 1000, none⟩, .elapse 1000, .deliver "job-1",
    .answer 1 ⟨.returned ⟨true, some 200, none⟩, 0, none⟩]

theorem job_lifecycle_sample :
    Throughout queueStep (fun p => JobLifecycle "job-1" p.shared) queueStart sampleDelivery ∧
        Onwards queueStep (fun p p' => Preserves "job-1" p.shared p'.shared) queueStart
          sampleDelivery ↔
      Along queueStep (fun p input => ¬ ThrowsUnread "job-1" p input) queueStart
        sampleDelivery :=
  job_lifecycle_iff (by decide)

/-- Six deliveries of a job, one after the other, whose deliverer throws a value without a text. -/
def sampleUnreadThrows : List (Input Unit) :=
  .enqueue ⟨"job-1", "GMER", "https://merchant.example/hook", ()⟩ ::
    (List.range 6).flatMap fun k =>
      [.deliver "job-1",
        .answer k ⟨.threw (.error "Cannot convert object to primitive value"), 0, none⟩]

/-- The job stays as it is stored before the deliverer is called, and six attempts are made. -/
theorem not_job_lifecycle_unread :
    Along queueStep (NonOverlapping "job-1") queueStart sampleUnreadThrows ∧
      ¬ (Throughout queueStep (fun p => JobLifecycle "job-1" p.shared) queueStart
          sampleUnreadThrows ∧
        Onwards queueStep (fun p p' => Preserves "job-1" p.shared p'.shared) queueStart
          sampleUnreadThrows) := by
  refine ⟨by decide, fun h => ?_⟩
  obtain ⟨job, hget, hattempts⟩ : ∃ job,
      (after queueStep queueStart sampleUnreadThrows).shared.jobs.get "job-1" = some job ∧
        job.attempts = 6 := ⟨_, rfl, rfl⟩
  have hle := (h.1 _ [] (List.append_nil _).symm).attempts_le job hget
  rw [hattempts] at hle
  exact absurd hle (by decide)

end SorobanPay.WebhookQueue
