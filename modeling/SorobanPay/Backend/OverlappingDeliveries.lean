import SorobanPay.Backend.WebhookQueue
import SorobanPay.Foundation.Listing

/-!
# Deliveries of a job that overlap

A job that has been delivered should stay so, and its attempts should count its POSTs, also when
several calls of `deliver` are under way for it. A call writes back the job that it stored before
its POST, so that it takes an overtaking call's attempt away, and may write a failure over a
delivery. `keeps_faith_iff` says exactly which returns of a deliverer do harm: those to a call that
has been overtaken by later calls for the job (`posted_later_of_overtaken`), and failures of a job
that has been delivered by then.

## Main definitions

* `KeepsFaith`: what is delivered stays so, and attempts count POSTs.
* `Overtaken`, `ReturnsLate`: a deliverer returns to a call that has been overtaken.

## Main results

* `keepsFaith_iff_of_writes`: which writes keep what is asked for.
* `posted_later_of_overtaken`: a call is overtaken by a later one.
* `keeps_faith_iff`: when it is kept by calls that overlap.
-/

set_option autoImplicit false

namespace SorobanPay.WebhookQueue

open Foundation

variable {P : Type} {q q' : QueueState P} {job : WebhookJob P} {event : QueueEvent P} {id : String}

/-! ### What is asked for -/

/-- The job is stored as delivered. -/
def IsDelivered (q : QueueState P) (id : String) : Prop :=
  ∃ job, q.jobs.get id = some job ∧ job.status = .delivered

/-- The POSTs for a job since it was enqueued or last replayed. -/
def postsSince (events : List (QueueEvent P)) : ℕ :=
  events.foldl (fun n event => match event with
    | .enqueued _ | .replayed _ => 0
    | .posted _ _ _ _ => n + 1
    | .answered _ _ => n) 0

/-- The attempts of every job count its POSTs. -/
def CountsPosts (q : QueueState P) : Prop :=
  ∀ id job, q.jobs.get id = some job → postsSince (q.eventsOf id) ≤ job.attempts

/-- What is delivered in the earlier state is so in the later one, which counts its POSTs. -/
structure KeepsFaith (q q' : QueueState P) : Prop where
  delivered : ∀ id, IsDelivered q id → IsDelivered q' id
  counts : CountsPosts q'

/-- Later calls have posted the job, so that its POSTs go beyond the attempt of this call. -/
def Overtaken (q : QueueState P) (job : WebhookJob P) : Prop :=
  job.attempts < postsSince (q.eventsOf job.id)

/-- A deliverer returns, or throws a value with a text, to a call that later ones have overtaken, or
with a failure of a job that has been delivered by then. -/
def ReturnsLate (p : Pool (QueueState P) (Call P)) : Input P → Prop
  | .answer i reply => ∃ job result, p.calls[i]? = some (.delivering job) ∧
      reply.outcome = .ok result ∧
        (Overtaken p.shared job ∨ result.success = false ∧ IsDelivered p.shared job.id)
  | _ => False

/-! ### What the operations keep -/

@[simp] theorem postsSince_append (events : List (QueueEvent P)) :
    postsSince (events ++ [event]) = match event with
      | .enqueued _ | .replayed _ => 0
      | .posted _ _ _ _ => postsSince events + 1
      | .answered _ _ => postsSince events := by
  rw [postsSince, List.foldl_append]
  rfl

theorem KeepsFaith.refl (h : CountsPosts q) : KeepsFaith q q := ⟨fun _ hid => hid, h⟩

theorem KeepsFaith.trans {q'' : QueueState P} (h : KeepsFaith q q') (h' : KeepsFaith q' q'') :
    KeepsFaith q q'' :=
  ⟨fun id hid => h'.delivered id (h.delivered id hid), h'.counts⟩

/-- A job that is written keeps what is asked for exactly if it counts its POSTs and stays
delivered. -/
theorem keepsFaith_iff_of_writes (h : CountsPosts q) (hwrites : Writes q job event q') :
    KeepsFaith q q' ↔ postsSince (q.eventsOf job.id ++ [event]) ≤ job.attempts ∧
      (IsDelivered q job.id → job.status = .delivered) := by
  have hget := hwrites.jobs job.id
  rw [if_pos rfl] at hget
  have hevents := hwrites.events job.id
  rw [if_pos rfl] at hevents
  constructor
  · rintro ⟨hdelivered, hcounts⟩
    refine ⟨hevents ▸ hcounts job.id job hget, fun hold => ?_⟩
    obtain ⟨job', hget', hstatus⟩ := hdelivered job.id hold
    rwa [← Option.some.inj (hget.symm.trans hget')] at hstatus
  · rintro ⟨hcount, hdelivered⟩
    refine ⟨fun id hold => ?_, fun id job' hget' => ?_⟩
    · by_cases hid : id = job.id
      · exact hid ▸ ⟨job, hget, hdelivered (hid ▸ hold)⟩
      · obtain ⟨old, hgetOld, hstatus⟩ := hold
        exact ⟨old, by rw [hwrites.jobs, if_neg hid, hgetOld], hstatus⟩
    · by_cases hid : id = job.id
      · subst hid
        obtain rfl := Option.some.inj (hget.symm.trans hget')
        rwa [hevents]
      · rw [hwrites.jobs, if_neg hid] at hget'
        rw [hwrites.events, if_neg hid]
        exact h id job' hget'

/-- What a job is enqueued, posted or replayed with is right. -/
theorem keepsFaith_enqueue (hcounts : CountsPosts q) (params : EnqueueParams P) :
    KeepsFaith q (enqueue q params).1 := by
  rcases enqueue_cases q params with heq | ⟨hnone, hwrites, -⟩
  · rw [heq]
    exact .refl hcounts
  · refine (keepsFaith_iff_of_writes hcounts hwrites).2 ⟨?_, ?_⟩
    · rw [postsSince_append]
      exact Nat.zero_le _
    · rintro ⟨job, hget, -⟩
      cases hnone.symm.trans hget

theorem keepsFaith_deliverStart (h : Keyed q) (hcounts : CountsPosts q) (id : String) :
    KeepsFaith q (deliverStart q id).1 := by
  rcases deliverStart_cases q id with ⟨heq, -⟩ | ⟨job, hget, hdelivered, -, hwrites, -⟩
  · rw [heq]
    exact .refl hcounts
  · obtain rfl := h.jobs id job hget
    refine (keepsFaith_iff_of_writes hcounts hwrites).2 ⟨?_, ?_⟩
    · rw [postsSince_append]
      exact Nat.add_le_add_right (hcounts job.id job hget) 1
    · rintro ⟨job', hget', hstatus⟩
      exact absurd (Option.some.inj (hget.symm.trans hget') ▸ hstatus) hdelivered

theorem keepsFaith_replayDeadLetter (h : Keyed q) (hcounts : CountsPosts q) (id : String) :
    KeepsFaith q (replayDeadLetter q id).1 := by
  rcases replayDeadLetter_cases q id with heq | ⟨entry, hget, hdead, hwrites, -⟩
  · rw [heq]
    exact .refl hcounts
  · have hid := h.deadLetters id entry hget
    refine (keepsFaith_iff_of_writes hcounts (hwrites hid)).2 ⟨?_, ?_⟩
    · rw [postsSince_append]
      exact Nat.zero_le _
    · rintro ⟨job, hjob, hstatus⟩
      cases (hdead job (hid ▸ hjob)).symm.trans hstatus

/-- A job that is not written keeps what is asked for. -/
theorem keepsFaith_note_answered (hcounts : CountsPosts q) (id : String) (success : Bool) :
    KeepsFaith q (q.note (.answered id success)) := by
  refine ⟨fun _ h => h, fun id' job hget => ?_⟩
  rw [eventsOf_note]
  split_ifs
  · rw [postsSince_append]
    exact hcounts id' job hget
  · exact hcounts id' job hget

/-- What a returning deliverer leaves is right exactly if its call has not been overtaken. -/
theorem keepsFaith_deliverEnd_iff (hcounts : CountsPosts q) {reply : DelivererReply} :
    KeepsFaith q (deliverEnd q job reply).1 ↔
      ¬ ∃ result, reply.outcome = .ok result ∧
        (Overtaken q job ∨ result.success = false ∧ IsDelivered q job.id) := by
  unfold Overtaken
  rcases deliverEnd_cases q job reply with
    ⟨error, herror, heq⟩ | ⟨result, hresult, hsuccess, hwrites, -⟩ |
      ⟨result, hresult, hfailure, hwrites, -⟩
  · rw [heq, herror]
    exact iff_of_true (keepsFaith_note_answered hcounts _ _) (by simp)
  · rw [keepsFaith_iff_of_writes hcounts hwrites, postsSince_append, hresult]
    simp [WebhookJob.afterSuccess, hsuccess]
  · have hstatus : (job.afterFailure result q.now).status ≠ .delivered := by
      rw [afterFailure_status]
      split_ifs <;> decide
    rw [keepsFaith_iff_of_writes hcounts hwrites, postsSince_append, hresult]
    simp [hstatus, hfailure]

/-- What a step keeps, unless a deliverer returns late. -/
theorem keepsFaith_step {p : Pool (QueueState P) (Call P)} (hkeyed : Keyed p.shared)
    (hcounts : CountsPosts p.shared) {input : Input P} (hlate : ¬ ReturnsLate p input) :
    KeepsFaith p.shared (queueStep p input).shared := by
  cases input with
  | enqueue params => exact keepsFaith_enqueue hcounts params
  | deliver id => exact keepsFaith_deliverStart hkeyed hcounts id
  | replayDeadLetter id => exact keepsFaith_replayDeadLetter hkeyed hcounts id
  | elapse ms => exact ⟨fun _ hid => hid, hcounts⟩
  | answer i reply =>
    rw [queueStep, Pool.shared_resume]
    rcases hcall : p.calls[i]? with _ | job | outcome
    · exact .refl hcounts
    · refine (keepsFaith_deliverEnd_iff hcounts).2 fun hreturned => ?_
      obtain ⟨result, hover⟩ := hreturned
      exact hlate ⟨job, result, hcall, hover⟩
    · exact .refl hcounts

/-! ### Overtaken calls -/

/-- The call has posted its job, and the POSTs up to then did not go beyond its attempt. -/
def PostedBy (q : QueueState P) (call : Call P) : Prop :=
  ∀ job, call = .delivering job → ∃ before later,
    q.eventsOf job.id = before ++ .posted job.id job.url job.payload job.attempts :: later ∧
      postsSince before < job.attempts

theorem Writes.exists_append (hwrites : Writes q job event q') (id : String) :
    ∃ more, q'.eventsOf id = q.eventsOf id ++ more := by
  rw [hwrites.events]
  split_ifs
  · exact ⟨[event], rfl⟩
  · exact ⟨[], (List.append_nil _).symm⟩

/-- What the queue has done with a job is not forgotten. -/
theorem exists_append_eventsOf {p : Pool (QueueState P) (Call P)} (hkeyed : Keyed p.shared)
    (input : Input P) (id : String) :
    ∃ more, (queueStep p input).shared.eventsOf id = p.shared.eventsOf id ++ more := by
  have hsame : ∃ more, p.shared.eventsOf id = p.shared.eventsOf id ++ more :=
    ⟨[], (List.append_nil _).symm⟩
  cases input with
  | elapse ms => exact hsame
  | enqueue params =>
    change ∃ more, (enqueue p.shared params).1.eventsOf id = _
    rcases enqueue_cases p.shared params with heq | ⟨-, hwrites, -⟩
    · rwa [heq]
    · exact hwrites.exists_append id
  | deliver id' =>
    change ∃ more, (deliverStart p.shared id').1.eventsOf id = _
    rcases deliverStart_cases p.shared id' with ⟨heq, -⟩ | ⟨job, -, -, -, hwrites, -⟩
    · rwa [heq]
    · exact hwrites.exists_append id
  | replayDeadLetter id' =>
    change ∃ more, (replayDeadLetter p.shared id').1.eventsOf id = _
    rcases replayDeadLetter_cases p.shared id' with heq | ⟨entry, hget, -, hwrites, -⟩
    · rwa [heq]
    · exact (hwrites (hkeyed.deadLetters id' entry hget)).exists_append id
  | answer i reply =>
    rw [queueStep, Pool.shared_resume]
    rcases p.calls[i]? with _ | job | outcome
    · exact hsame
    · change ∃ more, (deliverEnd p.shared job reply).1.eventsOf id = _
      rcases deliverEnd_cases p.shared job reply with
        ⟨-, -, heq⟩ | ⟨-, -, -, hwrites, -⟩ | ⟨result, -, -, hwrites, -⟩
      · rw [heq, eventsOf_note]
        split_ifs
        · exact ⟨_, rfl⟩
        · exact hsame
      · exact hwrites.exists_append id
      · exact hwrites.exists_append id
    · exact hsame

theorem PostedBy.mono {call : Call P} (h : PostedBy q call)
    (hevents : ∀ id, ∃ more, q'.eventsOf id = q.eventsOf id ++ more) : PostedBy q' call := by
  intro job hjob
  obtain ⟨before, later, heq, hlt⟩ := h job hjob
  obtain ⟨more, hmore⟩ := hevents job.id
  exact ⟨before, later ++ more, by rw [hmore, heq, List.append_assoc, List.cons_append], hlt⟩

/-- The queue counts its POSTs, and every call that is delivering has posted its job. -/
def TracksPosts : Pool (QueueState P) (Call P) → Prop :=
  Pool.Holds (fun q => Keyed q ∧ CountsPosts q) PostedBy fun _ _ _ => True

theorem TracksPosts.step {p : Pool (QueueState P) (Call P)} (h : TracksPosts p) {input : Input P}
    (hlate : ¬ ReturnsLate p input) : TracksPosts (queueStep p input) := by
  obtain ⟨hkeyed, hcounts⟩ := h.shared
  have hgrows := exists_append_eventsOf hkeyed input
  have hshared : Keyed (queueStep p input).shared ∧ CountsPosts (queueStep p input).shared :=
    ⟨hkeyed.step input, (keepsFaith_step hkeyed hcounts hlate).counts⟩
  have hold : ∀ (i : ℕ) (call : Call P), p.calls[i]? = some call →
      PostedBy (queueStep p input).shared call :=
    fun i call hcall => (h.each i call hcall).mono hgrows
  refine ⟨hshared, fun i call hcall => ?_, fun _ _ _ _ _ _ _ => trivial⟩
  cases input with
  | enqueue | replayDeadLetter | elapse => exact hold i call hcall
  | deliver id =>
    rcases Pool.getElem?_start hcall with hcall | ⟨-, rfl⟩
    · exact hold i call hcall
    · rcases deliverStart_cases p.shared id with
        ⟨-, outcome, hended⟩ | ⟨job, hget, -, -, hwrites, -, hstarted⟩
      · rw [hended]
        rintro _ ⟨⟩
      · rw [hstarted]
        rintro _ ⟨⟩
        refine ⟨p.shared.eventsOf job.id, [], ?_, ?_⟩
        · exact (hwrites.events job.id).trans (if_pos rfl)
        · have hjob := hkeyed.jobs id job hget
          exact Nat.lt_succ_of_le (hcounts job.id job (hjob ▸ hget))
  | answer j reply =>
    rcases hj : p.calls[j]? with _ | job | outcome
    · rw [queueStep, Pool.resume_of_none hj] at hcall
      exact hold i call hcall
    · rw [queueStep, Pool.resume_of_some hj] at hcall
      rcases Pool.getElem?_set hcall with ⟨-, rfl⟩ | ⟨-, hcall⟩
      · obtain ⟨outcome, hended⟩ := deliverEnd_ended p.shared job reply
        rw [callTurn, hended]
        rintro _ ⟨⟩
      · exact hold i call hcall
    · rw [queueStep, Pool.resume_of_same hj rfl] at hcall
      exact hold i call hcall

theorem tracksPosts_start : TracksPosts (queueStart (P := P)) :=
  Pool.holds_idle ⟨keyed_start, fun _ _ h => by simp at h⟩

/-- As long as nothing is posted, the POSTs since the job was renewed do not get more. -/
theorem postsSince_append_le (events : List (QueueEvent P)) {later : List (QueueEvent P)}
    (h : ∀ id url payload attempt, .posted id url payload attempt ∉ later) :
    postsSince (events ++ later) ≤ postsSince events := by
  induction later using List.reverseRecOn with
  | nil => rw [List.append_nil]
  | append_singleton later event ih =>
    have ih := ih fun id url payload attempt hmem =>
      h id url payload attempt (List.mem_append_left _ hmem)
    rw [← List.append_assoc, postsSince_append]
    cases event with
    | enqueued | replayed => exact Nat.zero_le _
    | answered => exact ih
    | posted id url payload attempt => exact absurd (by simp) (h id url payload attempt)

/-- **Overtaken calls.** In a run in which no deliverer has returned late, a call is overtaken only
if its job has been posted again after the POST of the call. -/
theorem posted_later_of_overtaken {inputs : List (Input P)}
    (h : Along queueStep (fun p input => ¬ ReturnsLate p input) queueStart inputs) {i : ℕ}
    (hcall : (after queueStep queueStart inputs).calls[i]? = some (.delivering job))
    (hover : Overtaken (after queueStep queueStart inputs).shared job) :
    ∃ before later, (after queueStep queueStart inputs).shared.eventsOf job.id =
        before ++ .posted job.id job.url job.payload job.attempts :: later ∧
      ∃ id url payload attempt, .posted id url payload attempt ∈ later := by
  have htracks : TracksPosts (after queueStep queueStart inputs) :=
    h.invariant (fun _ _ h hlate => h.step hlate) tracksPosts_start
  obtain ⟨before, later, hevents, hlt⟩ := htracks.each i _ hcall job rfl
  refine ⟨before, later, hevents, ?_⟩
  by_contra hnone
  push Not at hnone
  have hle := postsSince_append_le
    (before ++ [.posted job.id job.url job.payload job.attempts]) hnone
  rw [List.append_assoc, List.singleton_append, ← hevents, postsSince_append] at hle
  rw [Overtaken] at hover
  dsimp only at hle
  omega

/-! ### Runs -/

/-- **Overlapping deliveries.** Whatever calls overlap, what is delivered stays so and the attempts
of all jobs count their POSTs in all states, exactly if no deliverer returns to a call that has
been overtaken. -/
theorem keeps_faith_iff (inputs : List (Input P)) :
    Onwards queueStep (fun p p' => KeepsFaith p.shared p'.shared) queueStart inputs ↔
      Along queueStep (fun p input => ¬ ReturnsLate p input) queueStart inputs := by
  refine onwards_iff_along (fun p => Keyed p.shared ∧ CountsPosts p.shared)
    (fun _ _ _ h h' => h.trans h') (fun _ h => .refl h.2) (fun p input h hlate => ?_)
    (fun p input h hstay _ hlate => ?_) ?_
  · have hkeep := keepsFaith_step h.1 h.2 hlate
    exact ⟨⟨h.1.step input, hkeep.counts⟩, hkeep⟩
  · cases input with
    | enqueue | deliver | replayDeadLetter | elapse => exact hlate
    | answer i reply =>
      obtain ⟨job, result, hcall, hover⟩ := hlate
      rw [queueStep, Pool.shared_resume, hcall] at hstay
      exact (keepsFaith_deliverEnd_iff h.2).1 hstay ⟨result, hover⟩
  · exact ⟨keyed_start, fun _ _ h => by simp [queueStart, Pool.idle] at h⟩

/-- A job is enqueued and delivered twice at once, and the first call succeeds. -/
def sampleTwice : List (Input Unit) :=
  [.enqueue ⟨"job-1", "GMER", "https://merchant.example/hook", ()⟩, .deliver "job-1",
    .deliver "job-1", .answer 0 ⟨.returned ⟨true, some 200, none⟩, 0, none⟩]

/-- The failure of the other call is written over the delivery. -/
theorem not_keeps_faith_overtaken :
    ¬ Onwards queueStep (fun p p' => KeepsFaith p.shared p'.shared) queueStart
      (sampleTwice ++ [.answer 1 ⟨.returned ⟨false, some 500, none⟩, 2000, none⟩]) := by
  intro h
  obtain ⟨job, hget, hstatus⟩ :=
    (h sampleTwice [.answer 1 ⟨.returned ⟨false, some 500, none⟩, 2000, none⟩] [] rfl).delivered
      "job-1" ⟨_, rfl, rfl⟩
  have hfailed : job.status = .failed := by
    rw [← Option.some.inj hget]
    decide
  cases hfailed.symm.trans hstatus

end SorobanPay.WebhookQueue
