import SorobanPay.Backend.JobLifecycle

/-!
# Counting the replays of a dead letter

The entry of a dead letter says how many times it has been replayed. A replay counts up, but a job
whose attempts are exhausted once more gets a new entry, which counts from zero. So the count is
right exactly as long as no job that has been replayed is dead-lettered again
(`counts_replays_iff`). Calls may overlap in any way.

## Main definitions

* `QueueState.replaysOf`: the replays of a job.
* `CountsReplays`: the entry of a job has counted them.
* `ExhaustsAgain`: a job that has been replayed is dead-lettered.

## Main results

* `replayed_iff`: a replay is noted exactly if `replayDeadLetter` says that it has replayed.
* `counts_replays_iff`: when the count is right.
-/

set_option autoImplicit false

namespace SorobanPay.WebhookQueue

open Foundation

variable {P : Type} {q q' : QueueState P} {job : WebhookJob P} {event : QueueEvent P} {id : String}

/-! ### What is asked for -/

/-- The replays of a job so far. -/
def QueueState.replaysOf (q : QueueState P) (id : String) : ℕ := revivalCount (q.labelsOf id)

/-- The entry of a job, if it has one, has counted its replays. -/
def CountsReplays (id : String) (q : QueueState P) : Prop :=
  ∀ entry, q.deadLetters.get id = some entry → entry.replayCount = q.replaysOf id

/-- The deliverer reports a failure of the last attempt at a job that has been replayed. -/
def ExhaustsAgain (id : String) (p : Pool (QueueState P) (Call P)) : Input P → Prop
  | .answer i reply => ∃ job, p.calls[i]? = some (.delivering job) ∧ job.id = id ∧
      reply.Fails ∧ maxAttempts ≤ job.attempts ∧ 0 < p.shared.replaysOf id
  | .enqueue _ | .deliver _ | .replayDeadLetter _ | .elapse _ => False

/-- A replay is noted exactly if `replayDeadLetter` says that it has replayed. -/
theorem replayed_iff (q : QueueState P) (id : String) :
    (replayDeadLetter q id).1.events = q.events ++ [.replayed id] ↔
      (replayDeadLetter q id).2.replayed = true := by
  have hsame : q.events ≠ q.events ++ [.replayed id] := by simp
  unfold replayDeadLetter
  cases q.deadLetters.get id with
  | none => simp
  | some entry =>
    by_cases hlive : ∃ existing ∈ q.jobs.get id, existing.status ≠ .deadLettered
    · simp only [if_pos hlive]
      simp
    · simp only [if_neg hlive]
      exact iff_of_true rfl trivial

/-! ### What the operations count -/

/-- A write counts one replay more if it is one. -/
theorem Writes.replaysOf (hwrites : Writes q job event q') (id : String) :
    q'.replaysOf id =
      if id = job.id ∧ event.label = .revived then q.replaysOf id + 1 else q.replaysOf id := by
  rw [QueueState.replaysOf, QueueState.replaysOf, QueueState.labelsOf, hwrites.events]
  by_cases hid : id = job.id
  · rw [if_pos hid, List.map_append, revivalCount, List.count_append]
    by_cases hlabel : event.label = .revived
    · simp [hid, hlabel, revivalCount, QueueState.labelsOf]
    · simp [hid, hlabel, revivalCount, QueueState.labelsOf]
  · rw [if_neg hid, if_neg fun h => hid h.1]
    rfl

/-- A write that is no replay and leaves the dead letters alone. -/
theorem CountsReplays.of_writes (h : CountsReplays id q) (hwrites : Writes q job event q')
    (hdead : q'.deadLetters = q.deadLetters) (hlabel : event.label ≠ .revived) :
    CountsReplays id q' := by
  intro entry hget
  rw [hwrites.replaysOf, if_neg fun hrevived => hlabel hrevived.2]
  exact h entry (hdead ▸ hget)

theorem CountsReplays.enqueue (h : CountsReplays id q) (params : EnqueueParams P) :
    CountsReplays id (enqueue q params).1 := by
  rcases enqueue_cases q params with heq | ⟨-, hwrites, hdead⟩
  · rwa [heq]
  · exact h.of_writes hwrites hdead nofun

theorem CountsReplays.deliverStart (h : CountsReplays id q) (id' : String) :
    CountsReplays id (deliverStart q id').1 := by
  rcases deliverStart_cases q id' with ⟨heq, -⟩ | ⟨job, -, -, -, hwrites, hdead, -⟩
  · rwa [heq]
  · exact h.of_writes hwrites hdead nofun

/-- A replay counts up what has been counted. -/
theorem CountsReplays.replayDeadLetter (hkeyed : Keyed q) (h : CountsReplays id q) (id' : String) :
    CountsReplays id (replayDeadLetter q id').1 := by
  rcases replayDeadLetter_cases q id' with heq | ⟨entry, hget, -, hwrites, hdead⟩
  · rwa [heq]
  · have hid := hkeyed.deadLetters id' entry hget
    have hcount := (hwrites hid).replaysOf id
    intro entry' hget'
    rw [hdead, InsertionMap.get_set] at hget'
    by_cases hsame : id = entry.job.id
    · rw [if_pos hsame] at hget'
      rw [hcount, if_pos ⟨hsame, rfl⟩, ← Option.some.inj hget', DeadLetterEntry.replayed,
        h entry (hsame ▸ hid ▸ hget)]
    · rw [if_neg hsame] at hget'
      rw [hcount, if_neg fun hrevived => hsame hrevived.1]
      exact h entry' hget'

/-- An answer that leaves the job alone. -/
theorem CountsReplays.note_answered (h : CountsReplays id q) (id' : String) (success : Bool) :
    CountsReplays id (q.note (.answered id' success)) := by
  have hcount : (q.note (.answered id' success)).replaysOf id = q.replaysOf id := by
    rw [QueueState.replaysOf, QueueState.replaysOf, QueueState.labelsOf, QueueState.labelsOf,
      eventsOf_note]
    split_ifs
    · rw [List.map_append, revivalCount, revivalCount, List.count_append]
      cases success <;> rfl
    · rfl
  intro entry hget
  rw [hcount]
  exact h entry hget

/-- An answer keeps the count exactly if it does not dead-letter a job that has been replayed. -/
theorem countsReplays_deliverEnd_iff (h : CountsReplays id q) {reply : DelivererReply} :
    CountsReplays id (deliverEnd q job reply).1 ↔
      ¬ (job.id = id ∧ reply.Fails ∧ maxAttempts ≤ job.attempts ∧ 0 < q.replaysOf id) := by
  rcases deliverEnd_cases q job reply with
    ⟨error, herror, heq⟩ | ⟨result, hresult, hsuccess, hwrites, hdead⟩ |
      ⟨result, hresult, hfailure, hwrites, ⟨hlt, hdead⟩ | ⟨hle, hdead⟩⟩
  · have hnot : ¬ reply.Fails := fun ⟨_, hok, _⟩ => by cases herror.symm.trans hok
    rw [heq]
    exact iff_of_true (h.note_answered _ _) fun hbad => hnot hbad.2.1
  · have hnot : ¬ reply.Fails := fun ⟨result', hok, hfailure⟩ => by
      obtain rfl := Except.ok.inj (hresult.symm.trans hok)
      cases hsuccess.symm.trans hfailure
    exact iff_of_true (h.of_writes hwrites hdead nofun) fun hbad => hnot hbad.2.1
  · exact iff_of_true (h.of_writes hwrites hdead nofun) fun hbad => not_le.2 hlt hbad.2.2.1
  · have hcount : (deliverEnd q job reply).1.replaysOf id = q.replaysOf id := by
      rw [hwrites.replaysOf, if_neg fun hrevived => RetryLabel.noConfusion hrevived.2]
    have hfails : reply.Fails := ⟨result, hresult, hfailure⟩
    unfold CountsReplays
    rw [hcount, hdead]
    simp only [InsertionMap.get_set]
    by_cases hid : id = job.id
    · -- the new entry counts from zero
      simp only [if_pos hid, Option.some.injEq, forall_eq']
      simp only [hid.symm, hfails, hle, true_and, not_lt, Nat.le_zero]
      exact eq_comm
    · simp only [if_neg hid]
      exact iff_of_true h fun hbad => hid hbad.1.symm

/-! ### Runs -/

/-- **Replays are counted.** Whatever calls overlap, the entry of a job has counted its replays in
all states exactly if the job, once it has been replayed, is not dead-lettered again. -/
theorem counts_replays_iff (id : String) (inputs : List (Input P)) :
    Throughout queueStep (fun p => CountsReplays id p.shared) queueStart inputs ↔
      Along queueStep (fun p input => ¬ ExhaustsAgain id p input) queueStart inputs := by
  let Inv : Pool (QueueState P) (Call P) → Prop := fun p =>
    Keyed p.shared ∧ CountsReplays id p.shared
  have hstart : Inv queueStart :=
    ⟨keyed_start, fun _ hget => by simp [queueStart, Pool.idle] at hget⟩
  refine throughout_iff_along Inv (fun _ h => h.2) (fun p input h hfirst => ⟨h.1.step input, ?_⟩)
    (fun p input h hcount => ?_) hstart
  · cases input with
    | enqueue params => exact h.2.enqueue params
    | deliver id' => exact h.2.deliverStart id'
    | replayDeadLetter id' => exact h.2.replayDeadLetter h.1 id'
    | elapse ms => exact h.2
    | answer i reply =>
      rw [queueStep, Pool.shared_resume]
      rcases hcall : p.calls[i]? with _ | job | outcome
      · exact h.2
      · exact (countsReplays_deliverEnd_iff h.2).2 fun hbad => hfirst ⟨job, hcall, hbad⟩
      · exact h.2
  · cases input with
    | enqueue | deliver | replayDeadLetter | elapse => exact not_false
    | answer i reply =>
      rintro ⟨job, hcall, hbad⟩
      rw [queueStep, Pool.shared_resume, hcall] at hcount
      exact (countsReplays_deliverEnd_iff h.2).1 hcount hbad

/-- All attempts at a job fail. -/
def sampleExhaustion (first : ℕ) : List (Input Unit) :=
  (List.range maxAttempts).flatMap fun k =>
    [.deliver "job-1", .answer (first + k) ⟨.returned ⟨false, some 500, none⟩, 1000, none⟩]

/-- A job is exhausted, replayed, and exhausted again: its new entry has counted nothing. -/
theorem not_counts_replays_exhausted :
    ¬ Throughout queueStep (fun p => CountsReplays "job-1" p.shared) queueStart
      (.enqueue ⟨"job-1", "GMER", "https://merchant.example/hook", ()⟩ :: sampleExhaustion 0 ++
        .replayDeadLetter "job-1" :: sampleExhaustion 5) := by
  intro h
  obtain ⟨entry, hget, hzero⟩ : ∃ entry,
      (after queueStep queueStart (.enqueue
        ⟨"job-1", "GMER", "https://merchant.example/hook", ()⟩ :: sampleExhaustion 0 ++
          .replayDeadLetter "job-1" :: sampleExhaustion 5)).shared.deadLetters.get "job-1" =
        some entry ∧ entry.replayCount = 0 := ⟨_, rfl, rfl⟩
  have hcount := h _ [] (List.append_nil _).symm entry hget
  rw [hzero] at hcount
  exact absurd hcount (by decide)

end SorobanPay.WebhookQueue
