import SorobanPay.Backend.RetryQueue
import SorobanPay.Foundation.Listing

/-!
# The statuses of retries

A retry that has succeeded, failed or been cancelled should stay so. Statuses are written by the id
of the row, whatever it says by then: by the job of the retry, by `cancelRetries`, and by the job of
another retry of the pair that has succeeded; each goes by what it has read before.
`terminal_statuses` says that the status of a retry is terminal as long as its job runs alone: it
starts when the retry is pending and in the hands of no call, no call reads the retry as pending
while the job runs, and no statement of the job fails after its success has been written.

## Main definitions

* `Settles`: a status other than pending is kept.
* `Call.Runs`, `Call.Cancels`: a retry is in the hands of its job, or of a call that cancels it.
* `Undisturbed`: the job of the retry runs alone.

## Main results

* `turnSettles_callTurn`: what an undisturbed turn keeps.
* `terminal_statuses`: when statuses are terminal.
-/

set_option autoImplicit false

namespace SorobanPay.RetryQueue

open Foundation

variable {db db' : RetryDb} {env : Option String} {call : Call} {reply : Reply} {id : ℕ}
  {row : PaymentRetry} {p : Pool RetryDb Call}

/-- If the retry is not pending in the earlier state, it has the same status in the later one. -/
def Settles (id : ℕ) (db db' : RetryDb) : Prop :=
  ∀ row, db.retries.get id = some row → row.status ≠ .pending →
    ∃ row', db'.retries.get id = some row' ∧ row'.status = row.status

theorem Settles.refl (db : RetryDb) : Settles id db db := fun row hget _ => ⟨row, hget, rfl⟩

theorem Settles.trans {db'' : RetryDb} (h : Settles id db db') (h' : Settles id db' db'') :
    Settles id db db'' := by
  intro row hget hpending
  obtain ⟨row', hget', hstatus⟩ := h row hget hpending
  obtain ⟨row'', hget'', hstatus'⟩ := h' row' hget' (hstatus ▸ hpending)
  exact ⟨row'', hget'', hstatus'.trans hstatus⟩

/-! ### Overlaps -/

/-- The call is the job of the retry, and has yet to write how it has ended. -/
def Call.Runs (id : ℕ) : Call → Prop
  | .mark job | .notify job | .succeed job | .fail job _ => job.retryId = id
  | .check _ | .insert _ | .addJob _ _ | .backfill _ _ _ | .readPending _ _ | .remove _ _ _
  | .cancel _ _ _ | .readRemaining _ | .escalate _ | .ended _ => False

instance : DecidablePred (Call.Runs id)
  | .mark _ | .notify _ | .succeed _ | .fail _ _ => inferInstanceAs (Decidable (_ = _))
  | .check _ | .insert _ | .addJob _ _ | .backfill _ _ _ | .readPending _ _ | .remove _ _ _
  | .cancel _ _ _ | .readRemaining _ | .escalate _ | .ended _ => instDecidableFalse

/-- The call is going to cancel the retry. -/
def Call.Cancels (id : ℕ) : Call → Prop
  | .remove _ retryId rest | .cancel _ retryId rest => id = retryId ∨ id ∈ rest.map Prod.fst
  | .check _ | .insert _ | .addJob _ _ | .backfill _ _ _ | .readPending _ _ | .mark _ | .notify _
  | .succeed _ | .readRemaining _ | .fail _ _ | .escalate _ | .ended _ => False

instance : DecidablePred (Call.Cancels id)
  | .remove _ _ _ | .cancel _ _ _ => inferInstanceAs (Decidable (_ ∨ _))
  | .check _ | .insert _ | .addJob _ _ | .backfill _ _ _ | .readPending _ _ | .mark _ | .notify _
  | .succeed _ | .readRemaining _ | .fail _ _ | .escalate _ | .ended _ => instDecidableFalse

/-- The retries that a call reads as pending, to cancel them. -/
def Call.reads (db : RetryDb) : Call → List (ℕ × PaymentRetry)
  | .readPending subscriber merchant =>
    (getRawRetries db subscriber merchant).filter fun entry => entry.2.status = .pending
  | .readRemaining job =>
    (getRawRetries db job.subscriber job.merchant).filter fun entry =>
      entry.2.status = .pending ∧ entry.1 ≠ job.retryId
  | .check _ | .insert _ | .addJob _ _ | .backfill _ _ _ | .remove _ _ _ | .cancel _ _ _ | .mark _
  | .notify _ | .succeed _ | .fail _ _ | .escalate _ | .ended _ => []

/-- A statement of the job of the retry is answered with an error after the success of the retry
has been written. -/
def Call.ErrsLate (id : ℕ) (reply : DbReply) : Call → Prop
  | .succeed job => job.retryId = id ∧ reply.outcome = .unacknowledged
  | .readRemaining job | .cancel (some job) _ _ =>
    job.retryId = id ∧ reply.outcome ≠ .acknowledged
  | .check _ | .insert _ | .addJob _ _ | .backfill _ _ _ | .readPending _ _ | .remove _ _ _
  | .cancel none _ _ | .mark _ | .notify _ | .fail _ _ | .escalate _ | .ended _ => False

instance {reply : DbReply} : DecidablePred (Call.ErrsLate id reply)
  | .succeed _ | .readRemaining _ | .cancel (some _) _ _ => inferInstanceAs (Decidable (_ ∧ _))
  | .check _ | .insert _ | .addJob _ _ | .backfill _ _ _ | .readPending _ _ | .remove _ _ _
  | .cancel none _ _ | .mark _ | .notify _ | .fail _ _ | .escalate _ | .ended _ =>
    instDecidableFalse

/-- The job of the retry runs alone: it starts when the retry is pending and in no hands, nobody
reads the retry as pending while the job runs, and no statement of the job errs late. -/
def Undisturbed (id : ℕ) (p : Pool RetryDb Call) : Input → Prop
  | .processRetryJob job => job.retryId = id →
      (∀ row ∈ p.shared.retries.get id, row.status = .pending) ∧
        ∀ call ∈ p.calls, ¬ call.Runs id ∧ ¬ call.Cancels id
  | .answer i (.db reply) => ∀ call ∈ p.calls[i]?, ¬ call.ErrsLate id reply ∧
      (reply.outcome = .acknowledged → id ∈ (call.reads p.shared).map Prod.fst →
        ∀ other ∈ p.calls, ¬ other.Runs id)
  | .answer _ (.added _) | .answer _ .removed | .answer _ (.notified _) | .enqueueRetries _
  | .cancelRetries _ _ | .elapse _ => True

instance : (input : Input) → Decidable (Undisturbed id p input)
  | .processRetryJob _ => inferInstanceAs (Decidable (_ → _ ∧ _))
  | .answer i (.db reply) => inferInstanceAs (Decidable (∀ call ∈ p.calls[i]?,
      ¬ call.ErrsLate id reply ∧
        (reply.outcome = .acknowledged → id ∈ (call.reads p.shared).map Prod.fst →
          ∀ other ∈ p.calls, ¬ other.Runs id)))
  | .answer _ (.added _) | .answer _ .removed | .answer _ (.notified _) | .enqueueRetries _
  | .cancelRetries _ _ | .elapse _ => instDecidableTrue

/-! ### What a turn does to a row -/

/-- The row that a statement of a call changes, and how. -/
def Call.update (db : RetryDb) : Call → Option (ℕ × UpdateRetryInput)
  | .backfill _ retryId jobId => some (retryId, { jobId := some jobId })
  | .cancel _ retryId _ => some (retryId, { status := some .cancelled })
  | .mark job => some (job.retryId, { attemptedAt := some db.now })
  | .succeed job => some (job.retryId, { status := some .succeeded })
  | .fail job errorMsg =>
    some (job.retryId, { status := some .failed, error := some errorMsg })
  | .check _ | .insert _ | .addJob _ _ | .readPending _ _ | .remove _ _ _ | .notify _
  | .readRemaining _ | .escalate _ | .ended _ => none

/-- The call writes the status to the row of the retry. -/
def Call.Writes (db : RetryDb) (id : ℕ) (status : RetryStatus) (call : Call) : Prop :=
  ∃ updates, call.update db = some (id, updates) ∧ updates.status = some status

/-- What is written is the outcome of the job, or that the retry is cancelled. -/
theorem Call.Writes.cases {status : RetryStatus} (h : call.Writes db id status) :
    call.Runs id ∨ call.Cancels id ∧ status = .cancelled := by
  obtain ⟨updates, hupdate, hstatus⟩ := h
  cases call with
  | succeed job | fail job errorMsg =>
    obtain ⟨rfl, rfl⟩ := Prod.mk.inj (Option.some.inj hupdate)
    exact .inl rfl
  | cancel job retryId rest =>
    obtain ⟨rfl, rfl⟩ := Prod.mk.inj (Option.some.inj hupdate)
    exact .inr ⟨.inl rfl, (Option.some.inj hstatus).symm⟩
  | backfill | mark =>
    obtain ⟨rfl, rfl⟩ := Prod.mk.inj (Option.some.inj hupdate)
    cases hstatus
  | check | insert | addJob | readPending | remove | notify | readRemaining | escalate | ended =>
    cases hupdate

/-- A statement that changes a row. -/
theorem retries_callTurn_of_update {updates : UpdateRetryInput} {r : DbReply} {k : ℕ}
    (h : call.update db = some (k, updates)) :
    (callTurn env db call (.db r)).1.retries =
      (execute r db (updateRetryRecord db k updates)).retries := by
  cases call with
  | fail job errorMsg =>
    obtain ⟨rfl, rfl⟩ := Prod.mk.inj (Option.some.inj h)
    simp only [callTurn]
    split_ifs <;> rfl
  | backfill | cancel | mark | succeed =>
    obtain ⟨rfl, rfl⟩ := Prod.mk.inj (Option.some.inj h)
    rfl
  | check | insert | addJob | readPending | remove | notify | readRemaining | escalate | ended =>
    cases h

variable (env) in
/-- A turn without such a statement leaves the rows as they are, or stores a pending one. -/
theorem retries_callTurn_of_no_update (h : call.update db = none ∨ ∀ r, reply ≠ .db r) :
    (callTurn env db call reply).1.retries = db.retries ∨
      ∃ s : Scheduling, (callTurn env db call reply).1.retries =
        (createRetryRecord db s.params (s.index + 1)
          (s.startedAt + s.delays.getD s.index 0)).retries := by
  cases reply with
  | db r =>
    have hupdate := h.resolve_right fun hne => hne r rfl
    cases call with
    | insert s =>
      simp only [callTurn, execute]
      split_ifs
      · exact .inl rfl
      · exact .inr ⟨s, rfl⟩
    | backfill | cancel | mark | succeed | fail => cases hupdate
    | check | addJob | readPending | remove | notify | readRemaining | escalate | ended =>
      exact .inl rfl
  | added | removed | notified => cases call <;> exact .inl rfl

variable (env call reply) in
/-- What becomes of a row: its status stays as it is, unless a statement of the call writes it and
takes effect. -/
theorem get_callTurn (hfresh : FreshIds db) (hget : db.retries.get id = some row) :
    ∃ row', (callTurn env db call reply).1.retries.get id = some row' ∧
      (row'.status = row.status ∨
        call.Writes db id row'.status ∧ ∃ r, reply = .db r ∧ r.outcome ≠ .failed) := by
  by_cases hno : call.update db = none ∨ ∀ r, reply ≠ .db r
  · rcases retries_callTurn_of_no_update env hno with hsame | ⟨s, hcreated⟩
    · exact ⟨row, by rw [hsame, hget], .inl rfl⟩
    · exact ⟨row, by rw [hcreated, get_createRetryRecord (hfresh id row hget).ne, hget], .inl rfl⟩
  · simp only [not_or, not_forall, not_not] at hno
    obtain ⟨hupdate, r, rfl⟩ := hno
    obtain ⟨⟨k, updates⟩, hupdate⟩ := Option.ne_none_iff_exists'.1 hupdate
    rw [retries_callTurn_of_update hupdate, execute]
    split_ifs with hfailed
    · exact ⟨row, hget, .inl rfl⟩
    · rw [get_updateRetryRecord, hget]
      split_ifs with hid
      · subst hid
        refine ⟨row.update updates db.now, rfl, ?_⟩
        cases hstatus : updates.status with
        | none => exact .inl (by rw [PaymentRetry.update, hstatus, Option.getD_none])
        | some status =>
          refine .inr ⟨⟨updates, hupdate, ?_⟩, r, rfl, hfailed⟩
          rw [PaymentRetry.update, hstatus, Option.getD_some]
      · exact ⟨row, rfl, .inl rfl⟩

/-- A row that has not been there is pending. -/
theorem pending_of_get_callTurn (hnone : db.retries.get id = none)
    (hget : (callTurn env db call reply).1.retries.get id = some row) : row.status = .pending := by
  by_cases hno : call.update db = none ∨ ∀ r, reply ≠ .db r
  · rcases retries_callTurn_of_no_update env hno with hsame | ⟨s, hcreated⟩
    · rw [hsame, hnone] at hget
      cases hget
    · rw [hcreated, createRetryRecord, InsertionMap.get_set, hnone] at hget
      split_ifs at hget
      exact (Option.some.inj hget) ▸ rfl
  · simp only [not_or, not_forall, not_not] at hno
    obtain ⟨hupdate, r, rfl⟩ := hno
    obtain ⟨⟨k, updates⟩, hupdate⟩ := Option.ne_none_iff_exists'.1 hupdate
    rw [retries_callTurn_of_update hupdate, execute] at hget
    split_ifs at hget
    · rw [hnone] at hget
      cases hget
    · rw [get_updateRetryRecord, hnone, Option.map_none, ite_self] at hget
      cases hget

/-- The status of a row after a turn. -/
theorem status_callTurn (hfresh : FreshIds db)
    (hget : (callTurn env db call reply).1.retries.get id = some row) :
    row.status = .pending ∨ (∃ old, db.retries.get id = some old ∧ row.status = old.status) ∨
      call.Writes db id row.status ∧ ∃ r, reply = .db r ∧ r.outcome ≠ .failed := by
  cases hold : db.retries.get id with
  | none => exact .inl (pending_of_get_callTurn hold hget)
  | some old =>
    obtain ⟨row', hget', hstatus⟩ := get_callTurn env call reply hfresh hold
    obtain rfl := Option.some.inj (hget.symm.trans hget')
    exact .inr (hstatus.imp_left fun hsame => ⟨old, rfl, hsame⟩)

/-! ### What an undisturbed turn keeps -/

/-- The retry is pending while its job runs, and pending or cancelled while a call is going to
cancel it. -/
structure StatusInv (id : ℕ) (db : RetryDb) (call : Call) : Prop where
  runs : call.Runs id → ∀ row, db.retries.get id = some row → row.status = .pending
  cancels : call.Cancels id → ∀ row, db.retries.get id = some row →
    row.status = .pending ∨ row.status = .cancelled

/-- While the job of the retry runs, the retry is in no other hands. -/
def RunsAlone (id : ℕ) (call other : Call) : Prop :=
  call.Runs id → ¬ other.Runs id ∧ ¬ other.Cancels id

/-- What is read to be cancelled is pending. -/
theorem pending_of_mem_reads (hreads : id ∈ (call.reads db).map Prod.fst)
    (hget : db.retries.get id = some row) : row.status = .pending := by
  obtain ⟨⟨k, row'⟩, hentry, rfl⟩ := List.mem_map.1 hreads
  have hread : ∀ subscriber merchant, (k, row') ∈ getRawRetries db subscriber merchant →
      db.retries.get k = some row' := by
    intro subscriber merchant hmem
    rw [getRawRetries, List.mem_insertionSort, List.mem_filter,
      InsertionMap.mem_entries_iff] at hmem
    exact hmem.1
  cases call with
  | readPending subscriber merchant =>
    obtain ⟨hmem, hpending⟩ := List.mem_filter.1 hentry
    obtain rfl := Option.some.inj (hget.symm.trans (hread _ _ hmem))
    exact of_decide_eq_true hpending
  | readRemaining job =>
    obtain ⟨hmem, hpending⟩ := List.mem_filter.1 hentry
    obtain rfl := Option.some.inj (hget.symm.trans (hread _ _ hmem))
    exact (of_decide_eq_true hpending).1
  | check | insert | addJob | backfill | remove | cancel | mark | notify | succeed | fail
  | escalate | ended => cases hentry

variable (db) in
/-- A job does not cancel its own retry. -/
theorem Call.Runs.no_cancel (h : call.Runs id) :
    ¬ call.Cancels id ∧ id ∉ (call.reads db).map Prod.fst := by
  cases call with
  | mark | notify | succeed | fail => exact ⟨not_false, List.not_mem_nil⟩
  | check | insert | addJob | backfill | readPending | remove | cancel | readRemaining | escalate
  | ended => cases h

theorem cancels_cancelNext {job : Option RetryJobData} {entries : List (ℕ × PaymentRetry)} :
    (Call.cancelNext job entries).Cancels id ↔ id ∈ entries.map Prod.fst := by
  rcases entries with _ | ⟨⟨k, row⟩, rest⟩
  · exact iff_of_false not_false List.not_mem_nil
  · rw [Call.cancelNext, List.map_cons, List.mem_cons]
    split_ifs <;> exact Iff.rfl

theorem not_runs_cancelNext {job : Option RetryJobData} {entries : List (ℕ × PaymentRetry)} :
    ¬ (Call.cancelNext job entries).Runs id := by
  rcases entries with _ | ⟨⟨k, row⟩, rest⟩
  · exact not_false
  · rw [Call.cancelNext]
    split_ifs <;> exact not_false

theorem not_runs_next (s : Scheduling) : ¬ s.next.Runs id := by
  rw [Scheduling.next]
  split_ifs <;> exact not_false

theorem not_cancels_next (s : Scheduling) : ¬ s.next.Cancels id := by
  rw [Scheduling.next]
  split_ifs <;> exact not_false

/-- After a statement, a job goes on to write that it has failed if there is an error. -/
theorem runs_afterStatement {r : DbReply} {job : Option RetryJobData} {next : Call}
    (h : (Call.afterStatement r job next).Runs id) :
    r.outcome = .acknowledged ∧ next.Runs id ∨
      r.outcome ≠ .acknowledged ∧ ∃ j, job = some j ∧ j.retryId = id := by
  rw [Call.afterStatement] at h
  split_ifs at h with hdone
  · exact .inl ⟨hdone, h⟩
  · cases job with
    | none => cases h
    | some job => exact .inr ⟨hdone, job, rfl, h⟩

theorem not_runs_afterStatement {r : DbReply} {next : Call} (hnext : ¬ next.Runs id) :
    ¬ (Call.afterStatement r none next).Runs id := by
  intro h
  rcases runs_afterStatement h with ⟨-, hruns⟩ | ⟨-, job, hjob, -⟩
  · exact hnext hruns
  · cases hjob

theorem cancels_afterStatement {r : DbReply} {job : Option RetryJobData} {next : Call}
    (h : (Call.afterStatement r job next).Cancels id) :
    r.outcome = .acknowledged ∧ next.Cancels id := by
  rw [Call.afterStatement] at h
  split_ifs at h with hdone
  · exact ⟨hdone, h⟩
  · cases job <;> cases h

/-- A job that runs after a statement has been running, unless it errs late. If it has written a
status, the statement has failed. -/
theorem runs_callTurn_db {r : DbReply} (hlate : ¬ call.ErrsLate id r)
    (h : (callTurn env db call (.db r)).2.Runs id) :
    call.Runs id ∧ (r.outcome ≠ .failed → ∀ status, ¬ call.Writes db id status) := by
  have hnone : call.update db = none → ∀ status, ¬ call.Writes db id status := by
    rintro hupdate status ⟨updates, hsome, -⟩
    cases hupdate.symm.trans hsome
  cases call with
  | check params =>
    refine absurd h (not_runs_afterStatement ?_)
    rw [Call.afterCheck]
    split_ifs
    · exact not_false
    · exact not_runs_next _
  | insert s => exact absurd h (not_runs_afterStatement not_false)
  | backfill s retryId jobId => exact absurd h (not_runs_afterStatement (not_runs_next _))
  | readPending subscriber merchant => exact absurd h (not_runs_afterStatement not_runs_cancelNext)
  | cancel job retryId rest =>
    rcases runs_afterStatement h with ⟨-, hruns⟩ | ⟨herr, job, rfl, hid⟩
    · exact (not_runs_cancelNext hruns).elim
    · exact absurd ⟨hid, herr⟩ hlate
  | mark job =>
    rcases runs_afterStatement h with ⟨-, hruns⟩ | ⟨-, job, hjob, -⟩
    · refine ⟨hruns, fun _ status hwrites => ?_⟩
      obtain ⟨updates, hupdate, hstatus⟩ := hwrites
      obtain ⟨-, rfl⟩ := Prod.mk.inj (Option.some.inj hupdate)
      cases hstatus
    · cases hjob
  | succeed job =>
    rcases runs_afterStatement h with ⟨-, hruns⟩ | ⟨herr, job, hjob, hid⟩
    · exact hruns.elim
    · obtain rfl := Option.some.inj hjob
      refine ⟨hid, fun heffect _ => absurd ⟨hid, ?_⟩ hlate⟩
      cases houtcome : r.outcome with
      | unacknowledged => rfl
      | acknowledged => exact absurd houtcome herr
      | failed => exact absurd houtcome heffect
  | readRemaining job =>
    rcases runs_afterStatement h with ⟨-, hruns⟩ | ⟨herr, job, hjob, hid⟩
    · exact (not_runs_cancelNext hruns).elim
    · obtain rfl := Option.some.inj hjob
      exact absurd ⟨hid, herr⟩ hlate
  | fail job errorMsg =>
    simp only [callTurn] at h
    split_ifs at h
    · exact h.elim
    · exact absurd h (not_runs_afterStatement not_false)
  | notify job => exact ⟨h, fun _ => hnone rfl⟩
  | addJob | remove | escalate | ended => exact h.elim

/-- A job that runs after another reply has been running. -/
theorem runs_of_runs_callTurn (hno : ∀ r, reply ≠ .db r)
    (h : (callTurn env db call reply).2.Runs id) : call.Runs id := by
  cases reply with
  | db r => exact absurd rfl (hno r)
  | added result =>
    cases call with
    | addJob s retryId => cases result <;> exact h.elim
    | mark | notify | succeed | fail => exact h
    | check | insert | backfill | readPending | remove | cancel | readRemaining | escalate
    | ended => exact h.elim
  | removed =>
    cases call with
    | mark | notify | succeed | fail => exact h
    | check | insert | addJob | backfill | readPending | remove | cancel | readRemaining | escalate
    | ended => exact h.elim
  | notified result =>
    cases call with
    | notify job => cases result <;> exact h
    | mark | succeed | fail => exact h
    | check | insert | addJob | backfill | readPending | remove | cancel | readRemaining | escalate
    | ended => exact h.elim

/-- A job that runs after a turn has been running, unless it errs late, and has written nothing. -/
theorem runs_callTurn (hlate : ∀ r, reply = .db r → ¬ call.ErrsLate id r)
    (h : (callTurn env db call reply).2.Runs id) :
    call.Runs id ∧ ∀ r status, reply = .db r → r.outcome ≠ .failed →
      ¬ call.Writes db id status := by
  by_cases hdb : ∃ r, reply = .db r
  · obtain ⟨r, rfl⟩ := hdb
    obtain ⟨hruns, hnothing⟩ := runs_callTurn_db (hlate r rfl) h
    refine ⟨hruns, fun r' status hr heffect => ?_⟩
    obtain rfl := Reply.db.inj hr
    exact hnothing heffect status
  · exact ⟨runs_of_runs_callTurn (fun r hr => hdb ⟨r, hr⟩) h, fun r _ hr => absurd ⟨r, hr⟩ hdb⟩

/-- A retry that is going to be cancelled after a turn has been before, or is read in it. -/
theorem cancels_callTurn (h : (callTurn env db call reply).2.Cancels id) :
    call.Cancels id ∨ (∃ r, reply = .db r ∧ r.outcome = .acknowledged) ∧
      id ∈ (call.reads db).map Prod.fst := by
  cases reply with
  | db r =>
    cases call with
    | check params =>
      have hnext := (cancels_afterStatement h).2
      rw [Call.afterCheck] at hnext
      split_ifs at hnext
      · exact hnext.elim
      · exact (not_cancels_next _ hnext).elim
    | backfill => exact (not_cancels_next _ (cancels_afterStatement h).2).elim
    | readPending | readRemaining =>
      obtain ⟨hdone, hcancels⟩ := cancels_afterStatement h
      exact .inr ⟨⟨r, rfl, hdone⟩, cancels_cancelNext.1 hcancels⟩
    | cancel job retryId rest =>
      exact .inl (.inr (cancels_cancelNext.1 (cancels_afterStatement h).2))
    | fail job errorMsg =>
      simp only [callTurn] at h
      split_ifs at h
      · exact h.elim
      · exact (cancels_afterStatement h).2.elim
    | remove => exact .inl h
    | insert | mark | succeed => exact (cancels_afterStatement h).2.elim
    | notify | addJob | escalate | ended => exact h.elim
  | added result =>
    cases call with
    | addJob s retryId => cases result <;> exact h.elim
    | remove | cancel => exact .inl h
    | check | insert | backfill | readPending | mark | notify | succeed | readRemaining | fail
    | escalate | ended => exact h.elim
  | removed =>
    cases call with
    | remove | cancel => exact .inl h
    | check | insert | addJob | backfill | readPending | mark | notify | succeed | readRemaining
    | fail | escalate | ended => exact h.elim
  | notified result =>
    cases call with
    | notify job => cases result <;> exact h.elim
    | remove | cancel => exact .inl h
    | check | insert | addJob | backfill | readPending | mark | succeed | readRemaining | fail
    | escalate | ended => exact h.elim

/-- **What a turn keeps.** -/
structure TurnSettles (id : ℕ) (db : RetryDb) (call : Call) (db' : RetryDb) (call' : Call) :
    Prop where
  settles : Settles id db db'
  own : StatusInv id db' call'
  others : ∀ other, StatusInv id db other → RunsAlone id call other → RunsAlone id other call →
    StatusInv id db' other

theorem turnSettles_callTurn (hfresh : FreshIds db) (hcall : StatusInv id db call)
    (hlate : ∀ r, reply = .db r → ¬ call.ErrsLate id r) :
    TurnSettles id db call (callTurn env db call reply).1 (callTurn env db call reply).2 := by
  refine ⟨fun row hget hsettled => ?_, ⟨fun hruns row hget => ?_, fun hcancels row hget => ?_⟩,
    fun other hother halone halone' => ⟨fun hruns row hget => ?_, fun hcancels row hget => ?_⟩⟩
  · obtain ⟨row', hget', hsame | ⟨hwrites, -⟩⟩ := get_callTurn env call reply hfresh hget
    · exact ⟨row', hget', hsame⟩
    · refine ⟨row', hget', ?_⟩
      rcases hwrites.cases with hruns | ⟨hcancels, hcancelled⟩
      · exact absurd (hcall.runs hruns row hget) hsettled
      · rw [hcancelled, (hcall.cancels hcancels row hget).resolve_left hsettled]
  · obtain ⟨hran, hnothing⟩ := runs_callTurn hlate hruns
    rcases status_callTurn hfresh hget with
      hpending | ⟨old, hold, hsame⟩ | ⟨hwrites, r, hr, heffect⟩
    · exact hpending
    · exact hsame.trans (hcall.runs hran old hold)
    · exact absurd hwrites (hnothing r _ hr heffect)
  · rcases status_callTurn hfresh hget with hpending | ⟨old, hold, hsame⟩ | ⟨hwrites, -⟩
    · exact .inl hpending
    · rcases cancels_callTurn hcancels with hcancelled | ⟨-, hreads⟩
      · rw [hsame]
        exact hcall.cancels hcancelled old hold
      · exact .inl (hsame.trans (pending_of_mem_reads hreads hold))
    · rcases hwrites.cases with hruns | ⟨-, hcancelled⟩
      · obtain ⟨hno, hno'⟩ := hruns.no_cancel db
        rcases cancels_callTurn hcancels with hcancelled | ⟨-, hreads⟩
        · exact absurd hcancelled hno
        · exact absurd hreads hno'
      · exact .inr hcancelled
  · rcases status_callTurn hfresh hget with hpending | ⟨old, hold, hsame⟩ | ⟨hwrites, -⟩
    · exact hpending
    · exact hsame.trans (hother.runs hruns old hold)
    · rcases hwrites.cases with hruns' | ⟨hcancels, -⟩
      · exact absurd hruns' (halone' hruns).1
      · exact absurd hcancels (halone' hruns).2
  · rcases status_callTurn hfresh hget with hpending | ⟨old, hold, hsame⟩ | ⟨hwrites, -⟩
    · exact .inl hpending
    · rw [hsame]
      exact hother.cancels hcancels old hold
    · rcases hwrites.cases with hruns | ⟨-, hcancelled⟩
      · exact absurd hcancels (halone hruns).2
      · exact .inr hcancelled

/-! ### Runs -/

/-- The invariant of the rows and of the calls. -/
def InHands (id : ℕ) : Pool RetryDb Call → Prop :=
  Pool.Holds FreshIds (StatusInv id) fun _ => RunsAlone id

/-- A new call that does not run the job of the retry. -/
theorem InHands.start (h : InHands id p) (hruns : ¬ call.Runs id) (hcancels : ¬ call.Cancels id) :
    InHands id (p.start call) :=
  Pool.Holds.start h ⟨fun hnew => absurd hnew hruns, fun hnew => absurd hnew hcancels⟩
    fun _ _ _ => ⟨fun hnew => absurd hnew hruns, fun _ => ⟨hruns, hcancels⟩⟩

theorem InHands.answer {i : ℕ} (h : InHands id p) (halone : Undisturbed id p (.answer i reply)) :
    InHands id (retryStep env p (.answer i reply)) ∧
      Settles id p.shared (retryStep env p (.answer i reply)).shared := by
  have hlate : ∀ call, p.calls[i]? = some call → ∀ r, reply = .db r → ¬ call.ErrsLate id r := by
    rintro call hcall r rfl
    exact (halone call hcall).1
  have hturn : ∀ call, p.calls[i]? = some call → TurnSettles id p.shared call
      (callTurn env p.shared call reply).1 (callTurn env p.shared call reply).2 :=
    fun call hcall => turnSettles_callTurn h.shared (h.each i call hcall) (hlate call hcall)
  constructor
  · refine Pool.Holds.resume h (fun call hcall => ⟨h.shared.callTurn, (hturn call hcall).own⟩)
      (fun call hcall j other hj hother => ?_) fun _ _ _ _ hapart => hapart
    have hother' := h.each j other hother
    have halone' := h.apart i j call other hj.symm hcall hother
    have halone'' := h.apart j i other call hj hother hcall
    refine ⟨(hturn call hcall).others other hother' halone' halone'',
      fun hruns => halone' (runs_callTurn (hlate call hcall) hruns).1, fun hruns => ?_⟩
    refine ⟨fun hruns' => ?_, fun hcancels => ?_⟩
    · exact (halone'' hruns).1 (runs_callTurn (hlate call hcall) hruns').1
    · rcases cancels_callTurn hcancels with hcancelled | ⟨⟨r, rfl, hdone⟩, hreads⟩
      · exact (halone'' hruns).2 hcancelled
      · exact (halone call hcall).2 hdone hreads other (List.mem_of_getElem? hother) hruns
  · rw [retryStep, Pool.shared_resume]
    cases hcall : p.calls[i]? with
    | none => exact .refl _
    | some call => exact (hturn call hcall).settles

theorem InHands.step {input : Input} (h : InHands id p) (halone : Undisturbed id p input) :
    InHands id (retryStep env p input) ∧ Settles id p.shared (retryStep env p input).shared := by
  cases input with
  | enqueueRetries | cancelRetries => exact ⟨InHands.start h not_false not_false, .refl _⟩
  | processRetryJob job =>
    refine ⟨?_, .refl _⟩
    by_cases hid : job.retryId = id
    · obtain ⟨hpending, hfree⟩ := halone hid
      refine Pool.Holds.start h ⟨fun _ => hpending, not_false.elim⟩ fun i call hcall => ?_
      obtain ⟨hruns, hcancels⟩ := hfree call (List.mem_of_getElem? hcall)
      exact ⟨fun _ => ⟨hruns, hcancels⟩, fun hruns' => absurd hruns' hruns⟩
    · exact InHands.start h hid not_false
  | elapse ms =>
    exact ⟨Pool.Holds.act (f := fun db : RetryDb => { db with now := db.now + ms }) h h.shared
      (fun _ _ hcall => ⟨hcall.runs, hcall.cancels⟩) fun _ _ hapart => hapart, .refl _⟩
  | answer i reply => exact h.answer halone

/-- **When statuses are terminal.** Whatever calls overlap, a retry that is not pending keeps its
status in all later states if the job of the retry runs alone: it starts when the retry is pending
and in no hands, nobody reads the retry as pending while it runs, and none of its statements errs
late. -/
theorem terminal_statuses (hfresh : FreshIds db) (id : ℕ) (inputs : List Input)
    (halone : Along (retryStep env) (Undisturbed id) (.idle db) inputs) :
    Onwards (retryStep env) (fun p q => Settles id p.shared q.shared) (.idle db) inputs :=
  onwards_of_along (InHands id) (fun _ _ _ h h' => h.trans h') (fun _ _ => .refl _)
    (fun _ _ h halone => h.step halone) (Pool.holds_idle hfresh) halone

/-- One pending retry of a payment, with its job. -/
def sampleRetryDb : RetryDb where
  retries := InsertionMap.empty.set 1
    ⟨⟨"GSUB", "GMER", "100", "CTOKEN"⟩, 1, .pending, 86400000, none, none, some "job-1", 0, 0⟩
  nextId := 2
  now := 86400000
  escalations := []

/-- The job of the retry succeeds, and is followed by `cancelRetries`. -/
theorem terminal_statuses_sample :
    Onwards (retryStep none) (fun p q => Settles 1 p.shared q.shared) (.idle sampleRetryDb)
      [.processRetryJob ⟨⟨"GSUB", "GMER", "100", "CTOKEN"⟩, 1, 1⟩, .answer 0 (.db .done),
        .answer 0 (.notified (.ok ())), .answer 0 (.db .done), .answer 0 (.db .done),
        .cancelRetries "GSUB" "GMER", .answer 1 (.db .done)] := by
  refine terminal_statuses (fun id row hget => ?_) 1 _ (by decide)
  rw [sampleRetryDb, InsertionMap.get_set, InsertionMap.get_empty] at hget
  split_ifs at hget with hid
  rw [hid]
  exact Nat.lt_succ_self 1

/-- The job of the retry notifies the merchant while `cancelRetries` gives the retry up. -/
def sampleCancelled : List Input :=
  [.processRetryJob ⟨⟨"GSUB", "GMER", "100", "CTOKEN"⟩, 1, 1⟩, .answer 0 (.db .done),
    .cancelRetries "GSUB" "GMER", .answer 1 (.db .done), .answer 1 .removed,
    .answer 1 (.db .done), .answer 0 (.notified (.ok ()))]

/-- The job writes that the cancelled retry has succeeded. -/
theorem not_terminal_statuses_cancelled :
    ¬ Onwards (retryStep none) (fun p q => Settles 1 p.shared q.shared) (.idle sampleRetryDb)
      (sampleCancelled ++ [.answer 0 (.db .done)]) := by
  intro h
  obtain ⟨row, hget, hstatus⟩ := h sampleCancelled [.answer 0 (.db .done)] [] rfl _ rfl (by decide)
  have hsucceeded : row.status = .succeeded := by
    rw [← Option.some.inj hget]
    decide
  exact absurd (hsucceeded.symm.trans hstatus) (by decide)

end SorobanPay.RetryQueue
