import SorobanPay.Backend.RetryOutcomes
import SorobanPay.Backend.RetryStatuses

/-!
# Disturbed retries

The status of a retry is kept as long as its job runs alone. Here every step that disturbs the job
is shown to be one too many: after it, the calls that there are can be answered, without another
disturbance, in such a way that a status other than `pending` is written over.

## Main definitions

* `Drives`: a call is answered until it has brought the retry to a status.
* `Unsettles`: a status is going to be written over.

## Main results

* `exists_drives_of_runs`, `exists_drives_of_cancels`: a call that has the retry in its hands writes
  a status.
* `exists_unsettled`: every disturbance can do harm.
-/

set_option autoImplicit false

namespace SorobanPay.RetryQueue

open Foundation

variable {db db' : RetryDb} {env : Option String} {call : Call} {reply : Reply} {id i k : ℕ}
  {p : Pool RetryDb Call} {job : RetryJobData} {status status' : RetryStatus}
  {inputs : List Input} {input : Input}

/-! ### Statuses -/

theorem HasStatus.settled (h : HasStatus db id status) (hsettled : status ≠ .pending)
    (hsettles : Settles id db db') : HasStatus db' id status := by
  obtain ⟨row, hget, rfl⟩ := h
  exact hsettles row hget hsettled

theorem HasStatus.unique (h : HasStatus db id status) (h' : HasStatus db id status') :
    status = status' := by
  obtain ⟨row, hget, rfl⟩ := h
  obtain ⟨row', hget', rfl⟩ := h'
  rw [Option.some.inj (hget.symm.trans hget')]

variable (env) in
/-- What a statement writes, if it takes effect. -/
theorem hasStatus_of_writes (hrow : ∃ row, db.retries.get id = some row)
    (hwrites : call.Writes db id status) {r : DbReply} (heffect : r.outcome ≠ .failed) :
    HasStatus (callTurn env db call (.db r)).1 id status := by
  obtain ⟨row, hget⟩ := hrow
  obtain ⟨updates, hupdate, hstatus⟩ := hwrites
  rw [HasStatus, retries_callTurn_of_update hupdate, execute, if_neg heffect]
  exact hasStatus_update hget hstatus

variable (env) in
theorem freshIds_step (h : FreshIds p.shared) (input : Input) :
    FreshIds (retryStep env p input).shared := by
  cases input with
  | answer i reply =>
    rw [retryStep, Pool.shared_resume]
    cases p.calls[i]? with
    | none => exact h
    | some call => exact h.callTurn
  | enqueueRetries | cancelRetries | processRetryJob | elapse => exact h

variable (env) in
theorem freshIds_after (h : FreshIds p.shared) (inputs : List Input) :
    FreshIds (after (retryStep env) p inputs).shared := by
  have hstep : ∀ (p : Pool RetryDb Call) (input : Input), FreshIds p.shared →
      FreshIds (retryStep env p input).shared := fun _ input h => freshIds_step env h input
  exact after_invariant hstep h inputs

variable (env) in
/-- Rows stay in the table. -/
theorem exists_row_step (hfresh : FreshIds p.shared)
    (hrow : ∃ row, p.shared.retries.get id = some row) (input : Input) :
    ∃ row, (retryStep env p input).shared.retries.get id = some row := by
  cases input with
  | answer i reply =>
    rw [retryStep, Pool.shared_resume]
    cases p.calls[i]? with
    | none => exact hrow
    | some call =>
      obtain ⟨row, hget⟩ := hrow
      obtain ⟨row', hget', -⟩ := get_callTurn env call reply hfresh hget
      exact ⟨row', hget'⟩
  | enqueueRetries | cancelRetries | processRetryJob | elapse => exact hrow

/-! ### Calls that write a status -/

variable (env) in
/-- A call is answered. -/
theorem answer_spec (hcall : p.calls[k]? = some call) (reply : Reply) :
    (retryStep env p (.answer k reply)).calls[k]? = some (callTurn env p.shared call reply).2 ∧
      (∀ j, j ≠ k → (retryStep env p (.answer k reply)).calls[j]? = p.calls[j]?) ∧
        (retryStep env p (.answer k reply)).shared = (callTurn env p.shared call reply).1 :=
  ⟨Pool.getElem?_resume_self hcall, fun _ hj => Pool.getElem?_resume_of_ne hj.symm, by
    rw [retryStep, Pool.shared_resume, hcall, Option.elim_some]⟩

theorem not_errsLate_done : ¬ call.ErrsLate id .done := by
  cases call with
  | succeed => exact fun h => by cases h.2
  | readRemaining => exact fun h => h.2 rfl
  | cancel job retryId rest =>
    cases job with
    | none => exact not_false
    | some job => exact fun h => h.2 rfl
  | check | insert | addJob | backfill | readPending | remove | mark | notify | fail | escalate
  | ended => exact not_false

/-- The job or a loop of cancellations goes on without an error. -/
theorem undisturbed_answer (hcall : p.calls[k]? = some call) (hreads : call.reads p.shared = [])
    (hreply : ∀ r, reply = .db r → r = .done) : Undisturbed id p (.answer k reply) := by
  cases reply with
  | db r =>
    obtain rfl := hreply r rfl
    intro other hother
    obtain rfl := Option.some.inj (hcall.symm.trans hother)
    refine ⟨not_errsLate_done, fun _ hread => ?_⟩
    rw [hreads] at hread
    cases hread
  | added | removed | notified => trivial

variable (env) in
/-- A call is answered, until it has brought the retry to a status. The others wait. -/
structure Drives (id k : ℕ) (status : RetryStatus) (p : Pool RetryDb Call)
    (inputs : List Input) : Prop where
  undisturbed : Along (retryStep env) (Undisturbed id) p inputs
  others : ∀ j, j ≠ k → (after (retryStep env) p inputs).calls[j]? = p.calls[j]?
  reached : HasStatus (after (retryStep env) p inputs).shared id status

/-- The call is answered once before. -/
theorem Drives.cons (hcall : p.calls[k]? = some call) (reply : Reply)
    (hundisturbed : Undisturbed id p (.answer k reply))
    (h : Drives env id k status (retryStep env p (.answer k reply)) inputs) :
    Drives env id k status p (.answer k reply :: inputs) :=
  ⟨⟨hundisturbed, h.undisturbed⟩,
    fun j hj => (h.others j hj).trans ((answer_spec env hcall reply).2.1 j hj), h.reached⟩

variable (env) in
theorem drives_of_writes (hcall : p.calls[k]? = some call) (hreads : call.reads p.shared = [])
    (hrow : ∃ row, p.shared.retries.get id = some row)
    (hwrites : call.Writes p.shared id status) :
    Drives env id k status p [.answer k (.db .done)] := by
  obtain ⟨-, hothers, hshared⟩ := answer_spec env hcall (.db .done)
  refine ⟨⟨undisturbed_answer hcall hreads fun r hr => (Reply.db.inj hr).symm, trivial⟩, hothers,
    ?_⟩
  rw [after_cons, after_nil, hshared]
  exact hasStatus_of_writes env hrow hwrites fun heq => by cases heq

theorem writes_succeed (hid : job.retryId = id) : (Call.succeed job).Writes db id .succeeded := by
  subst hid
  exact ⟨_, rfl, rfl⟩

theorem writes_fail (hid : job.retryId = id) (errorMsg : String) :
    (Call.fail job errorMsg).Writes db id .failed := by
  subst hid
  exact ⟨_, rfl, rfl⟩

/-- The merchant decides what becomes of the retry. -/
theorem exists_drives_of_notify (hcall : p.calls[k]? = some (.notify job))
    (hid : job.retryId = id) (hfresh : FreshIds p.shared)
    (hrow : ∃ row, p.shared.retries.get id = some row)
    (hstatus : status = .succeeded ∨ status = .failed) :
    ∃ inputs, Drives env id k status p inputs := by
  have hdrives : ∀ result, (callTurn env p.shared (.notify job) (.notified result)).2.Writes
      (retryStep env p (.answer k (.notified result))).shared id status →
        (callTurn env p.shared (.notify job) (.notified result)).2.reads
          (retryStep env p (.answer k (.notified result))).shared = [] →
        ∃ inputs, Drives env id k status p inputs := by
    intro result hwrites hreads
    have hnext := (answer_spec env hcall (.notified result)).1
    have hrow' := exists_row_step env hfresh hrow (.answer k (.notified result))
    exact ⟨_, (drives_of_writes env hnext hreads hrow' hwrites).cons hcall (.notified result)
      trivial⟩
  rcases hstatus with rfl | rfl
  · exact hdrives (.ok ()) (writes_succeed hid) rfl
  · exact hdrives (.error "") (writes_fail hid "") rfl

/-- So does the job when it starts. -/
theorem exists_drives_of_mark (hcall : p.calls[k]? = some (.mark job)) (hid : job.retryId = id)
    (hfresh : FreshIds p.shared) (hrow : ∃ row, p.shared.retries.get id = some row)
    (hstatus : status = .succeeded ∨ status = .failed) :
    ∃ inputs, Drives env id k status p inputs := by
  have hnext := (answer_spec env hcall (.db .done)).1
  obtain ⟨inputs, hdrives⟩ := exists_drives_of_notify hnext hid
    (freshIds_step env hfresh (.answer k (.db .done)))
    (exists_row_step env hfresh hrow (.answer k (.db .done))) hstatus
  exact ⟨_, hdrives.cons hcall _
    (undisturbed_answer hcall rfl fun r hr => (Reply.db.inj hr).symm)⟩

/-- A job that runs brings the retry to the status that it ends with. -/
theorem exists_drives_of_runs (hcall : p.calls[k]? = some call) (hruns : call.Runs id)
    (hfresh : FreshIds p.shared) (hrow : ∃ row, p.shared.retries.get id = some row) :
    ∃ status inputs, (status = .succeeded ∨ status = .failed) ∧
      Drives env id k status p inputs := by
  cases call with
  | fail job errorMsg =>
    exact ⟨_, _, .inr rfl, drives_of_writes env hcall rfl hrow (writes_fail hruns errorMsg)⟩
  | succeed job =>
    exact ⟨_, _, .inl rfl, drives_of_writes env hcall rfl hrow (writes_succeed hruns)⟩
  | notify job =>
    obtain ⟨inputs, hdrives⟩ := exists_drives_of_notify hcall hruns hfresh hrow (.inl rfl)
    exact ⟨_, inputs, .inl rfl, hdrives⟩
  | mark job =>
    obtain ⟨inputs, hdrives⟩ := exists_drives_of_mark hcall hruns hfresh hrow (.inl rfl)
    exact ⟨_, inputs, .inl rfl, hdrives⟩
  | check | insert | addJob | backfill | readPending | remove | cancel | readRemaining | escalate
  | ended => exact hruns.elim

/-- A loop that cancels retries comes to this one. -/
theorem exists_drives_of_cancel {canceller : Option RetryJobData}
    {rest : List (ℕ × PaymentRetry)} {retryId : ℕ}
    (hcall : p.calls[k]? = some (.cancel canceller retryId rest))
    (hid : id = retryId ∨ id ∈ rest.map Prod.fst) (hfresh : FreshIds p.shared)
    (hrow : ∃ row, p.shared.retries.get id = some row) :
    ∃ inputs, Drives env id k .cancelled p inputs := by
  induction rest generalizing p retryId with
  | nil =>
    obtain rfl := hid.resolve_right List.not_mem_nil
    exact ⟨_, drives_of_writes env hcall rfl hrow ⟨_, rfl, rfl⟩⟩
  | cons entry rest ih =>
    rcases hid with rfl | hid
    · exact ⟨_, drives_of_writes env hcall rfl hrow ⟨_, rfl, rfl⟩⟩
    · have hundisturbed : Undisturbed id p (.answer k (.db .done)) :=
        undisturbed_answer hcall rfl fun r hr => (Reply.db.inj hr).symm
      have hnext := (answer_spec env hcall (.db .done)).1
      have hfresh' := freshIds_step env hfresh (.answer k (.db .done))
      have hrow' := exists_row_step env hfresh hrow (.answer k (.db .done))
      rw [List.map_cons, List.mem_cons] at hid
      change _ = some (Call.cancelNext canceller (entry :: rest)) at hnext
      rw [Call.cancelNext] at hnext
      split_ifs at hnext
      · obtain ⟨inputs, hdrives⟩ := ih hnext hid hfresh' hrow'
        exact ⟨_, hdrives.cons hcall _ hundisturbed⟩
      · -- the job of the next retry is removed first
        have hnext' := (answer_spec env hnext .removed).1
        obtain ⟨inputs, hdrives⟩ := ih hnext' hid
          (freshIds_step env hfresh' (.answer k .removed))
          (exists_row_step env hfresh' hrow' (.answer k .removed))
        exact ⟨_, (hdrives.cons hnext .removed trivial).cons hcall _ hundisturbed⟩

/-- A call that is going to cancel the retry does. -/
theorem exists_drives_of_cancels (hcall : p.calls[k]? = some call) (hcancels : call.Cancels id)
    (hfresh : FreshIds p.shared) (hrow : ∃ row, p.shared.retries.get id = some row) :
    ∃ inputs, Drives env id k .cancelled p inputs := by
  cases call with
  | cancel job retryId rest => exact exists_drives_of_cancel hcall hcancels hfresh hrow
  | remove job retryId rest =>
    have hnext := (answer_spec env hcall .removed).1
    obtain ⟨inputs, hdrives⟩ := exists_drives_of_cancel hnext hcancels
      (freshIds_step env hfresh (.answer k .removed))
      (exists_row_step env hfresh hrow (.answer k .removed))
    exact ⟨_, hdrives.cons hcall .removed trivial⟩
  | check | insert | addJob | backfill | readPending | mark | notify | succeed | readRemaining
  | fail | escalate | ended => exact hcancels.elim

/-! ### Statuses that are written over -/

variable (env) in
/-- Something that can happen from here on, with no more disturbances, writes over a status. -/
def Unsettles (id : ℕ) (p : Pool RetryDb Call) : Prop :=
  ∃ inputs, Along (retryStep env) (Undisturbed id) p inputs ∧
    ¬ Onwards (retryStep env) (fun p q => Settles id p.shared q.shared) p inputs

variable (env) in
/-- Something that can happen after a step, with no more disturbances, writes over a status. -/
def UnsettlesAfter (id : ℕ) (p : Pool RetryDb Call) (input : Input) : Prop :=
  ∃ more, Along (retryStep env) (Undisturbed id) (retryStep env p input) more ∧
    ¬ Onwards (retryStep env) (fun p q => Settles id p.shared q.shared) p (input :: more)

theorem Unsettles.after_step (h : Unsettles env id (retryStep env p input)) :
    UnsettlesAfter env id p input := by
  obtain ⟨more, hundisturbed, hmore⟩ := h
  refine ⟨more, hundisturbed, fun honwards => hmore ?_⟩
  rw [← List.singleton_append] at honwards
  exact honwards.of_append

theorem Unsettles.of_after (hundisturbed : Along (retryStep env) (Undisturbed id) p inputs)
    (h : Unsettles env id (after (retryStep env) p inputs)) : Unsettles env id p := by
  obtain ⟨more, hundisturbed', hmore⟩ := h
  exact ⟨inputs ++ more, along_append.2 ⟨hundisturbed, hundisturbed'⟩,
    fun honwards => hmore honwards.of_append⟩

theorem Drives.unsettles (h : Drives env id k status' p inputs)
    (hstatus : HasStatus p.shared id status) (hsettled : status ≠ .pending)
    (hne : status ≠ status') : Unsettles env id p := by
  refine ⟨inputs, h.undisturbed, fun honwards => hne ?_⟩
  have hsettles := honwards [] inputs [] (List.append_nil _).symm
  exact (hstatus.settled hsettled hsettles).unique h.reached

/-- A job that starts too late writes over the status. -/
theorem unsettles_of_mark (hcall : p.calls[k]? = some (.mark job)) (hid : job.retryId = id)
    (hfresh : FreshIds p.shared) (hstatus : HasStatus p.shared id status)
    (hsettled : status ≠ .pending) : Unsettles env id p := by
  have hrow : ∃ row, p.shared.retries.get id = some row := by
    obtain ⟨row, hget, -⟩ := hstatus
    exact ⟨row, hget⟩
  have hdrives : ∀ status', status' = .succeeded ∨ status' = .failed →
      ∃ inputs, Drives env id k status' p inputs :=
    fun _ => exists_drives_of_mark hcall hid hfresh hrow
  by_cases hsucceeded : status = .succeeded
  · obtain ⟨inputs, hfails⟩ := hdrives .failed (.inr rfl)
    exact hfails.unsettles hstatus hsettled (hsucceeded ▸ by decide)
  · obtain ⟨inputs, hsucceeds⟩ := hdrives .succeeded (.inl rfl)
    exact hsucceeds.unsettles hstatus hsettled hsucceeded

/-- So does one that starts while the retry is in the hands of another call. -/
theorem Drives.unsettles_of_mark {j : ℕ} (h : Drives env id j status p inputs)
    (hsettled : status ≠ .pending) (hcall : p.calls[k]? = some (.mark job)) (hne : k ≠ j)
    (hid : job.retryId = id) (hfresh : FreshIds p.shared) : Unsettles env id p :=
  .of_after h.undisturbed (RetryQueue.unsettles_of_mark ((h.others k hne).trans hcall) hid
    (freshIds_after env hfresh inputs) h.reached hsettled)

/-- What a job and a loop of cancellations make of one retry. -/
theorem unsettles_of_runs_of_cancels {j : ℕ} {other : Call} (hcall : p.calls[k]? = some call)
    (hcancels : call.Cancels id) (hother : p.calls[j]? = some other) (hruns : other.Runs id)
    (hne : k ≠ j) (hfresh : FreshIds p.shared)
    (hrow : ∃ row, p.shared.retries.get id = some row) : Unsettles env id p := by
  obtain ⟨status, inputs, hstatus, hends⟩ :
      ∃ status inputs, (status = .succeeded ∨ status = .failed) ∧
        Drives env id j status p inputs := exists_drives_of_runs hother hruns hfresh hrow
  have hsettled : status ≠ .pending ∧ status ≠ .cancelled := by
    rcases hstatus with rfl | rfl <;> decide
  have hrow' : ∃ row, (after (retryStep env) p inputs).shared.retries.get id = some row := by
    obtain ⟨row, hget, -⟩ := hends.reached
    exact ⟨row, hget⟩
  obtain ⟨more, hcancelled⟩ : ∃ more, Drives env id k .cancelled (after (retryStep env) p inputs)
      more :=
    exists_drives_of_cancels ((hends.others k hne).trans hcall) hcancels
      (freshIds_after env hfresh inputs) hrow'
  exact .of_after hends.undisturbed (hcancelled.unsettles hends.reached hsettled.1 hsettled.2)

/-! ### Every disturbance can do harm -/

/-- The call is the job of the retry, which has written that the retry has succeeded. -/
def Call.Succeeded (id : ℕ) : Call → Prop
  | .readRemaining job | .remove (some job) _ _ | .cancel (some job) _ _ => job.retryId = id
  | .check _ | .insert _ | .addJob _ _ | .backfill _ _ _ | .readPending _ _ | .remove none _ _
  | .cancel none _ _ | .mark _ | .notify _ | .succeed _ | .fail _ _ | .escalate _
  | .ended _ => False

theorem succeeded_cancelNext {canceller : Option RetryJobData} {entries : List (ℕ × PaymentRetry)}
    (h : (Call.cancelNext canceller entries).Succeeded id) :
    ∃ job, canceller = some job ∧ job.retryId = id := by
  rcases entries with _ | ⟨entry, rest⟩
  · exact h.elim
  · rw [Call.cancelNext] at h
    cases canceller with
    | none => split_ifs at h <;> exact h.elim
    | some job => split_ifs at h <;> exact ⟨job, rfl, h⟩

theorem not_succeeded_next (s : Scheduling) : ¬ s.next.Succeeded id := by
  rw [Scheduling.next]
  split_ifs <;> exact not_false

theorem succeeded_afterStatement {r : DbReply} {canceller : Option RetryJobData} {next : Call}
    (h : (Call.afterStatement r canceller next).Succeeded id) :
    r.outcome = .acknowledged ∧ next.Succeeded id := by
  rw [Call.afterStatement] at h
  split_ifs at h with hdone
  · exact ⟨hdone, h⟩
  · cases canceller <;> cases h

/-- A job that has written its success after a turn had before, or has written it in the turn. -/
theorem succeeded_callTurn (h : (callTurn env db call reply).2.Succeeded id) :
    call.Succeeded id ∨ ∃ r, reply = .db r ∧ r.outcome = .acknowledged ∧
      call.Writes db id .succeeded := by
  cases reply with
  | db r =>
    cases call with
    | check params =>
      have hnext := (succeeded_afterStatement h).2
      rw [Call.afterCheck] at hnext
      split_ifs at hnext
      · exact hnext.elim
      · exact (not_succeeded_next _ hnext).elim
    | backfill => exact (not_succeeded_next _ (succeeded_afterStatement h).2).elim
    | readPending =>
      obtain ⟨job, hjob, -⟩ := succeeded_cancelNext (succeeded_afterStatement h).2
      cases hjob
    | readRemaining job =>
      obtain ⟨job, hjob, hid⟩ := succeeded_cancelNext (succeeded_afterStatement h).2
      obtain rfl := Option.some.inj hjob
      exact .inl hid
    | cancel canceller retryId rest =>
      obtain ⟨job, rfl, hid⟩ := succeeded_cancelNext (succeeded_afterStatement h).2
      exact .inl hid
    | succeed job =>
      obtain ⟨hdone, hid⟩ := succeeded_afterStatement h
      exact .inr ⟨r, rfl, hdone, writes_succeed hid⟩
    | fail job errorMsg =>
      simp only [callTurn] at h
      split_ifs at h
      · exact h.elim
      · exact (succeeded_afterStatement h).2.elim
    | remove => exact .inl h
    | insert | mark => exact (succeeded_afterStatement h).2.elim
    | notify | addJob | escalate | ended => exact h.elim
  | added result =>
    cases call with
    | addJob s retryId => cases result <;> exact h.elim
    | remove | cancel | readRemaining => exact .inl h
    | check | insert | backfill | readPending | mark | notify | succeed | fail | escalate
    | ended => exact h.elim
  | removed =>
    cases call with
    | remove canceller => cases canceller <;> exact .inl h
    | cancel | readRemaining => exact .inl h
    | check | insert | addJob | backfill | readPending | mark | notify | succeed | fail | escalate
    | ended => exact h.elim
  | notified result =>
    cases call with
    | notify job => cases result <;> exact h.elim
    | remove | cancel | readRemaining => exact .inl h
    | check | insert | addJob | backfill | readPending | mark | succeed | fail | escalate
    | ended => exact h.elim

/-- What holds as long as the job of a retry in the table has not been disturbed. -/
structure Settled (id : ℕ) (p : Pool RetryDb Call) : Prop where
  hands : InHands id p
  present : ∃ row, p.shared.retries.get id = some row
  succeeded : ∀ (i : ℕ) (call : Call), p.calls[i]? = some call → call.Succeeded id →
    HasStatus p.shared id .succeeded

variable (env) in
theorem Settled.step (h : Settled id p) (halone : Undisturbed id p input) :
    Settled id (retryStep env p input) := by
  obtain ⟨hhands, hsettles⟩ : InHands id (retryStep env p input) ∧
      Settles id p.shared (retryStep env p input).shared := h.hands.step halone
  have hkeep : HasStatus p.shared id .succeeded →
      HasStatus (retryStep env p input).shared id .succeeded :=
    fun hstatus => hstatus.settled (by decide) hsettles
  refine ⟨hhands, exists_row_step env h.hands.shared h.present input,
    fun j call hcall hsucceeded => ?_⟩
  cases input with
  | enqueueRetries | cancelRetries | processRetryJob =>
    rcases Pool.getElem?_start hcall with hold | ⟨-, rfl⟩
    · exact hkeep (h.succeeded j call hold hsucceeded)
    · exact hsucceeded.elim
  | elapse ms => exact hkeep (h.succeeded j call hcall hsucceeded)
  | answer i reply =>
    cases hi : p.calls[i]? with
    | none =>
      rw [retryStep, Pool.resume_of_none hi] at hcall ⊢
      exact h.succeeded j call hcall hsucceeded
    | some own =>
      obtain ⟨hown, hothers, hshared⟩ := answer_spec env hi reply
      by_cases hj : j = i
      · subst hj
        obtain rfl := Option.some.inj (hown.symm.trans hcall)
        rcases succeeded_callTurn hsucceeded with hold | ⟨r, rfl, hdone, hwrites⟩
        · exact hkeep (h.succeeded j own hi hold)
        · rw [hshared]
          exact hasStatus_of_writes env h.present hwrites (by rw [hdone]; decide)
      · exact hkeep (h.succeeded j call ((hothers j hj).symm.trans hcall) hsucceeded)

/-- A job starts that disturbs, or is disturbed. -/
theorem Settled.unsettles_of_start (h : Settled id p)
    (hdisturbed : ¬ Undisturbed id p (.processRetryJob job)) :
    Unsettles env id (retryStep env p (.processRetryJob job)) := by
  rw [Undisturbed, Classical.not_imp] at hdisturbed
  obtain ⟨hid, hbusy⟩ := hdisturbed
  have hcall : (p.start (.mark job)).calls[p.calls.length]? = some (.mark job) :=
    List.getElem?_concat_length
  by_cases hpending : ∀ row ∈ p.shared.retries.get id, row.status = .pending
  · -- another call has the retry in its hands, and goes first
    have hother : ∃ other ∈ p.calls, other.Runs id ∨ other.Cancels id := by
      by_contra hnone
      push Not at hnone
      exact hbusy ⟨hpending, hnone⟩
    obtain ⟨other, hmem, hhands⟩ := hother
    obtain ⟨j, hj⟩ := List.mem_iff_getElem?.1 hmem
    have hne : p.calls.length ≠ j := (List.getElem?_eq_some_iff.1 hj).1.ne'
    have hj' := Pool.getElem?_start_of_some (l := .mark job) hj
    rcases hhands with hruns | hcancels
    · obtain ⟨status, inputs, hstatus, hends⟩ :
          ∃ status inputs, (status = .succeeded ∨ status = .failed) ∧
            Drives env id j status (p.start (.mark job)) inputs :=
        exists_drives_of_runs hj' hruns h.hands.shared h.present
      refine hends.unsettles_of_mark ?_ hcall hne hid h.hands.shared
      rcases hstatus with rfl | rfl <;> decide
    · obtain ⟨inputs, hends⟩ : ∃ inputs, Drives env id j .cancelled (p.start (.mark job)) inputs :=
        exists_drives_of_cancels hj' hcancels h.hands.shared h.present
      exact hends.unsettles_of_mark (by decide) hcall hne hid h.hands.shared
  · -- the status is written over
    push Not at hpending
    obtain ⟨row, hget, hsettled⟩ := hpending
    exact unsettles_of_mark hcall hid h.hands.shared ⟨row, hget, rfl⟩ hsettled

/-- The retry is read as pending while its job runs. -/
theorem Settled.unsettles_of_reads {r : DbReply} (h : Settled id p)
    (hcall : p.calls[i]? = some call) (hdone : r.outcome = .acknowledged)
    (hreads : id ∈ (call.reads p.shared).map Prod.fst) {other : Call} (hother : other ∈ p.calls)
    (hruns : other.Runs id) : Unsettles env id (retryStep env p (.answer i (.db r))) := by
  obtain ⟨j, hj⟩ := List.mem_iff_getElem?.1 hother
  have hne : i ≠ j := by
    rintro rfl
    obtain rfl := Option.some.inj (hcall.symm.trans hj)
    exact (hruns.no_cancel p.shared).2 hreads
  obtain ⟨hown, hothers, -⟩ := answer_spec env hcall (.db r)
  have hcancels : (callTurn env p.shared call (.db r)).2.Cancels id := by
    cases call with
    | readPending | readRemaining =>
      simp only [callTurn, Call.afterStatement, if_pos hdone]
      exact cancels_cancelNext.2 hreads
    | check | insert | addJob | backfill | remove | cancel | mark | notify | succeed | fail
    | escalate | ended => cases hreads
  exact unsettles_of_runs_of_cancels hown hcancels ((hothers j hne.symm).trans hj) hruns hne
    (freshIds_step env h.hands.shared _) (exists_row_step env h.hands.shared h.present _)

/-- The job is answered with an error after it has written its success. -/
theorem Settled.unsettles_of_errsLate {r : DbReply} (h : Settled id p)
    (hcall : p.calls[i]? = some call) (hlate : call.ErrsLate id r) :
    UnsettlesAfter env id p (.answer i (.db r)) := by
  obtain ⟨hown, -, hshared⟩ := answer_spec env hcall (.db r)
  have hrow := exists_row_step env h.hands.shared h.present (.answer i (.db r))
  -- the job goes on to write that the retry has failed
  have hfails : (callTurn env p.shared call (.db r)).2.Writes
      (retryStep env p (.answer i (.db r))).shared id .failed ∧
        (callTurn env p.shared call (.db r)).2.reads
          (retryStep env p (.answer i (.db r))).shared = [] := by
    cases call with
    | succeed job =>
      have herr : r.outcome ≠ .acknowledged := by rw [hlate.2]; decide
      simp only [callTurn, Call.afterStatement, if_neg herr]
      exact ⟨writes_fail hlate.1 r.err, rfl⟩
    | readRemaining job =>
      simp only [callTurn, Call.afterStatement, if_neg hlate.2]
      exact ⟨writes_fail hlate.1 r.err, rfl⟩
    | cancel canceller retryId rest =>
      cases canceller with
      | none => exact hlate.elim
      | some job =>
        simp only [callTurn, Call.afterStatement, if_neg hlate.2]
        exact ⟨writes_fail hlate.1 r.err, rfl⟩
    | check | insert | addJob | backfill | readPending | remove | mark | notify | fail | escalate
    | ended => exact hlate.elim
  have hdrives := drives_of_writes env hown hfails.2 hrow hfails.1
  refine ⟨_, hdrives.undisturbed, fun honwards => ?_⟩
  -- its success is there before this turn or after it
  have hsucceeded : HasStatus p.shared id .succeeded ∨
      HasStatus (retryStep env p (.answer i (.db r))).shared id .succeeded := by
    cases call with
    | succeed job =>
      refine .inr (hshared ▸ hasStatus_of_writes env h.present (writes_succeed hlate.1) ?_)
      rw [hlate.2]
      decide
    | readRemaining job => exact .inl (h.succeeded i _ hcall hlate.1)
    | cancel canceller retryId rest =>
      cases canceller with
      | none => exact hlate.elim
      | some job => exact .inl (h.succeeded i _ hcall hlate.1)
    | check | insert | addJob | backfill | readPending | remove | mark | notify | fail | escalate
    | ended => exact hlate.elim
  have hkept : HasStatus (after (retryStep env) (retryStep env p (.answer i (.db r)))
      [.answer i (.db .done)]).shared id .succeeded := by
    rcases hsucceeded with hbefore | hafter
    · exact hbefore.settled (by decide) (honwards [] [_, _] [] rfl)
    · exact hafter.settled (by decide) (honwards [_] [_] [] rfl)
  cases hkept.unique hdrives.reached

theorem Settled.unsettles_of_disturbed (h : Settled id p) (hdisturbed : ¬ Undisturbed id p input) :
    UnsettlesAfter env id p input := by
  cases input with
  | processRetryJob job => exact (h.unsettles_of_start hdisturbed).after_step
  | answer i reply =>
    cases reply with
    | db r =>
      simp only [Undisturbed, not_forall] at hdisturbed
      obtain ⟨call, hcall, hnot⟩ := hdisturbed
      by_cases hlate : call.ErrsLate id r
      · exact h.unsettles_of_errsLate hcall hlate
      · simp only [hlate, not_false_eq_true, true_and, not_forall, not_not] at hnot
        obtain ⟨hdone, hreads, other, hother, hruns⟩ := hnot
        exact (h.unsettles_of_reads hcall hdone hreads hother hruns).after_step
    | added | removed | notified => exact absurd trivial hdisturbed
  | enqueueRetries | cancelRetries | elapse => exact absurd trivial hdisturbed

/-- **Every disturbance can do harm.** After the first step that disturbs the job of a retry, it
depends on the replies and on the order of turns whether statuses are terminal, also if there are
no more disturbances. -/
theorem exists_unsettled (hfresh : FreshIds db) (hrow : ∃ row, db.retries.get id = some row)
    (hundisturbed : Along (retryStep env) (Undisturbed id) (.idle db) inputs)
    (hdisturbed : ¬ Undisturbed id (after (retryStep env) (.idle db) inputs) input) :
    ∃ more, Along (retryStep env) (Undisturbed id)
        (after (retryStep env) (.idle db) (inputs ++ [input])) more ∧
      ¬ Onwards (retryStep env) (fun p q => Settles id p.shared q.shared) (.idle db)
        (inputs ++ input :: more) := by
  have hstart : Settled id (.idle db) :=
    ⟨Pool.holds_idle hfresh, hrow, fun i call hcall => by simp [Pool.idle] at hcall⟩
  have hsettled : Settled id (after (retryStep env) (.idle db) inputs) :=
    hundisturbed.invariant (fun _ _ h halone => h.step env halone) hstart
  obtain ⟨more, halone, hmore⟩ : UnsettlesAfter env id (after (retryStep env) (.idle db) inputs)
      input := hsettled.unsettles_of_disturbed hdisturbed
  refine ⟨more, ?_, fun honwards => hmore honwards.of_append⟩
  rwa [after_append, after_cons, after_nil]

end SorobanPay.RetryQueue
