import Mathlib.Data.Bool.Count
import SorobanPay.Backend.WebhookWorker
import SorobanPay.Foundation.Listing

/-!
# The attempts at a delivery

A delivery is to be posted at most `maxAttempts` times, with growing delays between the attempts,
and to be given up as dead when all of them have failed. The number of an attempt is read from the
row and written back as it is, so that it is 1 for ever: no attempt is the last one.
`attempt_bound_iff` says that a delivery whose calls do not overlap is dealt with as described
exactly as long as fewer than `maxAttempts` of its POSTs fail.

## Main definitions

* `AttemptBound`: a delivery is dealt with as described.
* `Alone`: no worker looks at a delivery that another call has yet to deal with.
* `FailsLast`: a POST fails that should have been the last one.

## Main results

* `attempt_bound_iff`: when a delivery is dealt with as described.
-/

set_option autoImplicit false

namespace SorobanPay.WebhookWorker

open Foundation

variable {w w' : World} {call : Call} {reply : Reply} {id : ℕ} {p : Pool World Call}

/-! ### What is asked for -/

/-- Some `maxAttempts` consecutive results are failures. -/
def FailedInARow (rs : List Bool) : Prop := List.replicate maxAttempts false <:+: rs

instance (rs : List Bool) : Decidable (FailedInARow rs) := inferInstanceAs (Decidable (_ <:+: _))

/-- After the `k`-th failure, the next POST waits for the `k`-th delay, if there are more attempts.
-/
def Spaced (es : List Exchange) : Prop :=
  ∀ pre deliveryId time post, es = pre ++ .answered deliveryId time false :: post →
    (results pre).count false + 1 < maxAttempts → ∀ job time', .posted job time' ∈ post →
      time + retryDelaysMs.getD ((results pre).count false) 0 ≤ time'

/-- The delivery is posted at most `maxAttempts` times, with delays, is dead exactly if
`maxAttempts` consecutive POSTs have failed, and is delivered exactly if one has succeeded. -/
structure AttemptBound (id : ℕ) (w : World) : Prop where
  posts_le : posts (w.exchangesOf id) ≤ maxAttempts
  dead_iff : ∀ row, w.deliveries.get id = some row →
    (row.status = .dead ↔ FailedInARow (results (w.exchangesOf id)))
  delivered_iff : ∀ row, w.deliveries.get id = some row →
    (row.status = .delivered ↔ true ∈ results (w.exchangesOf id))
  spaced : Spaced (w.exchangesOf id)

/-- The deliveries that a call has yet to deal with. -/
def Call.jobs : Call → List DeliveryJob
  | .attempt job rest | .posting job rest | .updating job _ _ rest => job :: rest
  | .lookup _ | .insert _ _ _ | .select | .ended => []

/-- The call has yet to deal with the delivery. -/
def Call.Handles (id : ℕ) (call : Call) : Prop := id ∈ call.jobs.map (·.deliveryId)

instance : DecidablePred (Call.Handles id) := fun _ => inferInstanceAs (Decidable (_ ∈ _))

/-- When a worker selects the delivery, no call has yet to deal with it. -/
def Alone (id : ℕ) (p : Pool World Call) : Input → Prop
  | .answer i .done => p.calls[i]? = some .select →
      id ∈ (dueDeliveries p.shared).map (·.deliveryId) → ∀ call ∈ p.calls, ¬ call.Handles id
  | _ => True

instance : (input : Input) → Decidable (Alone id p input)
  | .answer _ .done => inferInstanceAs (Decidable (_ → _ → ∀ call ∈ p.calls, _))
  | .answer _ (.config _) | .answer _ (.http _) => instDecidableTrue
  | .enqueue _ | .processQueue | .elapse _ => instDecidableTrue

/-- The failure of a POST is written for the delivery, after `maxAttempts - 1` others. -/
def FailsLast (id : ℕ) (p : Pool World Call) : Input → Prop
  | .answer i .done => ∃ job result time rest, p.calls[i]? = some (.updating job result time rest) ∧
      job.deliveryId = id ∧ ¬ result.Ok ∧
        maxAttempts ≤ (results (p.shared.exchangesOf id)).count false + 1
  | _ => False

/-! ### What is kept -/

/-- When an exchange has taken place. -/
def Exchange.time : Exchange → ℕ
  | .posted _ time | .answered _ time _ => time

/-- After a failure the next POST waits. -/
def Exchange.Waits (delay : ℕ) (e e' : Exchange) : Prop :=
  ∀ deliveryId time job time', e = .answered deliveryId time false → e' = .posted job time' →
    time + delay ≤ time'

/-- The row of the delivery and what has been exchanged about it, as long as fewer than
`maxAttempts` POSTs have failed. -/
structure RowInv (id : ℕ) (w : World) : Prop where
  fresh : FreshIds w
  absent : w.deliveries.get id = none → w.exchangesOf id = []
  present : ∀ row, w.deliveries.get id = some row → row.attempt = 1 ∧
    (row.status = .pending ∧ true ∉ results (w.exchangesOf id) ∨
      row.status = .delivered ∧ (results (w.exchangesOf id)).count true = 1)
  failures : (results (w.exchangesOf id)).count false < maxAttempts
  stamps : ∀ e ∈ w.exchangesOf id, e.time ≤ w.now
  spaced : (w.exchangesOf id).Pairwise (Exchange.Waits (delayAfter 1))
  waits : ∀ row, w.deliveries.get id = some row → row.status = .pending →
    ∀ deliveryId time, .answered deliveryId time false ∈ w.exchangesOf id →
      ∃ next, row.nextRetryAt = some next ∧ time + delayAfter 1 ≤ next

/-- What is kept of each call: it deals with a delivery once, which is due, and has read its
attempt number; an answer is later than what has been exchanged before. -/
structure CallInv (id : ℕ) (w : World) (call : Call) : Prop where
  nodup : (call.jobs.map (·.deliveryId)).Nodup
  attempt : ∀ job ∈ call.jobs, job.deliveryId = id → job.attemptNumber = 1
  due : call.Handles id → ∃ row, w.deliveries.get id = some row ∧ row.Due w.now
  answered : ∀ job result time rest, call = .updating job result time rest → job.deliveryId = id →
    time ≤ w.now ∧ ∀ e ∈ w.exchangesOf id, e.time ≤ time

/-- A POST of the call is under way, or its outcome has to be written. -/
def Call.InFlight (id : ℕ) : Call → Bool
  | .posting job _ | .updating job _ _ _ => job.deliveryId = id
  | _ => false

theorem Call.handles_of_inFlight (h : call.InFlight id = true) : call.Handles id := by
  cases call with
  | posting job rest | updating job result time rest =>
    have hid : job.deliveryId = id := by simpa [Call.InFlight] using h
    simp [Call.Handles, Call.jobs, hid]
  | lookup | insert | select | attempt | ended => cases h

/-- The invariant of the deliveries and of the calls. -/
structure AttemptInv (id : ℕ) (p : Pool World Call) : Prop where
  holds : p.Holds (RowInv id) (CallInv id) fun _ call call' =>
    ¬ (call.Handles id ∧ call'.Handles id)
  count : posts (p.shared.exchangesOf id) =
    (results (p.shared.exchangesOf id)).length + p.calls.countP (Call.InFlight id)

/-! ### What follows for the delivery -/

theorem not_failedInARow {rs : List Bool} (h : rs.count false < maxAttempts) :
    ¬ FailedInARow rs := by
  intro hrow
  have hle := hrow.sublist.count_le false
  rw [List.count_replicate_self] at hle
  omega

theorem spaced_of_waits {es : List Exchange} (h : es.Pairwise (Exchange.Waits (delayAfter 1))) :
    Spaced es := by
  rintro pre deliveryId time post rfl hk job time' hpost
  have hwait := (List.pairwise_cons.1 (List.pairwise_append.1 h).2.1).1 _ hpost
  have hdelay : retryDelaysMs.getD ((results pre).count false) 0 ≤ delayAfter 1 := by
    have hk' : (results pre).count false = 0 ∨ (results pre).count false = 1 := by
      have : (results pre).count false + 1 < 3 := hk
      omega
    rcases hk' with hk' | hk' <;> rw [hk'] <;> decide
  exact (Nat.add_le_add_left hdelay time).trans (hwait _ _ _ _ rfl rfl)

theorem AttemptInv.bound (h : AttemptInv id p) : AttemptBound id p.shared := by
  have hrow := h.holds.shared
  have hcount := List.count_false_add_count_true (results (p.shared.exchangesOf id))
  have hfailures := hrow.failures
  refine ⟨?_, fun row hget => ?_, fun row hget => ?_, spaced_of_waits hrow.spaced⟩
  · cases hget : p.shared.deliveries.get id with
    | none =>
      rw [hrow.absent hget]
      exact Nat.zero_le _
    | some row =>
      have hflight : p.calls.countP (Call.InFlight id) ≤ 1 :=
        h.holds.countP_le_one fun _ _ hapart hboth => 
          hapart ⟨Call.handles_of_inFlight hboth.1, Call.handles_of_inFlight hboth.2⟩
      rcases (hrow.present row hget).2 with ⟨-, hnone⟩ | ⟨hdelivered, hone⟩
      · have htrue := List.count_eq_zero.2 hnone
        rw [h.count]
        omega
      · have hzero : p.calls.countP (Call.InFlight id) = 0 := by
          refine List.countP_eq_zero.2 fun call hcall hflight => ?_
          obtain ⟨i, hi⟩ := List.mem_iff_getElem?.1 hcall
          obtain ⟨row', hget', hdue⟩ :=
            (h.holds.each i call hi).due (Call.handles_of_inFlight hflight)
          rw [hget, Option.some.injEq] at hget'
          rw [← hget', WebhookDelivery.Due, hdelivered] at hdue
          cases hdue.1
        rw [h.count]
        omega
  · refine iff_of_false (fun hdead => ?_) (not_failedInARow hrow.failures)
    rcases (hrow.present row hget).2 with ⟨hstatus, -⟩ | ⟨hstatus, -⟩ <;>
      cases hdead.symm.trans hstatus
  · rcases (hrow.present row hget).2 with ⟨hstatus, hnone⟩ | ⟨hstatus, hone⟩
    · exact iff_of_false (fun hdelivered => by cases hdelivered.symm.trans hstatus) hnone
    · exact iff_of_true hstatus (List.count_pos_iff.1 (by omega))

/-! ### What a turn keeps -/

@[simp] theorem jobs_ofJobs (jobs : List DeliveryJob) : (Call.ofJobs jobs).jobs = jobs := by
  cases jobs <;> rfl

@[simp] theorem inFlight_ofJobs (jobs : List DeliveryJob) :
    (Call.ofJobs jobs).InFlight id = false := by
  cases jobs <;> rfl

/-- What is selected is due, and read from its row. -/
theorem mem_dueDeliveries {job : DeliveryJob} (h : job ∈ dueDeliveries w) :
    ∃ row, w.deliveries.get job.deliveryId = some row ∧ row.Due w.now ∧
      job.attemptNumber = row.attempt := by
  obtain ⟨⟨k, row⟩, hentry, rfl⟩ := List.mem_map.1 h
  have hmem := List.mem_of_mem_take hentry
  rw [List.mem_insertionSort, List.mem_filter, InsertionMap.mem_entries_iff] at hmem
  exact ⟨row, hmem.1, of_decide_eq_true hmem.2, rfl⟩

/-- No delivery is selected twice. -/
theorem nodup_dueDeliveries : ((dueDeliveries w).map (·.deliveryId)).Nodup := by
  have hsorted : (((w.deliveries.entries.filter fun entry => entry.2.Due w.now).insertionSort
      fun entry entry' => entry.2.createdAt ≤ entry'.2.createdAt).map Prod.fst).Nodup :=
    ((List.perm_insertionSort _ _).map _).nodup_iff.2
      (w.deliveries.nodup.sublist (List.filter_sublist.map _))
  rw [dueDeliveries, List.map_map]
  exact hsorted.sublist ((List.take_sublist _ _).map _)

/-- The row and the exchanges of the delivery are as they were. -/
structure SameView (id : ℕ) (w w' : World) : Prop where
  fresh : FreshIds w'
  get_eq : w'.deliveries.get id = w.deliveries.get id
  exchanges_eq : w'.exchangesOf id = w.exchangesOf id
  now_le : w.now ≤ w'.now

theorem WebhookDelivery.Due.mono {row : WebhookDelivery} {now now' : ℕ} (h : row.Due now)
    (hle : now ≤ now') : row.Due now' :=
  ⟨h.1, fun time htime => (h.2 time htime).trans hle⟩

theorem RowInv.congr (h : RowInv id w) (hview : SameView id w w') : RowInv id w' := by
  obtain ⟨hfresh, hget, hes, hnow⟩ := hview
  refine ⟨hfresh, ?_, ?_, ?_, ?_, ?_, ?_⟩
  · rw [hget, hes]
    exact h.absent
  · rw [hget, hes]
    exact h.present
  · rw [hes]
    exact h.failures
  · rw [hes]
    exact fun e he => (h.stamps e he).trans hnow
  · rw [hes]
    exact h.spaced
  · rw [hget, hes]
    exact h.waits

theorem CallInv.congr (h : CallInv id w call) (hview : SameView id w w') : CallInv id w' call := by
  obtain ⟨-, hget, hes, hnow⟩ := hview
  refine ⟨h.nodup, h.attempt, fun hcall => ?_, fun job result time rest hcall hid => ?_⟩
  · obtain ⟨row, hrow, hdue⟩ := h.due hcall
    exact ⟨row, by rw [hget, hrow], hdue.mono hnow⟩
  · obtain ⟨htime, hstamps⟩ := h.answered job result time rest hcall hid
    rw [hes]
    exact ⟨htime.trans hnow, hstamps⟩

/-- A call that does not deal with the delivery does not care about it. -/
theorem CallInv.of_not_handles (h : CallInv id w call) (hnot : ¬ call.Handles id) :
    CallInv id w' call := by
  have hjobs : ∀ job ∈ call.jobs, job.deliveryId ≠ id :=
    fun job hjob hid => hnot (List.mem_map.2 ⟨job, hjob, hid⟩)
  refine ⟨h.nodup, fun job hjob hid => absurd hid (hjobs job hjob), fun hcall => absurd hcall hnot,
    fun job result time rest hcall hid => ?_⟩
  subst hcall
  exact absurd hid (hjobs job List.mem_cons_self)

/-- A call that goes on with some of its deliveries. -/
theorem CallInv.goOn {call' : Call} (h : CallInv id w call) (hjobs : call'.jobs.Sublist call.jobs)
    (hnot : ∀ job result time rest, call' ≠ .updating job result time rest) :
    CallInv id w call' := by
  refine ⟨h.nodup.sublist (hjobs.map _), fun job hjob => h.attempt job (hjobs.subset hjob),
    fun hcall => h.due ((hjobs.map _).subset hcall), fun job result time rest hcall => ?_⟩
  exact absurd hcall (hnot job result time rest)

theorem ofJobs_ne_updating {jobs : List DeliveryJob} {job : DeliveryJob} {result : HttpResult}
    {time : ℕ} {rest : List DeliveryJob} : Call.ofJobs jobs ≠ .updating job result time rest := by
  cases jobs <;> exact nofun

/-- A worker selects deliveries. -/
theorem RowInv.select (h : RowInv id w) : CallInv id w (.ofJobs (dueDeliveries w)) := by
  refine ⟨?_, fun job hjob hid => ?_, fun hcall => ?_, fun job result time rest hcall => ?_⟩
  · rw [jobs_ofJobs]
    exact nodup_dueDeliveries
  · rw [jobs_ofJobs] at hjob
    obtain ⟨row, hrow, -, hattempt⟩ := mem_dueDeliveries hjob
    rw [hattempt]
    exact (h.present row (hid ▸ hrow)).1
  · rw [Call.Handles, jobs_ofJobs] at hcall
    obtain ⟨job, hjob, rfl⟩ := List.mem_map.1 hcall
    obtain ⟨row, hrow, hdue, -⟩ := mem_dueDeliveries hjob
    exact ⟨row, hrow, hdue⟩
  · exact absurd hcall ofJobs_ne_updating

/-- A delivery is stored. -/
theorem RowInv.create (h : RowInv id w) (merchant url : String) (eventType : EventType)
    (payload : WebhookPayload) :
    RowInv id (createDeliveryRecord w merchant eventType payload url) := by
  by_cases hid : id = w.nextId
  · subst hid
    have hes := h.absent h.fresh.get_eq_none
    obtain ⟨row, hget, hattempt, hdue⟩ :=
      get_createDeliveryRecord_self (w := w) merchant url eventType payload
    have hes' : (createDeliveryRecord w merchant eventType payload url).exchangesOf w.nextId = [] :=
      hes
    refine ⟨h.fresh.create _ _ _ _, fun hnone => ?_, fun row' hrow => ?_, ?_, ?_, ?_, ?_⟩
    · cases hget.symm.trans hnone
    · obtain rfl := Option.some.inj (hget.symm.trans hrow)
      exact ⟨hattempt, .inl ⟨hdue.1, by rw [hes']; exact List.not_mem_nil⟩⟩
    · rw [hes']
      decide
    · rw [hes']
      exact fun _ he => absurd he List.not_mem_nil
    · rw [hes']
      exact .nil
    · rw [hes']
      exact fun _ _ _ _ _ he => absurd he List.not_mem_nil
  · exact h.congr ⟨h.fresh.create _ _ _ _, get_createDeliveryRecord hid, rfl, Nat.le_refl _⟩

/-- A POST is made for a delivery that is due. -/
theorem RowInv.post (h : RowInv id w) {job : DeliveryJob} (hid : job.deliveryId = id)
    {row : WebhookDelivery} (hrow : w.deliveries.get id = some row) (hdue : row.Due w.now) :
    RowInv id { w with exchanges := w.exchanges ++ [.posted job w.now] } := by
  have hes : World.exchangesOf { w with exchanges := w.exchanges ++ [.posted job w.now] } id =
      w.exchangesOf id ++ [.posted job w.now] := by
    rw [exchangesOf_append rfl, Exchange.deliveryId_posted, if_pos hid]
  refine ⟨h.fresh, fun hnone => ?_, ?_, ?_, ?_, ?_, ?_⟩
  · cases hrow.symm.trans hnone
  · rw [hes, results_append_posted]
    exact h.present
  · rw [hes, results_append_posted]
    exact h.failures
  · rw [hes]
    refine List.forall_mem_append.2 ⟨h.stamps, List.forall_mem_singleton.2 (Nat.le_refl _)⟩
  · rw [hes]
    refine List.pairwise_append.2 ⟨h.spaced, List.pairwise_singleton _ _, fun e he e' he' => ?_⟩
    rintro deliveryId time job' time' rfl rfl
    obtain ⟨next, hnext, hle⟩ := h.waits row hrow hdue.1 deliveryId time he
    obtain ⟨-, rfl⟩ := Exchange.posted.inj (List.mem_singleton.1 he')
    exact hle.trans (hdue.2 next hnext)
  · rw [hes]
    intro row' hrow' hpending deliveryId time he
    refine h.waits row' hrow' hpending deliveryId time ?_
    simpa using he

/-- The first attempt, which every attempt takes itself for, is not the last one. -/
theorem attemptOutcome_one (time : ℕ) (result : HttpResult) :
    (attemptOutcome 1 time result).status = (if result.Ok then .delivered else .pending) ∧
      (¬ result.Ok → (attemptOutcome 1 time result).nextRetryAt = some (time + delayAfter 1)) := by
  have hnot : ¬ maxAttempts ≤ 1 := by decide
  by_cases hok : result.Ok
  · simp [attemptOutcome, hok]
  · simp [attemptOutcome, hok, hnot]

/-- The outcome of a POST is written, unless it is the last failure there should be. -/
theorem RowInv.update (h : RowInv id w) {job : DeliveryJob} {result : HttpResult} {time : ℕ}
    {rest : List DeliveryJob} (hcall : CallInv id w (.updating job result time rest))
    (hid : job.deliveryId = id)
    (hlast : ¬ result.Ok → (results (w.exchangesOf id)).count false + 1 < maxAttempts) :
    RowInv id { updateDeliveryRecord w job.deliveryId
        (attemptOutcome job.attemptNumber time result) with
      exchanges := w.exchanges ++ [.answered job.deliveryId time (decide result.Ok)] } := by
  obtain ⟨row, hrow, hdue⟩ := hcall.due (List.mem_map.2 ⟨job, List.mem_cons_self, hid⟩)
  obtain ⟨htime, hstamps⟩ := hcall.answered job result time rest rfl hid
  have hnone : true ∉ results (w.exchangesOf id) := by
    rcases (h.present row hrow).2 with ⟨-, hnone⟩ | ⟨hdelivered, -⟩
    · exact hnone
    · cases hdelivered.symm.trans hdue.1
  rw [hcall.attempt job List.mem_cons_self hid, hid]
  obtain ⟨hstatus, hnext⟩ := attemptOutcome_one time result
  generalize hw' : ({ updateDeliveryRecord w id (attemptOutcome 1 time result) with
      exchanges := w.exchanges ++ [.answered id time (decide result.Ok)] } : World) = w'
  have hget : w'.deliveries.get id =
      some (row.update (attemptOutcome 1 time result) w.now) := by
    rw [← hw', get_updateDeliveryRecord, if_pos rfl, hrow, Option.map_some]
  have hes : w'.exchangesOf id =
      w.exchangesOf id ++ [.answered id time (decide result.Ok)] := by
    rw [← hw', exchangesOf_append rfl, Exchange.deliveryId_answered, if_pos rfl]
  have hnow : w'.now = w.now := by
    rw [← hw']
    rfl
  refine ⟨hw' ▸ h.fresh.update _ _, fun hnone => ?_, fun row' hrow' => ?_, ?_, ?_, ?_, ?_⟩
  · cases hget.symm.trans hnone
  · obtain rfl := Option.some.inj (hget.symm.trans hrow')
    refine ⟨rfl, ?_⟩
    rw [update_status, hstatus, hes, results_append_answered]
    by_cases hok : result.Ok
    · exact .inr ⟨if_pos hok, by simp [hok, List.count_eq_zero.2 hnone]⟩
    · exact .inl ⟨if_neg hok, by simp [hok, hnone]⟩
  · rw [hes, results_append_answered, List.count_append]
    by_cases hok : result.Ok
    · simpa [hok] using h.failures
    · simpa [hok] using hlast hok
  · rw [hes, hnow]
    exact List.forall_mem_append.2 ⟨h.stamps, List.forall_mem_singleton.2 htime⟩
  · rw [hes]
    refine List.pairwise_append.2 ⟨h.spaced, List.pairwise_singleton _ _, fun e he e' he' => ?_⟩
    rintro _ _ _ _ - rfl
    cases List.mem_singleton.1 he'
  · rw [hes]
    intro row' hrow' hpending deliveryId time' he
    obtain rfl := Option.some.inj (hget.symm.trans hrow')
    rw [update_status, hstatus] at hpending
    have hok : ¬ result.Ok := fun hok => by simp [hok] at hpending
    refine ⟨time + delayAfter 1, hnext hok, Nat.add_le_add_right ?_ _⟩
    rcases List.mem_append.1 he with he | he
    · exact hstamps _ he
    · obtain ⟨-, rfl, -⟩ := Exchange.answered.inj (List.mem_singleton.1 he)
      exact Nat.le_refl _

/-- What a turn from `w`, `call` to `w'`, `call'` keeps. -/
structure TurnKeeps (id : ℕ) (w : World) (call : Call) (w' : World) (call' : Call) : Prop where
  row : RowInv id w'
  own : CallInv id w' call'
  others : ∀ other, CallInv id w other → ¬ (call.Handles id ∧ other.Handles id) →
    CallInv id w' other
  handles : call'.Handles id → call.Handles id ∨
    call = .select ∧ id ∈ (dueDeliveries w).map (·.deliveryId) ∨ w.deliveries.get id = none
  count : posts (w'.exchangesOf id) + (results (w.exchangesOf id)).length +
      (if call.InFlight id then 1 else 0) =
    posts (w.exchangesOf id) + (results (w'.exchangesOf id)).length +
      if call'.InFlight id then 1 else 0

/-- A turn that the delivery does not notice. -/
theorem TurnKeeps.of_sameView {call' : Call} (hrow : RowInv id w) (hview : SameView id w w')
    (hown : CallInv id w call')
    (hhandles : call'.Handles id → call.Handles id ∨
      call = .select ∧ id ∈ (dueDeliveries w).map (·.deliveryId) ∨ w.deliveries.get id = none)
    (hflight : call'.InFlight id = call.InFlight id) : TurnKeeps id w call w' call' :=
  ⟨hrow.congr hview, hown.congr hview, fun _ hother _ => hother.congr hview, hhandles, by
    rw [hview.exchanges_eq, hflight]⟩

theorem SameView.refl (h : RowInv id w) : SameView id w w := ⟨h.fresh, rfl, rfl, Nat.le_refl _⟩

theorem turnKeeps_stutter (hrow : RowInv id w) (hcall : CallInv id w call) :
    TurnKeeps id w call w call :=
  .of_sameView hrow (.refl hrow) hcall .inl rfl

theorem turnKeeps_insert (hrow : RowInv id w) (merchant : String) (eventType : EventType)
    (event : DecodedEvent) (url : String) (payload : WebhookPayload) :
    TurnKeeps id w (.insert event url payload)
      (createDeliveryRecord w merchant eventType payload url)
      (.attempt ⟨w.nextId, url, payload, 1⟩ []) := by
  have hcreated := hrow.create merchant url eventType payload
  have hnodup : ([(⟨w.nextId, url, payload, 1⟩ : DeliveryJob)].map (·.deliveryId)).Nodup :=
    List.nodup_singleton _
  have hattempt : ∀ job ∈ [(⟨w.nextId, url, payload, 1⟩ : DeliveryJob)], job.deliveryId = id →
      job.attemptNumber = 1 := by
    rintro job hjob -
    rw [List.mem_singleton.1 hjob]
  by_cases hid : id = w.nextId
  · subst hid
    have hnone := hrow.fresh.get_eq_none
    obtain ⟨row, hget, -, hdue⟩ :=
      get_createDeliveryRecord_self (w := w) merchant url eventType payload
    refine ⟨hcreated, ⟨hnodup, hattempt, fun _ => ⟨row, hget, hdue⟩, nofun⟩,
      fun other hother _ => hother.of_not_handles fun hhandles => ?_,
      fun _ => .inr (.inr hnone), rfl⟩
    obtain ⟨row, hget, -⟩ := hother.due hhandles
    cases hnone.symm.trans hget
  · have hnot : ¬ (Call.attempt ⟨w.nextId, url, payload, 1⟩ []).Handles id := by
      rw [Call.Handles, Call.jobs, List.map_singleton, List.mem_singleton]
      exact hid
    have hown : CallInv id w (.attempt ⟨w.nextId, url, payload, 1⟩ []) :=
      ⟨hnodup, hattempt, fun h => absurd h hnot, nofun⟩
    refine .of_sameView hrow ⟨hcreated.fresh, get_createDeliveryRecord hid, rfl, Nat.le_refl _⟩ hown
      (fun h => absurd h hnot) rfl

theorem turnKeeps_select (hrow : RowInv id w) :
    TurnKeeps id w .select w (.ofJobs (dueDeliveries w)) := by
  refine .of_sameView hrow (.refl hrow) hrow.select (fun h => .inr (.inl ⟨rfl, ?_⟩))
    (inFlight_ofJobs _)
  rwa [Call.Handles, jobs_ofJobs] at h

theorem turnKeeps_attempt (hrow : RowInv id w) {job : DeliveryJob} {rest : List DeliveryJob}
    (hcall : CallInv id w (.attempt job rest)) :
    TurnKeeps id w (.attempt job rest) { w with exchanges := w.exchanges ++ [.posted job w.now] }
      (.posting job rest) := by
  have hown : CallInv id w (.posting job rest) := hcall.goOn (List.Sublist.refl _) nofun
  by_cases hid : job.deliveryId = id
  · have hes : World.exchangesOf { w with exchanges := w.exchanges ++ [.posted job w.now] } id =
        w.exchangesOf id ++ [.posted job w.now] := by
      rw [exchangesOf_append rfl, Exchange.deliveryId_posted, if_pos hid]
    have hhandles : (Call.attempt job rest).Handles id :=
      List.mem_map.2 ⟨job, List.mem_cons_self, hid⟩
    obtain ⟨row, hget, hdue⟩ := hcall.due hhandles
    refine ⟨hrow.post hid hget hdue, ⟨hown.nodup, hown.attempt, fun _ => ⟨row, hget, hdue⟩, nofun⟩,
      fun other hother hapart => hother.of_not_handles fun h => hapart ⟨hhandles, h⟩,
      fun _ => .inl hhandles, ?_⟩
    rw [hes, posts_append_posted, results_append_posted]
    simp [Call.InFlight, hid]
    omega
  · refine .of_sameView hrow ⟨hrow.fresh, rfl, ?_, Nat.le_refl _⟩ hown .inl ?_
    · rw [exchangesOf_append rfl, Exchange.deliveryId_posted, if_neg hid]
    · simp [Call.InFlight, hid]

theorem turnKeeps_posting (hrow : RowInv id w) {job : DeliveryJob} {rest : List DeliveryJob}
    (result : HttpResult) (hcall : CallInv id w (.posting job rest)) :
    TurnKeeps id w (.posting job rest) w (.updating job result w.now rest) := by
  refine .of_sameView hrow (.refl hrow) ⟨hcall.nodup, hcall.attempt, hcall.due, ?_⟩ .inl rfl
  rintro _ _ _ _ ⟨⟩ -
  exact ⟨Nat.le_refl _, hrow.stamps⟩

theorem turnKeeps_updating (hrow : RowInv id w) {job : DeliveryJob} {result : HttpResult}
    {time : ℕ} {rest : List DeliveryJob} (hcall : CallInv id w (.updating job result time rest))
    (hlast : job.deliveryId = id → ¬ result.Ok →
      (results (w.exchangesOf id)).count false + 1 < maxAttempts) :
    TurnKeeps id w (.updating job result time rest)
      { updateDeliveryRecord w job.deliveryId (attemptOutcome job.attemptNumber time result) with
        exchanges := w.exchanges ++ [.answered job.deliveryId time (decide result.Ok)] }
      (.ofJobs rest) := by
  have hown : CallInv id w (.ofJobs rest) := by
    refine hcall.goOn ?_ fun _ _ _ _ => ofJobs_ne_updating
    rw [jobs_ofJobs]
    exact List.sublist_cons_self _ _
  have hsub : (Call.ofJobs rest).Handles id → (Call.updating job result time rest).Handles id := by
    rw [Call.Handles, jobs_ofJobs]
    exact List.mem_cons_of_mem _
  by_cases hid : job.deliveryId = id
  · have hhandles : (Call.updating job result time rest).Handles id :=
      List.mem_map.2 ⟨job, List.mem_cons_self, hid⟩
    have hnot : ¬ (Call.ofJobs rest).Handles id := by
      rw [Call.Handles, jobs_ofJobs, ← hid]
      exact (List.nodup_cons.1 hcall.nodup).1
    refine ⟨hrow.update hcall hid (hlast hid), hown.of_not_handles hnot,
      fun other hother hapart => hother.of_not_handles fun h => hapart ⟨hhandles, h⟩,
      fun h => absurd h hnot, ?_⟩
    rw [exchangesOf_append rfl, Exchange.deliveryId_answered, if_pos hid, posts_append_answered,
      results_append_answered, inFlight_ofJobs]
    simp [Call.InFlight, hid]
    omega
  · refine .of_sameView hrow ⟨hrow.fresh.update _ _, ?_, ?_, ?_⟩ hown (fun h => .inl (hsub h)) ?_
    · exact get_updateDeliveryRecord.trans (if_neg fun h => hid h.symm)
    · rw [exchangesOf_append rfl, Exchange.deliveryId_answered, if_neg hid]
    · exact Nat.le_refl _
    · rw [inFlight_ofJobs]
      simp [Call.InFlight, hid]

/-- **What a turn keeps.** Every turn keeps what is known of the delivery and of the calls, unless
it writes the last failure there should be. -/
theorem turnKeeps_callTurn (hrow : RowInv id w) (hcall : CallInv id w call)
    (hlast : ∀ job result time rest, call = .updating job result time rest → reply = .done →
      job.deliveryId = id → ¬ result.Ok →
        (results (w.exchangesOf id)).count false + 1 < maxAttempts) :
    TurnKeeps id w call (callTurn w call reply).1 (callTurn w call reply).2 := by
  have hstutter := turnKeeps_stutter hrow hcall
  cases call with
  | lookup event =>
    cases reply with
    | config found =>
      cases found <;>
        exact .of_sameView hrow (.refl hrow) ⟨List.nodup_nil, nofun, nofun, nofun⟩ nofun rfl
    | done | http => exact hstutter
  | insert event url payload =>
    cases reply with
    | done => exact turnKeeps_insert hrow _ _ _ _ _
    | config | http => exact hstutter
  | select =>
    cases reply with
    | done => exact turnKeeps_select hrow
    | config | http => exact hstutter
  | attempt job rest =>
    cases reply with
    | done => exact turnKeeps_attempt hrow hcall
    | config | http => exact hstutter
  | posting job rest =>
    cases reply with
    | http result => exact turnKeeps_posting hrow result hcall
    | config | done => exact hstutter
  | updating job result time rest =>
    cases reply with
    | done => exact turnKeeps_updating hrow hcall (hlast job result time rest rfl rfl)
    | config | http => exact hstutter
  | ended => cases reply <;> exact hstutter

/-! ### When a delivery is dealt with as described -/

theorem AttemptInv.step {input : Input} (h : AttemptInv id p) (halone : Alone id p input)
    (hlast : ¬ FailsLast id p input) : AttemptInv id (workerStep p input) := by
  cases input with
  | enqueue | processQueue =>
    refine ⟨h.holds.start ⟨List.nodup_nil, nofun, nofun, nofun⟩ fun _ _ _ => ⟨?_, ?_⟩, ?_⟩
    · rintro ⟨hnew, -⟩
      cases hnew
    · rintro ⟨-, hnew⟩
      cases hnew
    rw [workerStep, Pool.shared_start, Pool.countP_start, h.count]
    rfl
  | elapse ms =>
    have hview : SameView id p.shared { p.shared with now := p.shared.now + ms } :=
      ⟨h.holds.shared.fresh, rfl, rfl, Nat.le_add_right _ _⟩
    exact ⟨Pool.Holds.act (f := fun w : World => { w with now := w.now + ms }) h.holds
      (h.holds.shared.congr hview) (fun _ _ hcall => hcall.congr hview) fun _ _ hapart => hapart,
      h.count⟩
  | answer i reply =>
    cases hcall : p.calls[i]? with
    | none =>
      rw [workerStep, Pool.resume_of_none hcall]
      exact h
    | some call =>
      have hturn : TurnKeeps id p.shared call (callTurn p.shared call reply).1
          (callTurn p.shared call reply).2 := by
        refine turnKeeps_callTurn h.holds.shared (h.holds.each i call hcall) ?_
        rintro job result time rest rfl rfl hid hok
        by_contra hmany
        exact hlast ⟨job, result, time, rest, hcall, hid, hok, not_lt.1 hmany⟩
      have hothers : ∀ (j : ℕ) (other : Call), j ≠ i → p.calls[j]? = some other →
          ¬ (call.Handles id ∧ other.Handles id) ∧
            ¬ ((callTurn p.shared call reply).2.Handles id ∧ other.Handles id) := by
        intro j other hj hother
        have hapart := h.holds.apart i j call other hj.symm hcall hother
        refine ⟨hapart, fun ⟨hown, hhandles⟩ => ?_⟩
        rcases hturn.handles hown with hold | ⟨rfl, hselected⟩ | hnone
        · exact hapart ⟨hold, hhandles⟩
        · cases reply with
          | done =>
            exact halone hcall hselected other (List.mem_of_getElem? hother) hhandles
          | config | http => exact nomatch hown
        · obtain ⟨row, hget, -⟩ := (h.holds.each j other hother).due hhandles
          cases hnone.symm.trans hget
      refine ⟨h.holds.resume (fun l hl => ?_) (fun l hl j other hj hother => ?_)
        fun _ _ _ _ hapart => hapart, ?_⟩
      · obtain rfl := Option.some.inj (hcall.symm.trans hl)
        exact ⟨hturn.row, hturn.own⟩
      · obtain rfl := Option.some.inj (hcall.symm.trans hl)
        obtain ⟨hapart, hapart'⟩ := hothers j other hj hother
        exact ⟨hturn.others other (h.holds.each j other hother) hapart, hapart',
          fun hboth => hapart' hboth.symm⟩
      · have hcount := hturn.count
        have hcalls := Pool.countP_resume callTurn reply (Call.InFlight id) hcall
        have hold := h.count
        rw [workerStep, Pool.shared_resume, hcall, Option.elim_some]
        omega

/-- A delivery that is dealt with as described has not seen the last failure. -/
theorem AttemptInv.not_failsLast {input : Input} (h : AttemptInv id p)
    (hnext : AttemptBound id (workerStep p input).shared) : ¬ FailsLast id p input := by
  cases input with
  | enqueue | processQueue | elapse => exact not_false
  | answer i reply =>
    cases reply with
    | config | http => exact not_false
    | done =>
      rintro ⟨job, result, time, rest, hcall, hid, hok, hmany⟩
      have hcallInv := h.holds.each i _ hcall
      obtain ⟨row, hget, hdue⟩ := hcallInv.due (List.mem_map.2 ⟨job, List.mem_cons_self, hid⟩)
      rw [workerStep, Pool.shared_resume, hcall, Option.elim_some, callTurn,
        hcallInv.attempt job List.mem_cons_self hid, hid] at hnext
      have hdead :=
        (hnext.dead_iff (row.update (attemptOutcome 1 time result) p.shared.now) ?_).2 ?_
      · rw [update_status, (attemptOutcome_one _ _).1, if_neg hok] at hdead
        cases hdead
      · rw [get_updateDeliveryRecord, if_pos rfl, hget, Option.map_some]
      · -- all results so far are failures, and with this one they are `maxAttempts`
        have hnone : true ∉ results (p.shared.exchangesOf id) := by
          rcases (h.holds.shared.present row hget).2 with ⟨-, hnone⟩ | ⟨hdelivered, -⟩
          · exact hnone
          · cases hdelivered.symm.trans hdue.1
        rw [exchangesOf_append rfl, Exchange.deliveryId_answered, if_pos rfl,
          results_append_answered]
        have hcount := List.count_false_add_count_true (results (p.shared.exchangesOf id))
        have htrue := List.count_eq_zero.2 hnone
        have hfailures := h.holds.shared.failures
        have hall : results (p.shared.exchangesOf id) ++ [decide result.Ok] =
            List.replicate maxAttempts false := by
          refine List.eq_replicate_iff.2 ⟨?_, fun b hb => ?_⟩
          · rw [List.length_append, List.length_singleton]
            omega
          · rcases List.mem_append.1 hb with hb | hb
            · cases b with
              | false => rfl
              | true => exact absurd hb hnone
            · rw [List.mem_singleton.1 hb]
              exact decide_eq_false hok
        exact hall ▸ List.infix_rfl

theorem attemptInv_start (id : ℕ) : AttemptInv id workerStart := by
  refine ⟨Pool.holds_idle ⟨?_, fun _ => rfl, ?_, ?_, ?_, .nil, ?_⟩, rfl⟩
  · exact fun _ _ h => by simp at h
  · exact fun _ h => by simp at h
  · exact Nat.succ_pos 2
  · exact fun _ h => absurd h List.not_mem_nil
  · exact fun _ h => by simp at h

/-- **When a delivery is dealt with as described.** In a run in which the calls that deal with a
delivery do not overlap, it is posted, delayed, given up and delivered as described in all states,
exactly if it never sees the last failure there should be. -/
theorem attempt_bound_iff {inputs : List Input}
    (halone : Along workerStep (Alone id) workerStart inputs) :
    Throughout workerStep (fun p => AttemptBound id p.shared) workerStart inputs ↔
      Along workerStep (fun p input => ¬ FailsLast id p input) workerStart inputs :=
  throughout_iff_along_of_admitted (AttemptInv id) (Alone id) (fun _ h => h.bound)
    (fun _ _ h halone hlast => h.step halone hlast) (fun _ _ h _ hnext => h.not_failsLast hnext)
    (attemptInv_start id) halone

/-- A delivery is enqueued, and its first POST has this result. -/
def sampleEnqueue (result : HttpResult) : List Input :=
  [.enqueue ⟨.executed, "GSUB", "GMER", "100", "tx1", 10, 0⟩,
    .answer 0 (.config (some ⟨"https://merchant.example/hook", "secret"⟩)), .answer 0 .done,
    .answer 0 .done, .answer 0 (.http result), .answer 0 .done]

/-- Ten seconds later the queue is processed, and the POST has this result. -/
def sampleRetry (i : ℕ) (result : HttpResult) : List Input :=
  [.elapse 10000, .processQueue, .answer i .done, .answer i .done, .answer i (.http result),
    .answer i .done]

theorem attempt_bound_sample :
    Throughout workerStep (fun p => AttemptBound 1 p.shared) workerStart
        (sampleEnqueue (.response 500 "") ++ sampleRetry 1 (.response 200 "")) ↔
      Along workerStep (fun p input => ¬ FailsLast 1 p input) workerStart
        (sampleEnqueue (.response 500 "") ++ sampleRetry 1 (.response 200 "")) :=
  attempt_bound_iff (by decide)

/-- After three failures the delivery is not dead. -/
theorem not_attemptBound_threeFailures :
    Along workerStep (Alone 1) workerStart (sampleEnqueue (.response 500 "") ++
        sampleRetry 1 (.response 500 "") ++ sampleRetry 2 (.response 500 "")) ∧
      ¬ Throughout workerStep (fun p => AttemptBound 1 p.shared) workerStart
        (sampleEnqueue (.response 500 "") ++ sampleRetry 1 (.response 500 "") ++
          sampleRetry 2 (.response 500 "")) := by
  refine ⟨by decide, fun h => ?_⟩
  have hbound := h _ [] (List.append_nil _).symm
  have hdead := (hbound.dead_iff _ rfl).2 (by decide)
  exact absurd hdead (by decide)

end SorobanPay.WebhookWorker
