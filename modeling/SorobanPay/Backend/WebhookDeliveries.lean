import SorobanPay.Backend.WebhookAttempts

/-!
# Deliveries that have been made

Once the row of a delivery says that it has been made, nothing should be done about it any more.
Rows are selected without being claimed, and written by their id whatever they say by then, so that
a delivery can be in the hands of several calls: of `enqueue`, which makes the first attempt at
once, and of the workers that find it in the table meanwhile. `delivered_final` says that delivered
is final when no worker selects a delivery that another call has yet to deal with.

## Main definitions

* `StaysDelivered`: what is delivered stays so, and is not posted again.
* `HandInv`: a call does not deal with what is delivered.

## Main results

* `turnLeaves_callTurn`: a turn leaves alone what is delivered.
* `delivered_final`: when delivered is final.
-/

set_option autoImplicit false

namespace SorobanPay.WebhookWorker

open Foundation

variable {w w' : World} {call : Call} {reply : Reply} {id : ℕ} {p : Pool World Call}

/-! ### Delivered is final -/

/-- The delivery has been made. -/
def IsDelivered (w : World) (id : ℕ) : Prop :=
  ∃ row, w.deliveries.get id = some row ∧ row.status = .delivered

/-- If the delivery has been made in the earlier state, it has been in the later one, with no
further POST. -/
def StaysDelivered (id : ℕ) (w w' : World) : Prop :=
  IsDelivered w id → IsDelivered w' id ∧ posts (w'.exchangesOf id) = posts (w.exchangesOf id)

theorem StaysDelivered.refl (w : World) : StaysDelivered id w w := fun h => ⟨h, rfl⟩

theorem StaysDelivered.trans {w'' : World} (h : StaysDelivered id w w')
    (h' : StaysDelivered id w' w'') : StaysDelivered id w w'' := by
  intro hid
  obtain ⟨hid', hposts⟩ := h hid
  obtain ⟨hid'', hposts'⟩ := h' hid'
  exact ⟨hid'', hposts'.trans hposts⟩

theorem staysDelivered_of_not (h : ¬ IsDelivered w id) : StaysDelivered id w w' :=
  fun hid => absurd hid h

/-! ### What a turn leaves alone -/

/-- A call deals with a delivery once, which is in the table and has not been made. -/
structure HandInv (id : ℕ) (w : World) (call : Call) : Prop where
  nodup : (call.jobs.map (·.deliveryId)).Nodup
  open_ : call.Handles id → ∃ row, w.deliveries.get id = some row ∧ row.status ≠ .delivered

theorem HandInv.not_isDelivered (h : HandInv id w call) (hhandles : call.Handles id) :
    ¬ IsDelivered w id := by
  rintro ⟨row, hget, hstatus⟩
  obtain ⟨row', hget', hopen⟩ := h.open_ hhandles
  obtain rfl := Option.some.inj (hget.symm.trans hget')
  exact hopen hstatus

/-- A call that does not deal with the delivery does not care about it. -/
theorem HandInv.of_not_handles (h : HandInv id w call) (hnot : ¬ call.Handles id) :
    HandInv id w' call := ⟨h.nodup, fun hhandles => absurd hhandles hnot⟩

theorem HandInv.congr (h : HandInv id w call)
    (hget : w'.deliveries.get id = w.deliveries.get id) : HandInv id w' call :=
  ⟨h.nodup, hget ▸ h.open_⟩

/-- A turn from `w`, `call` to `w'`, `call'` leaves alone what is delivered, and the calls that deal
with the delivery. -/
structure TurnLeaves (id : ℕ) (w : World) (call : Call) (w' : World) (call' : Call) : Prop where
  fresh : FreshIds w'
  stays : StaysDelivered id w w'
  own : HandInv id w' call'
  others : ∀ other, HandInv id w other → ¬ (call.Handles id ∧ other.Handles id) →
    HandInv id w' other
  handles : call'.Handles id → call.Handles id ∨
    call = .select ∧ id ∈ (dueDeliveries w).map (·.deliveryId) ∨ w.deliveries.get id = none

/-- A turn that the delivery does not notice. -/
theorem TurnLeaves.of_same {call' : Call} (hfresh : FreshIds w')
    (hget : w'.deliveries.get id = w.deliveries.get id)
    (hposts : posts (w'.exchangesOf id) = posts (w.exchangesOf id)) (hown : HandInv id w call')
    (hhandles : call'.Handles id → call.Handles id ∨
      call = .select ∧ id ∈ (dueDeliveries w).map (·.deliveryId) ∨ w.deliveries.get id = none) :
    TurnLeaves id w call w' call' := by
  refine ⟨hfresh, fun ⟨row, hrow, hstatus⟩ => ⟨⟨row, hget.trans hrow, hstatus⟩, hposts⟩,
    hown.congr hget, fun _ hother _ => hother.congr hget, hhandles⟩

theorem turnLeaves_insert (hfresh : FreshIds w) (event : DecodedEvent) (url : String)
    (payload : WebhookPayload) :
    TurnLeaves id w (.insert event url payload)
      (createDeliveryRecord w event.merchant event.type payload url)
      (.attempt ⟨w.nextId, url, payload, 1⟩ []) := by
  have hcreated := hfresh.create event.merchant url event.type payload
  by_cases hid : id = w.nextId
  · subst hid
    have hnone := hfresh.get_eq_none
    obtain ⟨row, hget, -, hdue⟩ :=
      get_createDeliveryRecord_self (w := w) event.merchant url event.type payload
    refine ⟨hcreated, staysDelivered_of_not ?_,
      ⟨List.nodup_singleton _, fun _ => ⟨row, hget, fun h => by cases hdue.1.symm.trans h⟩⟩,
      fun other hother _ => hother.of_not_handles fun hhandles => ?_, fun _ => .inr (.inr hnone)⟩
    · rintro ⟨row, hget, -⟩
      cases hnone.symm.trans hget
    · obtain ⟨row, hget, -⟩ := hother.open_ hhandles
      cases hnone.symm.trans hget
  · have hnot : ¬ (Call.attempt ⟨w.nextId, url, payload, 1⟩ []).Handles id := by
      rw [Call.Handles, Call.jobs, List.map_singleton, List.mem_singleton]
      exact hid
    exact .of_same hcreated (get_createDeliveryRecord hid) rfl
      ⟨List.nodup_singleton _, fun h => absurd h hnot⟩ fun h => absurd h hnot

theorem turnLeaves_select (hfresh : FreshIds w) :
    TurnLeaves id w .select w (.ofJobs (dueDeliveries w)) := by
  have hhandles : (Call.ofJobs (dueDeliveries w)).Handles id →
      id ∈ (dueDeliveries w).map (·.deliveryId) := by
    rw [Call.Handles, jobs_ofJobs]
    exact fun h => h
  refine .of_same hfresh rfl rfl ⟨?_, fun h => ?_⟩ fun h => .inr (.inl ⟨rfl, hhandles h⟩)
  · rw [jobs_ofJobs]
    exact nodup_dueDeliveries
  · obtain ⟨job, hjob, rfl⟩ := List.mem_map.1 (hhandles h)
    obtain ⟨row, hget, hdue, -⟩ := mem_dueDeliveries hjob
    exact ⟨row, hget, fun hstatus => by cases hdue.1.symm.trans hstatus⟩

theorem turnLeaves_attempt (hfresh : FreshIds w) {job : DeliveryJob} {rest : List DeliveryJob}
    (hcall : HandInv id w (.attempt job rest)) :
    TurnLeaves id w (.attempt job rest) { w with exchanges := w.exchanges ++ [.posted job w.now] }
      (.posting job rest) := by
  have hown : HandInv id w (.posting job rest) := ⟨hcall.nodup, hcall.open_⟩
  by_cases hid : job.deliveryId = id
  · have hopen := hcall.not_isDelivered (List.mem_map.2 ⟨job, List.mem_cons_self, hid⟩)
    exact ⟨hfresh, staysDelivered_of_not hopen, hown.congr rfl, fun _ hother _ => hother.congr rfl,
      .inl⟩
  · refine .of_same hfresh rfl ?_ hown .inl
    rw [exchangesOf_append rfl, Exchange.deliveryId_posted, if_neg hid]

theorem turnLeaves_updating (hfresh : FreshIds w) {job : DeliveryJob} {result : HttpResult}
    {time : ℕ} {rest : List DeliveryJob} (hcall : HandInv id w (.updating job result time rest)) :
    TurnLeaves id w (.updating job result time rest)
      { updateDeliveryRecord w job.deliveryId (attemptOutcome job.attemptNumber time result) with
        exchanges := w.exchanges ++ [.answered job.deliveryId time (decide result.Ok)] }
      (.ofJobs rest) := by
  have hsub : (Call.ofJobs rest).Handles id → (Call.updating job result time rest).Handles id := by
    rw [Call.Handles, jobs_ofJobs]
    exact List.mem_cons_of_mem _
  have hown : HandInv id w (.ofJobs rest) := by
    refine ⟨?_, fun h => hcall.open_ (hsub h)⟩
    rw [jobs_ofJobs]
    exact (List.nodup_cons.1 hcall.nodup).2
  by_cases hid : job.deliveryId = id
  · have hhandles : (Call.updating job result time rest).Handles id :=
      List.mem_map.2 ⟨job, List.mem_cons_self, hid⟩
    have hnot : ¬ (Call.ofJobs rest).Handles id := by
      rw [Call.Handles, jobs_ofJobs, ← hid]
      exact (List.nodup_cons.1 hcall.nodup).1
    exact ⟨hfresh.update _ _, staysDelivered_of_not (hcall.not_isDelivered hhandles),
      hown.of_not_handles hnot,
      fun _ hother hapart => hother.of_not_handles fun h => hapart ⟨hhandles, h⟩,
      fun h => absurd h hnot⟩
  · refine .of_same (hfresh.update _ _) ?_ ?_ hown fun h => .inl (hsub h)
    · exact get_updateDeliveryRecord.trans (if_neg fun h => hid h.symm)
    · rw [exchangesOf_append rfl, Exchange.deliveryId_answered, if_neg hid]

/-- **What a turn leaves alone.** A call that does not deal with what is delivered leaves it alone,
and deals with nothing that is delivered afterwards. -/
theorem turnLeaves_callTurn (hfresh : FreshIds w) (hcall : HandInv id w call) :
    TurnLeaves id w call (callTurn w call reply).1 (callTurn w call reply).2 := by
  have hstutter : TurnLeaves id w call w call := .of_same hfresh rfl rfl hcall .inl
  cases call with
  | lookup event =>
    cases reply with
    | config found =>
      cases found <;> exact .of_same hfresh rfl rfl ⟨List.nodup_nil, nofun⟩ nofun
    | done | http => exact hstutter
  | insert event url payload =>
    cases reply with
    | done => exact turnLeaves_insert hfresh _ _ _
    | config | http => exact hstutter
  | select =>
    cases reply with
    | done => exact turnLeaves_select hfresh
    | config | http => exact hstutter
  | attempt job rest =>
    cases reply with
    | done => exact turnLeaves_attempt hfresh hcall
    | config | http => exact hstutter
  | posting job rest =>
    cases reply with
    | http result => exact .of_same hfresh rfl rfl ⟨hcall.nodup, hcall.open_⟩ .inl
    | config | done => exact hstutter
  | updating job result time rest =>
    cases reply with
    | done => exact turnLeaves_updating hfresh hcall
    | config | http => exact hstutter
  | ended => cases reply <;> exact hstutter

/-! ### Runs -/

/-- The invariant of the deliveries and of the calls: one call at most has yet to deal with the
delivery, and does not find it delivered. -/
def InOneHand (id : ℕ) : Pool World Call → Prop :=
  Pool.Holds FreshIds (HandInv id) fun _ call call' => ¬ (call.Handles id ∧ call'.Handles id)

theorem InOneHand.step {input : Input} (h : InOneHand id p) (halone : Alone id p input) :
    InOneHand id (workerStep p input) ∧ StaysDelivered id p.shared (workerStep p input).shared := by
  cases input with
  | enqueue | processQueue =>
    refine ⟨h.start ⟨List.nodup_nil, nofun⟩ fun _ _ _ => ⟨?_, ?_⟩, .refl _⟩
    · rintro ⟨hnew, -⟩
      cases hnew
    · rintro ⟨-, hnew⟩
      cases hnew
  | elapse ms =>
    exact ⟨Pool.Holds.act (f := fun w : World => { w with now := w.now + ms }) h h.shared
      (fun _ _ hcall => hcall.congr rfl) fun _ _ hapart => hapart, .refl _⟩
  | answer i reply =>
    have hturn : ∀ call, p.calls[i]? = some call →
        TurnLeaves id p.shared call (callTurn p.shared call reply).1
          (callTurn p.shared call reply).2 :=
      fun call hcall => turnLeaves_callTurn h.shared (h.each i call hcall)
    constructor
    · refine h.resume_handling
        (fun call hcall => ⟨(hturn call hcall).fresh, (hturn call hcall).own⟩)
        (fun call hcall => (hturn call hcall).others) fun call hcall hnew => ?_
      rcases (hturn call hcall).handles hnew with hold | ⟨rfl, hselected⟩ | hnone
      · exact .inl hold
      · refine .inr fun j other _ hother => ?_
        cases reply with
        | done => exact halone hcall hselected other (List.mem_of_getElem? hother)
        | config | http => exact nomatch hnew
      · refine .inr fun j other _ hother hhandles => ?_
        obtain ⟨row, hget, -⟩ := (h.each j other hother).open_ hhandles
        cases hnone.symm.trans hget
    · rw [workerStep, Pool.shared_resume]
      cases hcall : p.calls[i]? with
      | none => exact .refl _
      | some call => exact (hturn call hcall).stays

/-- **When delivered is final.** Whatever calls of whatever workers overlap, a delivery that has
been made stays so and is not posted again, if no worker selects the delivery while another call
has yet to deal with it. -/
theorem delivered_final (id : ℕ) (inputs : List Input)
    (halone : Along workerStep (Alone id) workerStart inputs) :
    Onwards workerStep (fun p q => StaysDelivered id p.shared q.shared) workerStart inputs := by
  have hstart : InOneHand id workerStart := by
    refine Pool.holds_idle fun id row hrow => ?_
    rw [InsertionMap.get_empty] at hrow
    cases hrow
  exact onwards_of_along (InOneHand id) (fun _ _ _ h h' => h.trans h') (fun _ _ => .refl _)
    (fun _ _ h halone => h.step halone) hstart halone

/-! ### Overlaps that do harm -/

/-- Something that can happen from here on, with no more overlaps, spoils what is delivered. -/
def Spoils (id : ℕ) (p : Pool World Call) : Prop :=
  ∃ inputs, Along workerStep (Alone id) p inputs ∧
    ¬ Onwards workerStep (fun p q => StaysDelivered id p.shared q.shared) p inputs

theorem Spoils.of_after (inputs : List Input) (halone : Along workerStep (Alone id) p inputs)
    (h : Spoils id (after workerStep p inputs)) : Spoils id p := by
  obtain ⟨more, halone', hmore⟩ := h
  exact ⟨inputs ++ more, along_append.2 ⟨halone, halone'⟩,
    fun honwards => hmore honwards.of_append⟩

variable {k : ℕ} {job : DeliveryJob} {rest : List DeliveryJob} {result : HttpResult} {time : ℕ}

/-- A call is answered. -/
theorem answer_spec (hcall : p.calls[k]? = some call) (reply : Reply) :
    (workerStep p (.answer k reply)).calls[k]? = some (callTurn p.shared call reply).2 ∧
      (∀ j, j ≠ k → (workerStep p (.answer k reply)).calls[j]? = p.calls[j]?) ∧
        (workerStep p (.answer k reply)).shared = (callTurn p.shared call reply).1 :=
  ⟨Pool.getElem?_resume_self hcall, fun _ hj => Pool.getElem?_resume_of_ne hj.symm, by
    rw [workerStep, Pool.shared_resume, hcall, Option.elim_some]⟩

/-- A call that has its deliveries does not select others. -/
theorem alone_answer (hcall : p.calls[k]? = some call) (hjobs : call.jobs ≠ []) (reply : Reply) :
    Alone id p (.answer k reply) := by
  cases reply with
  | done =>
    intro hselect
    obtain rfl := Option.some.inj (hcall.symm.trans hselect)
    exact absurd rfl hjobs
  | config | http => trivial

/-- What is delivered is posted again. -/
theorem spoils_of_attempt (hcall : p.calls[k]? = some (.attempt job rest))
    (hid : job.deliveryId = id) (hdelivered : IsDelivered p.shared id) : Spoils id p := by
  refine ⟨[.answer k .done], ⟨alone_answer hcall (List.cons_ne_nil _ _) .done, trivial⟩,
    fun h => ?_⟩
  have hposts := (h [] [.answer k .done] [] rfl hdelivered).2
  rw [List.nil_append, after_cons, after_nil, after_nil, (answer_spec hcall .done).2.2, callTurn,
    exchangesOf_append rfl, Exchange.deliveryId_posted, if_pos hid, posts_append_posted] at hposts
  exact Nat.succ_ne_self _ hposts

/-- A failure is written over what is delivered. -/
theorem spoils_of_updating (hcall : p.calls[k]? = some (.updating job result time rest))
    (hid : job.deliveryId = id) (hfails : ¬ result.Ok) (hdelivered : IsDelivered p.shared id) :
    Spoils id p := by
  refine ⟨[.answer k .done], ⟨alone_answer hcall (List.cons_ne_nil _ _) .done, trivial⟩,
    fun h => ?_⟩
  obtain ⟨row, hget, hstatus⟩ := (h [] [.answer k .done] [] rfl hdelivered).1
  obtain ⟨row', hget', -⟩ := hdelivered
  rw [List.nil_append, after_cons, after_nil, (answer_spec hcall .done).2.2, callTurn,
    get_updateDeliveryRecord, if_pos hid.symm, hget', Option.map_some] at hget
  rw [← Option.some.inj hget, update_status] at hstatus
  exact hfails (attemptOutcome_status_eq_delivered_iff.1 hstatus)

/-- A call makes a delivery and goes on to the rest. The others wait. -/
structure Makes (id k : ℕ) (job : DeliveryJob) (rest : List DeliveryJob) (p : Pool World Call)
    (inputs : List Input) : Prop where
  alone : Along workerStep (Alone id) p inputs
  own : (after workerStep p inputs).calls[k]? = some (.ofJobs rest)
  others : ∀ j, j ≠ k → (after workerStep p inputs).calls[j]? = p.calls[j]?
  present : ∃ row, (after workerStep p inputs).shared.deliveries.get id = some row
  made : job.deliveryId = id ∨ IsDelivered p.shared id →
    IsDelivered (after workerStep p inputs).shared id

/-- A success is written. -/
theorem exists_makes_of_updating (hcall : p.calls[k]? = some (.updating job result time rest))
    (hok : result.Ok) (hrow : ∃ row, p.shared.deliveries.get id = some row) :
    ∃ inputs, Makes id k job rest p inputs := by
  obtain ⟨hown, hothers, hshared⟩ := answer_spec hcall .done
  obtain ⟨row, hget⟩ := hrow
  have hwritten : (workerStep p (.answer k .done)).shared.deliveries.get id =
      if id = job.deliveryId then some (row.update (attemptOutcome job.attemptNumber time result)
        p.shared.now) else some row := by
    rw [hshared, callTurn, get_updateDeliveryRecord, hget, Option.map_some]
  refine ⟨[.answer k .done], ⟨alone_answer hcall (List.cons_ne_nil _ _) .done, trivial⟩, hown,
    hothers, ?_, fun h => ?_⟩
  · rw [after_cons, after_nil, hwritten]
    split_ifs <;> exact ⟨_, rfl⟩
  · rw [after_cons, after_nil, IsDelivered, hwritten]
    split_ifs with hid
    · refine ⟨_, rfl, ?_⟩
      rw [update_status]
      exact attemptOutcome_status_eq_delivered_iff.2 hok
    · rcases h with rfl | ⟨row', hget', hstatus⟩
      · exact absurd rfl hid
      · obtain rfl := Option.some.inj (hget.symm.trans hget')
        exact ⟨_, rfl, hstatus⟩

/-- A POST is answered, and its success is written. -/
theorem exists_makes_of_posting (hcall : p.calls[k]? = some (.posting job rest))
    (hrow : ∃ row, p.shared.deliveries.get id = some row) :
    ∃ inputs, Makes id k job rest p inputs := by
  obtain ⟨hown, hothers, hshared⟩ := answer_spec hcall (.http (.response 200 ""))
  have hsame : (workerStep p (.answer k (.http (.response 200 "")))).shared = p.shared := hshared
  obtain ⟨inputs, hmakes⟩ := exists_makes_of_updating hown (by decide) (hsame.symm ▸ hrow)
  exact ⟨.answer k (.http (.response 200 "")) :: inputs,
    ⟨alone_answer hcall (List.cons_ne_nil _ _) _, hmakes.alone⟩, hmakes.own,
    fun j hj => (hmakes.others j hj).trans (hothers j hj), hmakes.present,
    fun h => hmakes.made (hsame.symm ▸ h)⟩

/-- A POST is made and answered, and its success is written. -/
theorem exists_makes_of_attempt (hcall : p.calls[k]? = some (.attempt job rest))
    (hrow : ∃ row, p.shared.deliveries.get id = some row) :
    ∃ inputs, Makes id k job rest p inputs := by
  obtain ⟨hown, hothers, hshared⟩ := answer_spec hcall .done
  have hsame : (workerStep p (.answer k .done)).shared.deliveries = p.shared.deliveries := by
    rw [hshared, callTurn]
  obtain ⟨inputs, hmakes⟩ := exists_makes_of_posting hown (hsame.symm ▸ hrow)
  refine ⟨.answer k .done :: inputs,
    ⟨alone_answer hcall (List.cons_ne_nil _ _) .done, hmakes.alone⟩, hmakes.own,
    fun j hj => (hmakes.others j hj).trans (hothers j hj), hmakes.present,
    fun h => hmakes.made (h.imp_right fun hdelivered => ?_)⟩
  rw [IsDelivered, hsame]
  exact hdelivered

/-- A call comes to a delivery that has been made. -/
theorem spoils_of_jobs {jobs : List DeliveryJob} (hcall : p.calls[k]? = some (.ofJobs jobs))
    (hid : id ∈ jobs.map (·.deliveryId)) (hdelivered : IsDelivered p.shared id) :
    Spoils id p := by
  induction jobs generalizing p with
  | nil => cases hid
  | cons job rest ih =>
    by_cases heq : job.deliveryId = id
    · exact spoils_of_attempt hcall heq hdelivered
    · have hrow : ∃ row, p.shared.deliveries.get id = some row := by
        obtain ⟨row, hget, -⟩ := hdelivered
        exact ⟨row, hget⟩
      obtain ⟨inputs, hmakes⟩ := exists_makes_of_attempt hcall hrow
      exact .of_after _ hmakes.alone (ih hmakes.own
        ((List.mem_cons.1 hid).resolve_left fun h => heq h.symm)
        (hmakes.made (.inr hdelivered)))

/-- A call makes a delivery that it comes to. -/
theorem exists_delivered_of_jobs {jobs : List DeliveryJob}
    (hcall : p.calls[k]? = some (.ofJobs jobs)) (hid : id ∈ jobs.map (·.deliveryId))
    (hrow : ∃ row, p.shared.deliveries.get id = some row) :
    ∃ inputs, Along workerStep (Alone id) p inputs ∧
      IsDelivered (after workerStep p inputs).shared id ∧
        ∀ j, j ≠ k → (after workerStep p inputs).calls[j]? = p.calls[j]? := by
  induction jobs generalizing p with
  | nil => cases hid
  | cons job rest ih =>
    obtain ⟨inputs, hmakes⟩ := exists_makes_of_attempt hcall hrow
    by_cases heq : job.deliveryId = id
    · exact ⟨inputs, hmakes.alone, hmakes.made (.inl heq), hmakes.others⟩
    · obtain ⟨inputs', halone, hdelivered, hothers⟩ :=
        ih hmakes.own ((List.mem_cons.1 hid).resolve_left fun h => heq h.symm) hmakes.present
      refine ⟨inputs ++ inputs', along_append.2 ⟨hmakes.alone, halone⟩, ?_, fun j hj => ?_⟩
      · rw [after_append]
        exact hdelivered
      · rw [after_append]
        exact (hothers j hj).trans (hmakes.others j hj)

/-- A call that deals with a delivery can spoil it, unless it has its success to write. -/
theorem spoils_of_handles (hcall : p.calls[k]? = some call) (hhandles : call.Handles id)
    (hdelivered : IsDelivered p.shared id)
    (hnot : ∀ job result time rest, call = .updating job result time rest →
      job.deliveryId = id → ¬ result.Ok) : Spoils id p := by
  have hrow : ∃ row, p.shared.deliveries.get id = some row := by
    obtain ⟨row, hget, -⟩ := hdelivered
    exact ⟨row, hget⟩
  cases call with
  | lookup | insert | select | ended => cases hhandles
  | attempt job rest => exact spoils_of_jobs hcall hhandles hdelivered
  | posting job rest =>
    by_cases heq : job.deliveryId = id
    · -- the POST fails
      obtain ⟨hown, -, hshared⟩ := answer_spec hcall (.http (.error ""))
      refine .of_after [.answer k (.http (.error ""))]
        ⟨alone_answer hcall (List.cons_ne_nil _ _) _, trivial⟩ ?_
      refine spoils_of_updating hown heq (fun hok => hok) ?_
      rw [after_cons, after_nil, hshared]
      exact hdelivered
    · obtain ⟨inputs, hmakes⟩ := exists_makes_of_posting hcall hrow
      exact .of_after _ hmakes.alone (spoils_of_jobs hmakes.own
        ((List.mem_cons.1 hhandles).resolve_left fun h => heq h.symm)
        (hmakes.made (.inr hdelivered)))
  | updating job result time rest =>
    by_cases heq : job.deliveryId = id
    · exact spoils_of_updating hcall heq (hnot _ _ _ _ rfl heq) hdelivered
    · obtain ⟨hown, -, hshared⟩ := answer_spec hcall .done
      refine .of_after [.answer k .done]
        ⟨alone_answer hcall (List.cons_ne_nil _ _) _, trivial⟩ (spoils_of_jobs hown
        ((List.mem_cons.1 hhandles).resolve_left fun h => heq h.symm) ?_)
      obtain ⟨row, hget, hstatus⟩ := hdelivered
      refine ⟨row, ?_, hstatus⟩
      rw [after_cons, after_nil, hshared, callTurn, get_updateDeliveryRecord,
        if_neg fun h => heq h.symm, hget]

/-- **Every overlap can do harm.** After a worker has selected a delivery that another call has yet
to deal with, it depends on the merchant and on the order of turns whether delivered is final, also
if there are no more overlaps. -/
theorem exists_spoiled {inputs : List Input} {input : Input}
    (hoverlap : ¬ Alone id (after workerStep workerStart inputs) input) :
    ∃ more, Along workerStep (Alone id) (after workerStep workerStart (inputs ++ [input])) more ∧
      ¬ Onwards workerStep (fun p q => StaysDelivered id p.shared q.shared) workerStart
        (inputs ++ input :: more) := by
  have hspoils : Spoils id (after workerStep workerStart (inputs ++ [input])) := by
    rw [after_append, after_cons, after_nil]
    generalize after workerStep workerStart inputs = p at hoverlap
    rcases input with _ | _ | ⟨i, _ | _ | _⟩ | _ <;>
      first | exact absurd trivial hoverlap | skip
    simp only [Alone, not_forall, not_not] at hoverlap
    obtain ⟨hselect, hdue, other, hmem, hhandles⟩ := hoverlap
    obtain ⟨j, hother⟩ := List.mem_iff_getElem?.1 hmem
    have hj : j ≠ i := by
      rintro rfl
      obtain rfl := Option.some.inj (hother.symm.trans hselect)
      cases hhandles
    obtain ⟨hown, hothers, hshared⟩ := answer_spec hselect .done
    have hother' := (hothers j hj).trans hother
    obtain ⟨job, hjob, hid⟩ := List.mem_map.1 hdue
    obtain ⟨row, hget, -⟩ := mem_dueDeliveries hjob
    have hrow : ∃ row, (workerStep p (.answer i .done)).shared.deliveries.get id = some row :=
      ⟨row, by rw [hshared, callTurn, ← hid, hget]⟩
    by_cases hwrites : ∃ job result time rest, other = .updating job result time rest ∧
        job.deliveryId = id ∧ result.Ok
    · -- the other call writes its success, and the worker makes a POST
      obtain ⟨job, result, time, rest, rfl, hid, hok⟩ := hwrites
      obtain ⟨more, hmakes⟩ := exists_makes_of_updating hother' hok hrow
      exact .of_after _ hmakes.alone (spoils_of_jobs ((hmakes.others i hj.symm).trans hown) hdue
        (hmakes.made (.inl hid)))
    · -- the worker makes the delivery, and the other call goes on with it
      obtain ⟨more, halone, hdelivered, hothers'⟩ := exists_delivered_of_jobs hown hdue hrow
      refine .of_after _ halone
        (spoils_of_handles ((hothers' j hj).trans hother') hhandles hdelivered ?_)
      exact fun job result time rest hcall hid hok =>
        hwrites ⟨job, result, time, rest, hcall, hid, hok⟩
  obtain ⟨more, halone, hmore⟩ := hspoils
  refine ⟨more, halone, fun h => hmore (Onwards.of_append ?_)⟩
  rwa [List.append_assoc, List.singleton_append]

theorem delivered_final_sample :
    Onwards workerStep (fun p q => StaysDelivered 1 p.shared q.shared) workerStart
      (sampleEnqueue (.response 500 "") ++ sampleRetry 1 (.response 200 "") ++
        [.processQueue, .answer 2 .done]) :=
  delivered_final 1 _ (by decide)

/-- A worker selects a delivery between its insertion and its first POST, which is answered. -/
def sampleOverlap : List Input :=
  [.enqueue ⟨.executed, "GSUB", "GMER", "100", "tx1", 10, 0⟩,
    .answer 0 (.config (some ⟨"https://merchant.example/hook", "secret"⟩)), .answer 0 .done,
    .processQueue, .answer 1 .done, .answer 0 .done, .answer 0 (.http (.response 200 "")),
    .answer 0 .done]

/-- The worker posts the delivery again. -/
theorem not_delivered_final_overlap :
    ¬ Onwards workerStep (fun p q => StaysDelivered 1 p.shared q.shared) workerStart
      (sampleOverlap ++ [.answer 1 .done]) := by
  intro h
  have hposts := (h sampleOverlap [.answer 1 .done] [] rfl ⟨_, rfl, rfl⟩).2
  exact absurd hposts (by decide)

end SorobanPay.WebhookWorker
