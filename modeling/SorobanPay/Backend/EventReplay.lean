import SorobanPay.Backend.EventPolling
import SorobanPay.Backend.StatusFold
import SorobanPay.Foundation.Replay

/-!
# Events that the event indexer processes again

After a restart from an older cursor the event indexer processes events again that it has processed
before. Each of its tables absorbs them in its own way: the events and the outbox because a row with
the same content is there, the audit log and the payments because the key is taken, and a
subscription because the events that follow overwrite its row once more.

Without failures an event changes the tables as `Db.handle` says. The relay changes the status of
the rows of the outbox meanwhile, and is left out of sight by `Db.unmarked`.

## Main definitions

* `Db.handle`: what an event does to the tables if nothing fails.
* `AllActive`: no subscription has ended.
* `Turn`, `turnStep`: an event is processed, or the relay has changed the outbox.

## Main results

* `processEvent_noFailures`: what `processEvent` does if nothing fails.
* `replay_idempotent`: the tables after any redelivery are those after processing the stream once.
-/

set_option autoImplicit false

namespace SorobanPay.EventIndexer

open Foundation

variable {sdk : SdkTexts} {db : Db} {event : EventResponse} {e : StoredEvent}

/-! ### Without failures -/

/-- What an event does to the tables if nothing fails. -/
def Db.handle (db : Db) (e : StoredEvent) : Db where
  events := if e.row ∈ db.events then db.events else db.events ++ [e.row]
  outbox key :=
    if e.row ∉ db.events ∧ key = e.id then (db.outbox key).or (some e.outboxRow)
    else db.outbox key
  subscriptions s m :=
    if s = e.subscriber ∧ m = e.merchant then e.applyTo (db.subscriptions s m)
    else db.subscriptions s m
  auditLogs hash :=
    if e.eventType = .executed ∧ hash = e.id then (db.auditLogs hash).or (some e.auditLogRow)
    else db.auditLogs hash
  payments hash :=
    if e.eventType = .executed ∧ hash = e.id then (db.payments hash).or (some e.paymentRow)
    else db.payments hash

/-- `applyEvent` changes the row of the subscription only. -/
theorem applyEvent_run_eq (subscriber merchant : String) (eventType : SubscriptionEventType)
    (data : EventData) (db : Db) :
    ∃ st, (applyEvent noFailures subscriber merchant eventType data).run db = (.ok st,
      { db with
        subscriptions := fun s m =>
          if s = subscriber ∧ m = merchant then applyRow (db.subscriptions s m) eventType data
          else db.subscriptions s m }) := by
  obtain ⟨st, db', hrun, happlied⟩ := applyEvent_run subscriber merchant eventType data db
  have hkept : Tx.Keeps (fun db : Db => (db.events, db.outbox, db.auditLogs, db.payments))
      (applyEvent noFailures subscriber merchant eventType data) := by
    refine (Tx.keeps_ask _ _ _).bind fun existing => ?_
    dsimp only
    split
    · exact Tx.keeps_pure _
    · refine Tx.Keeps.bind (Tx.keeps_tell _ ?_) fun _ => Tx.keeps_pure _
      exact fun _ => rfl
  have hkept := hkept db
  rw [hrun] at hkept
  obtain ⟨hevents, houtbox, hlogs, hpayments⟩ := by simpa only [Prod.mk.injEq] using hkept
  refine ⟨st, hrun.trans ?_⟩
  rw [← hevents, ← houtbox, ← hlogs, ← hpayments, ← (funext fun s => funext fun m => happlied s m)]

theorem recordPayment_run (e : StoredEvent) (db : Db) :
    ((recordPayment noFailures e).run db).2 =
      if e.eventType = .executed then (db.upsertAuditLog e).upsertPayment e else db := by
  unfold recordPayment
  split_ifs <;> rfl

theorem processEvent_noFailures (sdk : SdkTexts) (db : Db) (event : EventResponse) :
    processEvent sdk noFailures db event = (toStored sdk event).elim db db.handle := by
  rcases hstored : toStored sdk event with _ | e
  · simp only [processEvent, hstored, Option.elim_none]
  · have hwrite : (writeEvent noFailures e).run db =
        (.ok (), if e.row ∈ db.events then db else db.storeEvent e) := by
      by_cases hrow : e.row ∈ db.events
      · simp [writeEvent, noFailures, Tx.run_bind, Tx.run_ask, hrow, Tx.run_pure]
      · simp [writeEvent, noFailures, Tx.run_bind, Tx.run_ask, hrow, Tx.run_tell]
    obtain ⟨st, happly⟩ := applyEvent_run_eq e.subscriber e.merchant
      (stateMachineEvent e.eventType) ⟨some (e.amount.getD "0"), some (e.token.getD "")⟩
      (if e.row ∈ db.events then db else db.storeEvent e)
    simp only [processEvent, hstored, Option.elim_some]
    rw [Tx.run_bind, hwrite]
    simp only [afterWrite, Tx.run_bind, happly, recordPayment_run]
    by_cases hrow : e.row ∈ db.events <;> by_cases htype : e.eventType = .executed <;>
      simp [Db.handle, Db.storeEvent, Db.upsertAuditLog, Db.upsertPayment, StoredEvent.applyTo,
        hrow, htype]

/-! ### Subscriptions that have not ended -/

/-- Every row of a subscription is active. -/
def AllActive (db : Db) : Prop := ∀ s m row, db.subscriptions s m = some row → row.status = .active

/-- A stored event makes a subscription active, or changes nothing. -/
theorem transition_of_kept {st st' : SubscriptionState} {ty : SubscriptionEventType}
    (hty : Kept ty) (h : transition st ty = some st') : st' = .active := by
  rcases hty with rfl | rfl <;> cases st <;> cases h <;> rfl

theorem kept_of_toStored (h : toStored sdk event = some e) :
    Kept (stateMachineEvent e.eventType) := by
  simp only [toStored, Option.bind_eq_bind, Option.bind_eq_some_iff] at h
  obtain ⟨fields, -, subscriber, -, merchant, -, h⟩ := h
  split_ifs at h with htype
  cases h
  simp only [storedEventTypes, List.mem_cons, List.not_mem_nil, or_false] at htype
  rcases htype with htype | htype
  · exact .inl (by rw [htype]; rfl)
  · exact .inr (by rw [htype]; rfl)

theorem allActive_empty : AllActive .empty := fun _ _ _ h => (Option.some_ne_none _ h.symm).elim

theorem maintains_allActive_applyEvent (outcome : DbCall → Outcome) (s m : String)
    {ty : SubscriptionEventType} (hty : Kept ty) (data : EventData) :
    Tx.Maintains AllActive (applyEvent outcome s m ty data) := by
  refine Tx.Maintains.bind ?_ fun existing => ?_
  · exact (Tx.keeps_ask (fun db : Db => db) _ _).maintains
  · dsimp only
    split
    · exact Tx.maintains_pure _
    · rename_i nextState htransition
      refine Tx.Maintains.bind (Tx.maintains_tell _ fun db h s' m' row hrow => ?_) fun _ =>
        Tx.maintains_pure _
      obtain rfl := transition_of_kept hty htransition
      simp only [Db.upsertSubscription] at hrow
      split_ifs at hrow
      · rw [← Option.some.inj hrow]
        cases db.subscriptions s' m' <;> rfl
      · exact h s' m' row hrow

/-- Whatever fails, no subscription ends. -/
theorem AllActive.processEvent (h : AllActive db) (sdk : SdkTexts) (outcome : DbCall → Outcome)
    (event : EventResponse) : AllActive (EventIndexer.processEvent sdk outcome db event) := by
  unfold EventIndexer.processEvent
  split
  · exact h
  · rename_i e hstored
    have hkeeps : ∀ {α : Type} {x : Tx Db Unit α}, Tx.Keeps Db.subscriptions x →
        Tx.Maintains AllActive x := fun hx =>
      hx.maintains (Q := fun rows : String → String → Option StatusRow =>
        ∀ s m row, rows s m = some row → row.status = .active)
    refine Tx.Maintains.bind (hkeeps ?_) (fun _ => Tx.Maintains.bind ?_ fun _ => hkeeps ?_) db h
    · refine (Tx.keeps_ask _ _ _).bind fun existing => ?_
      exact Tx.Keeps.ite (Tx.keeps_pure _) (Tx.keeps_tell _ fun _ => rfl)
    · exact maintains_allActive_applyEvent _ _ _ (kept_of_toStored hstored) _
    · exact keeps_recordPayment (fun _ _ => rfl) (fun _ _ => rfl) _ _

/-! ### Tables that absorb events -/

/-- What an event does to the tables `Event` and `OutboxEvent`. -/
def handleLog (sdk : SdkTexts) (log : List EventRow × (String → Option OutboxRow))
    (event : EventResponse) : List EventRow × (String → Option OutboxRow) :=
  (toStored sdk event).elim log fun e =>
    if e.row ∈ log.1 then log
    else
      (log.1 ++ [e.row], fun key =>
        if key = e.id then (log.2 key).or (some e.outboxRow) else log.2 key)

/-- The events and the outbox absorb an event whose row is there. -/
theorem replayable_handleLog (sdk : SdkTexts) : Replayable (handleLog sdk) := by
  refine Replayable.absorb (fun log event => ∀ e, toStored sdk event = some e → e.row ∈ log.1)
    (fun log event e hstored => ?_) (fun log event event' hdone e hstored => ?_)
    fun log event hdone => ?_
  · simp only [handleLog, hstored, Option.elim_some]
    split_ifs with hrow
    · exact hrow
    · exact List.mem_append_right _ (List.mem_singleton_self _)
  · have hrow := hdone e hstored
    rcases hstored' : toStored sdk event' with _ | e'
    · simpa only [handleLog, hstored', Option.elim_none] using hrow
    · simp only [handleLog, hstored', Option.elim_some]
      split_ifs
      · exact hrow
      · exact List.mem_append_left _ hrow
  · rcases hstored : toStored sdk event with _ | e
    · simp only [handleLog, hstored, Option.elim_none]
    · simp only [handleLog, hstored, Option.elim_some, if_pos (hdone e hstored)]

theorem log_processEvent (sdk : SdkTexts) (db : Db) (event : EventResponse) :
    (processEvent sdk noFailures db event).log = handleLog sdk db.log event := by
  rw [processEvent_noFailures, handleLog]
  rcases toStored sdk event with _ | e
  · rfl
  · by_cases hrow : e.row ∈ db.events <;> simp [Db.log, Db.handle, hrow]

/-- The row that an event takes to the audit log, or to the payments, under a key. -/
def collected {R : Type} (sdk : SdkTexts) (row : StoredEvent → R) (hash : String)
    (event : EventResponse) : Option R :=
  (toStored sdk event).bind fun e =>
    if e.eventType = .executed ∧ hash = e.id then some (row e) else none

theorem auditLogs_processEvent (sdk : SdkTexts) (hash : String) (db : Db) (event : EventResponse) :
    (processEvent sdk noFailures db event).auditLogs hash =
      (db.auditLogs hash).or (collected sdk StoredEvent.auditLogRow hash event) := by
  rw [processEvent_noFailures, collected]
  rcases toStored sdk event with _ | e
  · simp
  · simp only [Option.elim_some, Db.handle, Option.bind_some]
    split_ifs <;> simp

theorem payments_processEvent (sdk : SdkTexts) (hash : String) (db : Db) (event : EventResponse) :
    (processEvent sdk noFailures db event).payments hash =
      (db.payments hash).or (collected sdk StoredEvent.paymentRow hash event) := by
  rw [processEvent_noFailures, collected]
  rcases toStored sdk event with _ | e
  · simp
  · simp only [Option.elim_some, Db.handle, Option.bind_some]
    split_ifs <;> simp

/-! ### Rows of subscriptions -/

/-- What an event does to the row of a subscription that has not ended. -/
def touchRow (sdk : SdkTexts) (s m : String) (row : Option StatusRow) (event : EventResponse) :
    Option StatusRow :=
  (toStored sdk event).elim row fun e =>
    if s = e.subscriber ∧ m = e.merchant then some
      { token := (present (some (e.token.getD ""))).getD ((row.map (·.token)).getD "")
        amount := (present (some (e.amount.getD "0"))).getD ((row.map (·.amount)).getD "")
        status := .active }
    else row

theorem applyTo_of_active {row : Option StatusRow} (hkept : Kept (stateMachineEvent e.eventType))
    (hrow : ∀ r, row = some r → r.status = .active) :
    e.applyTo row = some
      { token := (present (some (e.token.getD ""))).getD ((row.map (·.token)).getD "")
        amount := (present (some (e.amount.getD "0"))).getD ((row.map (·.amount)).getD "")
        status := .active } := by
  have hstatus : (row.map (·.status)).getD .active = .active := by
    rcases row with _ | r
    · rfl
    · exact hrow r rfl
  have htransition : transition .active (stateMachineEvent e.eventType) = some .active := by
    rcases hkept with hkept | hkept <;> rw [hkept] <;> rfl
  have hpresent : ∀ text : String, (present (some text)).getD "" = text := by
    intro text
    by_cases htext : text = "" <;> simp [present, Option.filter, htext]
  rw [StoredEvent.applyTo, applyRow, hstatus, htransition, Option.elim_some]
  rcases row with _ | r
  · simp [hpresent]
  · rfl

theorem subscriptions_processEvent (sdk : SdkTexts) (s m : String) (h : AllActive db)
    (event : EventResponse) :
    (processEvent sdk noFailures db event).subscriptions s m =
      touchRow sdk s m (db.subscriptions s m) event := by
  rw [processEvent_noFailures, touchRow]
  rcases hstored : toStored sdk event with _ | e
  · rfl
  · simp only [Option.elim_some, Db.handle]
    split_ifs
    · exact applyTo_of_active (kept_of_toStored hstored) (h s m)
    · rfl

/-- A row that is seen through its columns. -/
theorem statusRow_ext {row row' : Option StatusRow}
    (hstatus : row.map (·.status) = row'.map (·.status))
    (htoken : (row.map (·.token)).getD "" = (row'.map (·.token)).getD "")
    (hamount : (row.map (·.amount)).getD "" = (row'.map (·.amount)).getD "") : row = row' := by
  rcases row with _ | ⟨token, amount, status⟩ <;> rcases row' with _ | ⟨token', amount', status'⟩
  · rfl
  · cases hstatus
  · cases hstatus
  · simp only [Option.map_some, Option.getD_some] at htoken hamount hstatus
    rw [htoken, hamount, Option.some.inj hstatus]

theorem replayable_touchRow (sdk : SdkTexts) (s m : String) : Replayable (touchRow sdk s m) := by
  -- what an event of the pair writes into a column
  let written : {R : Type} → (StoredEvent → Option R) → EventResponse → Option R :=
    fun column event => (toStored sdk event).bind fun e =>
      if s = e.subscriber ∧ m = e.merchant then column e else none
  intro events row
  refine statusRow_ext ?_ ?_ ?_
  · refine (Replayable.overwrite (written fun _ => some (some SubscriptionState.active))).view
      (Option.map (·.status)) (fun row event => ?_) events row
    rcases hstored : toStored sdk event with _ | e
    · simp [touchRow, written, hstored]
    · by_cases hpair : s = e.subscriber ∧ m = e.merchant <;>
        simp [touchRow, written, hstored, hpair]
  · refine (Replayable.overwrite (written fun e => present (some (e.token.getD "")))).view
      (fun row => (row.map (·.token)).getD "") (fun row event => ?_) events row
    rcases hstored : toStored sdk event with _ | e
    · simp [touchRow, written, hstored]
    · by_cases hpair : s = e.subscriber ∧ m = e.merchant <;>
        simp [touchRow, written, hstored, hpair]
  · refine (Replayable.overwrite (written fun e => present (some (e.amount.getD "0")))).view
      (fun row => (row.map (·.amount)).getD "") (fun row event => ?_) events row
    rcases hstored : toStored sdk event with _ | e
    · simp [touchRow, written, hstored]
    · by_cases hpair : s = e.subscriber ∧ m = e.merchant <;>
        simp [touchRow, written, hstored, hpair]

/-! ### Redelivery -/

/-- Two databases with the same tables. -/
theorem db_ext {db db' : Db} (hlog : db.log = db'.log)
    (hsubscriptions : ∀ s m, db.subscriptions s m = db'.subscriptions s m)
    (hauditLogs : ∀ hash, db.auditLogs hash = db'.auditLogs hash)
    (hpayments : ∀ hash, db.payments hash = db'.payments hash) : db = db' := by
  obtain ⟨hevents, houtbox⟩ := Prod.mk.inj hlog
  cases db
  cases db'
  simp only [Db.mk.injEq]
  exact ⟨hevents, houtbox, funext fun s => funext (hsubscriptions s), funext hauditLogs,
    funext hpayments⟩

/-- **Redelivery to the tables.** If nothing fails, the tables are in the end as if the stream had
been processed once. -/
theorem foldl_processEvent_of_redelivery {stream events : List EventResponse}
    (hdelivered : Redelivery stream events stream.length) (hactive : AllActive db) :
    events.foldl (processEvent sdk noFailures) db =
      stream.foldl (processEvent sdk noFailures) db := by
  refine db_ext ?_ (fun s m => ?_) (fun hash => ?_) fun hash => ?_
  · exact hdelivered.view_eq (replayable_handleLog sdk) Db.log (log_processEvent sdk) db
  · exact hdelivered.view_eq_of_invariant (replayable_touchRow sdk s m) AllActive
      (fun db event h => h.processEvent sdk _ event) (fun db => db.subscriptions s m)
      (fun db event h => subscriptions_processEvent sdk s m h event) hactive
  · exact hdelivered.view_eq (Replayable.keepFirst (collected sdk StoredEvent.auditLogRow hash))
      (fun db : Db => db.auditLogs hash) (auditLogs_processEvent sdk hash) db
  · exact hdelivered.view_eq (Replayable.keepFirst (collected sdk StoredEvent.paymentRow hash))
      (fun db : Db => db.payments hash) (payments_processEvent sdk hash) db

/-! ### With the relay -/

/-- The relay has changed the statuses of the outbox. -/
def Db.mark (db : Db) (mark : String → OutboxStatus → OutboxStatus) : Db :=
  { db with
    outbox := fun key => (db.outbox key).map fun row => { row with status := mark key row.status } }

/-- The tables up to the statuses of the outbox. -/
def Db.unmarked (db : Db) : Db := db.mark fun _ _ => .pending

/-- What happens to the tables: an event is processed, or the relay runs. -/
inductive Turn
  | process (outcome : DbCall → Outcome) (event : EventResponse)
  | relay (mark : String → OutboxStatus → OutboxStatus)

/-- One turn. -/
def turnStep (sdk : SdkTexts) (db : Db) : Turn → Db
  | .process outcome event => processEvent sdk outcome db event
  | .relay mark => db.mark mark

/-- The event that is processed. -/
def Turn.processed : Turn → Option EventResponse
  | .process _ event => some event
  | .relay _ => none

/-- No call of the database fails. -/
def Turn.Succeeds : Turn → Prop
  | .process outcome _ => outcome = noFailures
  | .relay _ => True

@[simp] theorem unmarked_mark (db : Db) (mark : String → OutboxStatus → OutboxStatus) :
    (db.mark mark).unmarked = db.unmarked := by
  simp [Db.unmarked, Db.mark, Function.comp_def]

/-- No event looks at the statuses of the outbox. -/
theorem unmarked_processEvent (sdk : SdkTexts) (db : Db) (event : EventResponse) :
    (processEvent sdk noFailures db event).unmarked =
      processEvent sdk noFailures db.unmarked event := by
  rw [processEvent_noFailures, processEvent_noFailures]
  rcases toStored sdk event with _ | e
  · rfl
  · refine db_ext ?_ (fun _ _ => rfl) (fun _ => rfl) fun _ => rfl
    refine Prod.ext rfl (funext fun key => ?_)
    simp only [Option.elim_some, Db.log, Db.unmarked, Db.mark, Db.handle]
    split_ifs
    · cases db.outbox key <;> rfl
    · rfl

theorem unmarked_after (sdk : SdkTexts) {turns : List Turn} (h : ∀ turn ∈ turns, turn.Succeeds)
    (db : Db) :
    (after (turnStep sdk) db turns).unmarked =
      (turns.filterMap Turn.processed).foldl (processEvent sdk noFailures) db.unmarked := by
  induction turns generalizing db with
  | nil => rfl
  | cons turn turns ih =>
    rw [after_cons, ih fun t ht => h t (List.mem_cons_of_mem _ ht)]
    have hturn := h turn List.mem_cons_self
    cases turn with
    | process outcome event =>
      obtain rfl : outcome = noFailures := hturn
      rw [turnStep, unmarked_processEvent]
      rfl
    | relay mark => rw [turnStep, unmarked_mark, List.filterMap_cons_none rfl]

theorem AllActive.after (h : AllActive db) (sdk : SdkTexts) (turns : List Turn) :
    AllActive (after (turnStep sdk) db turns) := by
  refine after_invariant (fun db turn h => ?_) h turns
  cases turn with
  | process outcome event => exact h.processEvent sdk outcome event
  | relay mark => exact h

/-- **Replay.** From whatever the indexer and the relay have made of empty tables: if from then on
no call of the database fails, and the turns process a stream to its end, starting again from any
earlier events on the way, then the tables are, up to the statuses of the outbox, as if the stream
had been processed once. -/
theorem replay_idempotent (sdk : SdkTexts) (earlier turns : List Turn)
    (stream : List EventResponse) (hsucceeds : ∀ turn ∈ turns, turn.Succeeds)
    (hdelivered : Redelivery stream (turns.filterMap Turn.processed) stream.length) :
    let db := after (turnStep sdk) Db.empty earlier
    (after (turnStep sdk) db turns).unmarked =
      (stream.foldl (processEvent sdk noFailures) db).unmarked := by
  have hactive : AllActive (after (turnStep sdk) Db.empty earlier).unmarked :=
    allActive_empty.after sdk earlier
  intro db
  rw [unmarked_after sdk hsucceeds, foldl_processEvent_of_redelivery hdelivered hactive]
  exact (Replayable.foldl_view Db.unmarked (unmarked_processEvent sdk) _ _).symm

/-- The first event is processed once more after the relay has published it. -/
theorem replay_idempotent_sample :
    let stream := [sampleResponse "1" 10 (.subscribe 1 2 9 100),
      sampleResponse "2" 20 (.executed 1 2 9 100 0)]
    let turns := [Turn.process noFailures (sampleResponse "1" 10 (.subscribe 1 2 9 100)),
      .relay fun _ _ => .published,
      .process noFailures (sampleResponse "1" 10 (.subscribe 1 2 9 100)),
      .process noFailures (sampleResponse "2" 20 (.executed 1 2 9 100 0))]
    (after (turnStep sampleTexts) .empty turns).unmarked =
      (stream.foldl (processEvent sampleTexts noFailures) .empty).unmarked := by
  intro stream turns
  have hfirst : Redelivery stream [sampleResponse "1" 10 (.subscribe 1 2 9 100)] 1 :=
    .deliver .start (Nat.le_refl 0) rfl
  have hagain : Redelivery stream [sampleResponse "1" 10 (.subscribe 1 2 9 100),
      sampleResponse "1" 10 (.subscribe 1 2 9 100)] 1 := .deliver hfirst (Nat.zero_le 1) rfl
  have hsecond : Redelivery stream (turns.filterMap Turn.processed) 2 :=
    .deliver hagain (Nat.le_refl 1) rfl
  exact replay_idempotent sampleTexts [] turns stream (by simp [turns, Turn.Succeeds]) hsecond

end SorobanPay.EventIndexer
