import SorobanPay.Backend.PushNotifications
import SorobanPay.Foundation.Run

/-!
# Notifications that are scheduled

A notification that is scheduled for later is stored, and when its time has come it is to be sent to
the devices that the call has named. `processScheduledNotifications` sends what it reads of it under
a new id. So the row that has been stored never gets beyond `sending`, and no delivery is ever
stored of it, in any run (`not_goesOutOnce`).

The devices that a call names by their tokens are not stored at all, and two runs of
`processScheduledNotifications` that overlap may both send, as the samples show.

## Main definitions

* `GoesOutOnce`: what is asked for of a notification.

## Main results

* `pushTurn_keeps`: what a statement of a call does to a notification that another one has stored.
* `not_goesOutOnce`: no scheduled notification goes out under its own id.
-/

set_option autoImplicit false

namespace SorobanPay.Push

open Foundation

/-- The notification has been sent or has failed, there is one row of a delivery for each of the
devices, and no device has been sent it twice. -/
structure GoesOutOnce (id : ℕ) (devices : List String) (db : PushDb) : Prop where
  ended : ∃ n, db.notifications.get id = some n ∧ (n.status = .sent ∨ n.status = .failed)
  rows : ((db.deliveries.values.filter (·.notificationId = id)).map PushDelivery.token).Perm devices
  once : ((db.messages.filter (·.notification = id)).map Message.token).Nodup

/-- The notification is stored, and has not been sent. -/
def Unsent (n : ℕ) (db : PushDb) : Prop :=
  ∃ row, db.notifications.get n = some row ∧ (row.status = .pending ∨ row.status = .sending)

/-- A notification stays unsent, and without rows. -/
structure Keeps (n : ℕ) (db db' : PushDb) : Prop where
  unsent : Unsent n db → Unsent n db'
  noRow : NoRow n db → NoRow n db'
  next : db.nextNotification ≤ db'.nextNotification

variable {n : ℕ} {db db' : PushDb} {call : PushCall} {p : PushPool} {dryRun : Bool}

theorem Leaves.keeps (h : Leaves n db db') : Keeps n db db' :=
  ⟨fun ⟨row, hrow, hstatus⟩ => ⟨row, h.notification.trans hrow, hstatus⟩, h.noRow, h.next⟩

/-- A notification that is marked is not sent. -/
theorem keeps_setStatus (n id : ℕ) (db : PushDb) : Keeps n db (db.setStatus id .sending) := by
  refine ⟨fun ⟨row, hrow, hstatus⟩ => ?_, fun h => h, le_rfl⟩
  unfold Unsent PushDb.setStatus
  simp only [InsertionMap.get_modify, hrow]
  split_ifs
  · exact ⟨_, rfl, .inr rfl⟩
  · exact ⟨row, rfl, hstatus⟩

/-- **What a statement does to another notification**: it leaves it unsent and without rows, and the
call is still about another one. -/
theorem pushTurn_keeps (dryRun : Bool) (input : PushInput) (hn : n < db.nextNotification)
    (hid : call.id? ≠ some n) :
    Keeps n db (pushTurn dryRun db call input).1 ∧
      (pushTurn dryRun db call input).2.id? ≠ some n := by
  have hspec := pushTurnSpec dryRun db call input
  generalize (pushTurn dryRun db call input).1 = db' at hspec ⊢
  generalize (pushTurn dryRun db call input).2 = call' at hspec ⊢
  cases hspec with
  | quiet hid' => exact ⟨(Leaves.refl n db).keeps, hid'.trans_ne (Option.some_ne_none n).symm⟩
  | marked id hid' => exact ⟨keeps_setStatus n id db, hid'.trans_ne (Option.some_ne_none n).symm⟩
  | send about options stage hsame hid' =>
    obtain ⟨hleaves, hne⟩ := sendTurn_leaves dryRun about hn (hsame ▸ hid)
    exact ⟨hleaves.keeps, hid'.trans_ne hne⟩

/-! ### Runs -/

/-- The notifications that the calls have created come before the next one. -/
def Fresh (p : PushPool) : Prop :=
  p.Since 0 fun db call => ∀ id, call.id? = some id → id < db.nextNotification

theorem pushTurn_fresh (dryRun : Bool) (db : PushDb) (call : PushCall) (input : PushInput)
    (hid : ∀ id, call.id? = some id → id < db.nextNotification) :
    db.nextNotification ≤ (pushTurn dryRun db call input).1.nextNotification ∧
      ∀ id, (pushTurn dryRun db call input).2.id? = some id →
        id < (pushTurn dryRun db call input).1.nextNotification := by
  have hspec := pushTurnSpec dryRun db call input
  generalize (pushTurn dryRun db call input).1 = db' at hspec ⊢
  generalize (pushTurn dryRun db call input).2 = call' at hspec ⊢
  cases hspec with
  | quiet hid' => exact ⟨le_rfl, fun id h => absurd (hid'.symm.trans h) (by simp)⟩
  | marked row hid' => exact ⟨le_rfl, fun id h => absurd (hid'.symm.trans h) (by simp)⟩
  | send about options stage hsame hid' =>
    obtain ⟨hle, hfresh⟩ := sendTurn_fresh dryRun about fun id h => hid id (hsame.trans h)
    exact ⟨hle, fun id h => hfresh id (hid'.symm.trans h)⟩

theorem Fresh.step (h : Fresh p) (act : PushAct) : Fresh (pushStep dryRun p act) := by
  have hnew : ∀ id, (none : Option ℕ) = some id → id < p.shared.nextNotification :=
    fun id h => absurd h.symm (Option.some_ne_none id)
  cases act with
  | send options => exact Pool.Since.start h hnew
  | process => exact Pool.Since.start h hnew
  | turn i input =>
    refine Pool.Since.resume h (fun call _ hcall => ?_) fun call hcall other hother => ?_
    · exact (pushTurn_fresh dryRun p.shared call input hcall).2
    · have hcall := h i call (Nat.zero_le i) hcall
      intro id hid
      exact (hother id hid).trans_le (pushTurn_fresh dryRun p.shared call input hcall).1

/-- A notification is stored, unsent, and no call is going to send it. -/
structure Stuck (n : ℕ) (p : PushPool) : Prop where
  next : n < p.shared.nextNotification
  unsent : Unsent n p.shared
  calls : p.Since 0 fun _ call => call.id? ≠ some n

theorem Stuck.step (h : Stuck n p) (act : PushAct) :
    Stuck n (pushStep dryRun p act) ∧
      (NoRow n p.shared → NoRow n (pushStep dryRun p act).shared) := by
  have hnew : (none : Option ℕ) ≠ some n := (Option.some_ne_none n).symm
  cases act with
  | send options => exact ⟨⟨h.next, h.unsent, Pool.Since.start h.calls hnew⟩, fun hrow => hrow⟩
  | process => exact ⟨⟨h.next, h.unsent, Pool.Since.start h.calls hnew⟩, fun hrow => hrow⟩
  | turn i input =>
    have hkeeps : ∀ call, p.calls[i]? = some call →
        Keeps n p.shared (pushTurn dryRun p.shared call input).1 ∧
          (pushTurn dryRun p.shared call input).2.id? ≠ some n := fun call hcall =>
      pushTurn_keeps dryRun input h.next (h.calls i call (Nat.zero_le i) hcall)
    have hcalls : (pushStep dryRun p (.turn i input)).Since 0 fun _ call => call.id? ≠ some n :=
      Pool.Since.resume h.calls (fun call hcall _ => (hkeeps call hcall).2) fun _ _ _ h => h
    rcases hcall : p.calls[i]? with _ | call
    · rw [pushStep, Pool.resume_of_none hcall]
      exact ⟨h, fun hrow => hrow⟩
    · have hshared : (pushStep dryRun p (.turn i input)).shared =
          (pushTurn dryRun p.shared call input).1 := by
        rw [pushStep, Pool.resume_of_some hcall]
      obtain ⟨hkeep, -⟩ := hkeeps call hcall
      exact ⟨⟨hshared ▸ h.next.trans_le hkeep.next, hshared ▸ hkeep.unsent h.unsent, hcalls⟩,
        hshared ▸ hkeep.noRow⟩

/-- A notification that is stuck stays so, and without rows. -/
theorem Stuck.after (h : Stuck n p) (acts : List PushAct) :
    Stuck n (after (pushStep dryRun) p acts) ∧
      (NoRow n p.shared → NoRow n (Foundation.after (pushStep dryRun) p acts).shared) := by
  have hstep : ∀ (q : PushPool) act, (Stuck n q ∧ (NoRow n p.shared → NoRow n q.shared)) →
      Stuck n (pushStep dryRun q act) ∧
        (NoRow n p.shared → NoRow n (pushStep dryRun q act).shared) := by
    rintro q act ⟨hq, hrow⟩
    obtain ⟨hnext, hkeep⟩ := hq.step act
    exact ⟨hnext, fun hnone => hkeep (hrow hnone)⟩
  exact after_invariant hstep ⟨h, fun hrow => hrow⟩ acts

section Scheduled

variable (dryRun) (db) (before : List PushAct) {i : ℕ} {options : SendPushOptions}
  {input : PushInput}

/-- A call that finds its notification to be for later leaves it stuck. -/
theorem stuck_scheduled (hcall : (after (pushStep dryRun) (.idle db) before).calls[i]? =
      some (.send options .starting)) (hlater : options.isLater input.later = true) :
    Stuck (after (pushStep dryRun) (.idle db) before).shared.nextNotification
      (after (pushStep dryRun) (.idle db) (before ++ [.turn i input])) := by
  have hstep : ∀ (q : PushPool) act, Fresh q → Fresh (pushStep dryRun q act) :=
    fun _ act h => h.step act
  have hidle : Fresh (.idle db) := fun _ _ _ h => by simp [Pool.idle] at h
  have hfresh := after_invariant hstep hidle before
  rw [after_append]
  generalize after (pushStep dryRun) (.idle db) before = p at hcall hfresh ⊢
  have hturn : pushTurn dryRun p.shared (.send options .starting) input =
      ({ p.shared with
          notifications := p.shared.notifications.set p.shared.nextNotification
            (options.notification p.shared.nextNotification input.now)
          nextNotification := p.shared.nextNotification + 1 },
        .send options (.finished ⟨p.shared.nextNotification, 0, 0, []⟩)) := by
    rw [pushTurn, sendTurn, if_pos hlater]
  rw [after_cons, after_nil, pushStep, Pool.resume_of_some hcall, hturn]
  refine ⟨Nat.lt_succ_self _, ⟨_, by rw [InsertionMap.get_set, if_pos rfl], ?_⟩, ?_⟩
  · dsimp only [SendPushOptions.notification]
    split_ifs
    · exact .inl rfl
    · exact .inr rfl
  · intro j call _ hj
    rcases Pool.getElem?_set hj with ⟨-, rfl⟩ | ⟨-, hj⟩
    · exact (Option.some_ne_none _).symm
    · exact fun h => absurd (hfresh j call (Nat.zero_le j) hj _ h) (Nat.lt_irrefl _)

/-- It stays stuck, and without rows, however the run goes on. -/
theorem stuck_afterwards (hcall : (after (pushStep dryRun) (.idle db) before).calls[i]? =
      some (.send options .starting)) (hlater : options.isLater input.later = true)
    (acts : List PushAct) :
    Stuck (after (pushStep dryRun) (.idle db) before).shared.nextNotification
        (after (pushStep dryRun) (.idle db) (before ++ .turn i input :: acts)) ∧
      (NoRow (after (pushStep dryRun) (.idle db) before).shared.nextNotification
          (after (pushStep dryRun) (.idle db) (before ++ [.turn i input])).shared →
        NoRow (after (pushStep dryRun) (.idle db) before).shared.nextNotification
          (after (pushStep dryRun) (.idle db) (before ++ .turn i input :: acts)).shared) := by
  have hrun : before ++ .turn i input :: acts = before ++ [.turn i input] ++ acts := by simp
  rw [hrun, after_append]
  exact (stuck_scheduled db dryRun before hcall hlater).after acts

/-- **No scheduled notification goes out.** Whatever calls overlap, in no state after a call has
stored a notification for later has this been sent or failed. -/
theorem not_goesOutOnce (hcall : (after (pushStep dryRun) (.idle db) before).calls[i]? =
      some (.send options .starting)) (hlater : options.isLater input.later = true)
    (acts : List PushAct) (devices : List String) :
    ¬ GoesOutOnce (after (pushStep dryRun) (.idle db) before).shared.nextNotification devices
      (after (pushStep dryRun) (.idle db) (before ++ .turn i input :: acts)).shared := by
  obtain ⟨row, hrow, hstatus⟩ := (stuck_afterwards db dryRun before hcall hlater acts).1.unsent
  rintro ⟨⟨row', hrow', hended⟩, -, -⟩
  obtain rfl := Option.some.inj (hrow.symm.trans hrow')
  rcases hstatus with hstatus | hstatus <;> simp [hstatus] at hended

/-- No delivery of it is stored either. -/
theorem noRow_scheduled (hcall : (after (pushStep dryRun) (.idle db) before).calls[i]? =
      some (.send options .starting)) (hlater : options.isLater input.later = true)
    (hrow : NoRow (after (pushStep dryRun) (.idle db) before).shared.nextNotification
      (after (pushStep dryRun) (.idle db) (before ++ [.turn i input])).shared)
    (acts : List PushAct) :
    NoRow (after (pushStep dryRun) (.idle db) before).shared.nextNotification
      (after (pushStep dryRun) (.idle db) (before ++ .turn i input :: acts)).shared :=
  (stuck_afterwards db dryRun before hcall hlater acts).2 hrow

end Scheduled

/-! ### Samples -/

/-- One user with one device. -/
def sampleDevices : PushDb where
  notifications := .empty
  nextNotification := 1
  deliveries := .empty
  nextDelivery := 1
  tokens := [⟨"u", "t", .android, true⟩]
  segments _ := none
  messages := []

/-- A notification that is scheduled for the time 100. -/
def sampleScheduled (userId : Option String) (tokens : Option (List String)) :
    SendPushOptions where
  payload := ⟨"title", "body", none, none, none, false, none⟩
  userId := userId
  segmentName := none
  tokens := tokens
  scheduledAt := some 100

/-- A statement of a call, with an answer that is no error. -/
def sampleTurn (now i : ℕ) : PushAct := .turn i ⟨now, now, 0, none⟩

/-- The notification is stored, two runs that process it begin, and both come to their ends. -/
abbrev sampleProcessed (options : SendPushOptions) : PushPool :=
  after (pushStep false) (.idle sampleDevices) ([.send options, sampleTurn 1 0] ++
    ([.process, .process, sampleTurn 100 1, sampleTurn 100 2] ++
      (List.replicate 10 (sampleTurn 100 1) ++ List.replicate 10 (sampleTurn 100 2))))

/-- By its user, the device is sent the notification twice, and by its token not at all. In both
cases the notification has neither been sent nor failed. -/
theorem not_goesOutOnce_samples :
    (¬ GoesOutOnce 1 ["t"] (sampleProcessed (sampleScheduled (some "u") none)).shared ∧
      (sampleProcessed (sampleScheduled (some "u") none)).shared.messages.map
        (fun message => (message.notification, message.token)) = [(1, "t"), (1, "t")]) ∧
    (¬ GoesOutOnce 1 ["t"] (sampleProcessed (sampleScheduled none (some ["t"]))).shared ∧
      (sampleProcessed (sampleScheduled none (some ["t"]))).shared.messages = []) := by
  refine ⟨⟨fun h => ?_, by decide⟩, fun h => ?_, by decide⟩
  · have honce := h.once
    revert honce
    decide
  · have hrows := h.rows
    revert hrows
    decide

theorem not_goesOutOnce_sample :
    ¬ GoesOutOnce 1 ["t"] (sampleProcessed (sampleScheduled (some "u") none)).shared :=
  not_goesOutOnce sampleDevices false [.send (sampleScheduled (some "u") none)] rfl rfl _ ["t"]

end SorobanPay.Push
