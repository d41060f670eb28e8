import Mathlib.Data.List.DropRight
import SorobanPay.Foundation.InsertionMap
import SorobanPay.Foundation.Interleaving

/-!
# Push notifications

`sendPushNotification` of `services/pushNotificationService.ts` stores a notification, and unless it
is scheduled for later finds the devices that it is for and sends to all of them at once, with a row
for each. `processScheduledNotifications` looks for scheduled notifications whose time has come,
and calls `sendPushNotification` with what is stored of each.

Each statement on the database is a turn of the call, and any calls may be under way at once; no
statement fails. What FCM and APNs answer is left open, and so is how a message is laid out for
them. A text that holds JSON is what it stands for, and a filter that cannot be parsed is one
without conditions. Rows are listed in the order of their ids.

Beside its tables, `PushDb` notes the messages that have been handed to FCM and APNs, each with the
notification that it is for.

## Main definitions

* `PushNotification`, `PushDelivery`, `PushToken`, `PushDb`: the tables.
* `SendStage`, `sendTurn`: the statements of `sendPushNotification`.
* `ProcessStage`, `processTurn`: the statements of `processScheduledNotifications`.
* `PushPool`, `pushStep`: calls that interleave.

## Main results

* `sendTurn_leaves`: `sendPushNotification` writes about its own notification only.
* `pushTurnSpec`: what a statement of a call does.
-/

set_option autoImplicit false

namespace SorobanPay.Push

open Foundation

/-! ### Data -/

inductive Platform
  | ios
  | android
  | web
  deriving DecidableEq, Repr

structure PushAction where
  id : String
  title : String
  deepLink : Option String
  deriving DecidableEq, Repr

structure PushPayload where
  title : String
  body : String
  imageUrl : Option String
  deepLink : Option String
  data : Option (List (String × String))
  silent : Bool
  actions : Option (List PushAction)
  deriving DecidableEq, Repr

structure SendPushOptions where
  payload : PushPayload
  userId : Option String
  segmentName : Option String
  tokens : Option (List String)
  scheduledAt : Option ℕ
  deriving DecidableEq, Repr

structure PushResult where
  notificationId : ℕ
  sent : ℕ
  failed : ℕ
  errors : List String
  deriving DecidableEq, Repr

inductive NotificationStatus
  | pending
  | sending
  | sent
  | failed
  deriving DecidableEq, Repr

/-- A row of the table of notifications. -/
structure PushNotification where
  id : ℕ
  title : String
  body : String
  imageUrl : Option String
  deepLink : Option String
  data : Option (List (String × String))
  segment : Option String
  userId : Option String
  scheduledAt : Option ℕ
  status : NotificationStatus
  sentAt : Option ℕ
  deriving DecidableEq, Repr

inductive DeliveryStatus
  | pending
  | delivered
  | failed
  deriving DecidableEq, Repr

/-- A row of the table of deliveries. -/
structure PushDelivery where
  notificationId : ℕ
  userId : String
  token : String
  platform : Platform
  status : DeliveryStatus
  sentAt : Option ℕ
  errorMsg : Option String
  deriving DecidableEq, Repr

/-- The delivery has succeeded. -/
def PushDelivery.delivered (d : PushDelivery) (now : ℕ) : PushDelivery :=
  { d with status := .delivered, sentAt := some now }

/-- The delivery has failed. -/
def PushDelivery.undelivered (d : PushDelivery) (error : String) : PushDelivery :=
  { d with status := .failed, errorMsg := some error }

/-- A row of the table of devices. -/
structure PushToken where
  userId : String
  token : String
  platform : Platform
  active : Bool
  deriving DecidableEq, Repr

/-- The filter of a segment. -/
structure SegmentFilter where
  platform : Option Platform
  userIds : Option (List String)
  deriving DecidableEq, Repr

/-- A message that has been handed to FCM or APNs, and the notification that it is for. -/
structure Message where
  notification : ℕ
  token : String
  platform : Platform
  payload : PushPayload
  deriving DecidableEq, Repr

/-- The tables, with the ids that come next, and the messages. -/
structure PushDb where
  notifications : InsertionMap ℕ PushNotification
  nextNotification : ℕ
  deliveries : InsertionMap ℕ PushDelivery
  nextDelivery : ℕ
  tokens : List PushToken
  segments : String → Option SegmentFilter
  messages : List Message

namespace PushDb

variable (db : PushDb)

/-- `pushNotification.update` of the status. -/
def setStatus (id : ℕ) (status : NotificationStatus) : PushDb :=
  { db with notifications := db.notifications.modify id fun n => { n with status := status } }

/-- `pushNotification.update` of the status, with the time of sending. -/
def setSent (id : ℕ) (status : NotificationStatus) (now : ℕ) : PushDb :=
  { db with
    notifications := db.notifications.modify id fun n =>
      { n with status := status, sentAt := some now } }

/-- `pushDelivery.update`. -/
def updateDelivery (id : ℕ) (f : PushDelivery → PushDelivery) : PushDb :=
  { db with deliveries := db.deliveries.modify id f }

/-- `deactivatePushToken`. -/
def deactivatePushToken (token : String) : PushDb :=
  { db with
    tokens := db.tokens.map fun t => if t.token = token then { t with active := false } else t }

end PushDb

/-! ### Sending -/

/-- What a turn meets: the clock after the statement and a little later, the device whose turn it
is, and the answer to a message. -/
structure PushInput where
  now : ℕ
  later : ℕ
  device : ℕ
  error : Option String
  deriving DecidableEq, Repr

/-- How far the delivery to a device has got: before its row is created, before the message, before
the answer is stored, and before the device is deactivated. At the end there may be an error. -/
inductive DeliveryStage
  | starting
  | stored (delivery : ℕ)
  | answered (delivery : ℕ) (error : Option String)
  | unregistered (error : String)
  | finished (error : Option String)
  deriving DecidableEq, Repr

/-- The errors that say that there is no such device. -/
def knownInvalid : List String := ["NotRegistered", "InvalidRegistration", "Unregistered"]

/-- One statement, or the message, of the delivery to a device. `about` is the notification that
the message is for. -/
def deliverTurn (dryRun : Bool) (about notificationId : ℕ) (payload : PushPayload) (db : PushDb)
    (target : PushToken) (stage : DeliveryStage) (input : PushInput) : PushDb × DeliveryStage :=
  match stage with
  | .starting =>
    ({ db with
        deliveries := db.deliveries.set db.nextDelivery
          { notificationId := notificationId
            userId := target.userId
            token := target.token
            platform := target.platform
            status := .pending
            sentAt := none
            errorMsg := none }
        nextDelivery := db.nextDelivery + 1 }, .stored db.nextDelivery)
  | .stored delivery =>
    if dryRun then (db.updateDelivery delivery (·.delivered input.now), .finished none)
    else
      ({ db with messages := db.messages ++ [⟨about, target.token, target.platform, payload⟩] },
        .answered delivery input.error)
  | .answered delivery none =>
    (db.updateDelivery delivery (·.delivered input.now), .finished none)
  | .answered delivery (some error) =>
    (db.updateDelivery delivery (·.undelivered error),
      if error ∈ knownInvalid then .unregistered error else .finished (some error))
  | .unregistered error => (db.deactivatePushToken target.token, .finished (some error))
  | .finished error => (db, .finished error)

/-- How far `sendPushNotification` has got: before the notification is created, before the devices
are looked up, before those of a segment are, before it stores that there are none, while it
delivers, and at the end. -/
inductive SendStage
  | starting
  | resolving (id : ℕ)
  | segment (id : ℕ) (filter : SegmentFilter)
  | noTargets (id : ℕ)
  | delivering (id : ℕ) (targets : List (PushToken × DeliveryStage)) (errors : List String)
  | finished (result : PushResult)
  deriving DecidableEq, Repr

/-- A text that is given and not empty. -/
def truthy (text : Option String) : Option String := text.filter (· ≠ "")

/-- The notification is scheduled for later. -/
def SendPushOptions.isLater (options : SendPushOptions) (now : ℕ) : Bool :=
  options.scheduledAt.any (now < ·)

/-- The row that is created for a notification. -/
def SendPushOptions.notification (options : SendPushOptions) (id now : ℕ) : PushNotification where
  id := id
  title := options.payload.title
  body := options.payload.body
  imageUrl := options.payload.imageUrl
  deepLink := options.payload.deepLink
  data := options.payload.data
  segment := options.segmentName
  userId := options.userId
  scheduledAt := options.scheduledAt
  status := if options.isLater now then .pending else .sending
  sentAt := none

/-- The devices have been found. -/
def SendStage.found (id : ℕ) (targets : List PushToken) : SendStage :=
  if targets = [] then .noTargets id
  else .delivering id (targets.map fun target => (target, .starting)) []

/-- The devices of a segment. -/
def SegmentFilter.admits (filter : SegmentFilter) (t : PushToken) : Bool :=
  t.active && filter.platform.all (t.platform = ·) &&
    (filter.userIds.filter (· ≠ [])).all (t.userId ∈ ·)

/-- The stage after the devices have been looked up. -/
def resolve (db : PushDb) (options : SendPushOptions) (id : ℕ) : SendStage :=
  match options.tokens.filter (· ≠ []), truthy options.userId, truthy options.segmentName with
  | some tokens, _, _ => .found id (db.tokens.filter fun t => t.token ∈ tokens && t.active)
  | none, some userId, _ => .found id (db.tokens.filter fun t => t.userId = userId && t.active)
  | none, none, some name =>
    match db.segments name with
    | none => .found id []
    | some filter => .segment id filter
  | none, none, none => .found id []

/-- The line that is reported of an error. -/
def errorLine (target : PushToken) (error : String) : String :=
  String.ofList (target.token.toList.rtake 8) ++ ": " ++ error

/-- The end of `sendPushNotification`, when all deliveries have come to theirs. -/
def conclude (db : PushDb) (id : ℕ) (stages : List DeliveryStage) (errors : List String)
    (now : ℕ) : PushDb × SendStage :=
  let sent := stages.countP (· = .finished none)
  let failed := stages.length - sent
  (db.setSent id (if failed = 0 then .sent else if sent = 0 then .failed else .sent) now,
    .finished ⟨id, sent, failed, errors⟩)

/-- The delivery has come to its end. -/
def DeliveryStage.isFinished : DeliveryStage → Bool
  | finished _ => true
  | _ => false

/-- One statement of `sendPushNotification`. The messages are for the notification `about`, if this
is given, and else for the one that is created. -/
def sendTurn (dryRun : Bool) (about : Option ℕ) (options : SendPushOptions) (db : PushDb)
    (stage : SendStage) (input : PushInput) : PushDb × SendStage :=
  match stage with
  | .starting =>
    ({ db with
        notifications := db.notifications.set db.nextNotification
          (options.notification db.nextNotification input.now)
        nextNotification := db.nextNotification + 1 },
      if options.isLater input.later then .finished ⟨db.nextNotification, 0, 0, []⟩
      else .resolving db.nextNotification)
  | .resolving id => (db, resolve db options id)
  | .segment id filter => (db, .found id (db.tokens.filter filter.admits))
  | .noTargets id =>
    (db.setSent id .sent input.now, .finished ⟨id, 0, 0, ["No target tokens found"]⟩)
  | .delivering id targets errors =>
    if targets.all fun t => t.2.isFinished then
      conclude db id (targets.map Prod.snd) errors input.now
    else
      match targets[input.device]? with
      | none => (db, stage)
      | some (target, delivery) =>
        let (db', delivery') :=
          deliverTurn dryRun (about.getD id) id options.payload db target delivery input
        let errors' :=
          match delivery, delivery' with
          | .finished _, _ => errors
          | _, .finished (some error) => errors ++ [errorLine target error]
          | _, _ => errors
        (db', .delivering id (targets.set input.device (target, delivery')) errors')
  | .finished _ => (db, stage)

/-! ### Processing -/

/-- What `processScheduledNotifications` sends of a notification. -/
def PushNotification.resend (n : PushNotification) : SendPushOptions where
  payload :=
    { title := n.title
      body := n.body
      imageUrl := n.imageUrl
      deepLink := n.deepLink
      data := n.data
      silent := false
      actions := none }
  userId := n.userId
  segmentName := n.segment
  tokens := none
  scheduledAt := none

/-- The notification waits, and its time has come. -/
def PushNotification.isDue (n : PushNotification) (now : ℕ) : Bool :=
  n.status = .pending && n.scheduledAt.any (· ≤ now)

/-- How far `processScheduledNotifications` has got: before it looks for the notifications, before
it marks the next one, and while it sends one. -/
inductive ProcessStage
  | starting
  | next (due : List PushNotification)
  | sending (n : PushNotification) (due : List PushNotification) (stage : SendStage)
  deriving DecidableEq, Repr

/-- One statement of `processScheduledNotifications`. -/
def processTurn (dryRun : Bool) (db : PushDb) (stage : ProcessStage) (input : PushInput) :
    PushDb × ProcessStage :=
  match stage with
  | .starting => (db, .next ((db.notifications.values.filter fun n => n.isDue input.now).take 50))
  | .next [] => (db, stage)
  | .next (n :: due) => (db.setStatus n.id .sending, .sending n due .starting)
  | .sending _ due (.finished _) => (db, .next due)
  | .sending n due stage =>
    let (db', stage') := sendTurn dryRun (some n.id) n.resend db stage input
    (db', .sending n due stage')

/-! ### Calls that interleave -/

inductive PushCall
  | send (options : SendPushOptions) (stage : SendStage)
  | process (stage : ProcessStage)
  deriving DecidableEq, Repr

/-- One statement of a call. -/
def pushTurn (dryRun : Bool) (db : PushDb) (call : PushCall) (input : PushInput) :
    PushDb × PushCall :=
  match call with
  | .send options stage =>
    let (db', stage') := sendTurn dryRun none options db stage input
    (db', .send options stage')
  | .process stage =>
    let (db', stage') := processTurn dryRun db stage input
    (db', .process stage')

/-- What happens: a call of either function, or the next statement of a call. -/
inductive PushAct
  | send (options : SendPushOptions)
  | process
  | turn (i : ℕ) (input : PushInput)
  deriving DecidableEq, Repr

abbrev PushPool : Type := Pool PushDb PushCall

def pushStep (dryRun : Bool) (p : PushPool) : PushAct → PushPool
  | .send options => p.start (.send options .starting)
  | .process => p.start (.process .starting)
  | .turn i input => p.resume (pushTurn dryRun) i input

/-! ### What a call writes -/

/-- The notification that `sendPushNotification` has created. -/
def SendStage.id? : SendStage → Option ℕ
  | resolving id | segment id _ | noTargets id | delivering id .. => some id
  | starting | finished _ => none

/-- The notification that a call has created last. -/
def PushCall.id? : PushCall → Option ℕ
  | send _ stage | process (.sending _ _ stage) => stage.id?
  | process .starting | process (.next _) => none

/-- There is no row of a delivery of the notification. -/
def NoRow (n : ℕ) (db : PushDb) : Prop :=
  ∀ k d, db.deliveries.get k = some d → d.notificationId ≠ n

/-- What has been stored of a notification stays, and no delivery of it is stored. -/
structure Leaves (n : ℕ) (db db' : PushDb) : Prop where
  notification : db'.notifications.get n = db.notifications.get n
  noRow : NoRow n db → NoRow n db'
  next : db.nextNotification ≤ db'.nextNotification

variable {n : ℕ} {db db' : PushDb} {options : SendPushOptions} {input : PushInput}
  {stage : SendStage}

theorem Leaves.refl (n : ℕ) (db : PushDb) : Leaves n db db := ⟨rfl, fun h => h, le_rfl⟩

theorem leaves_updateDelivery {f : PushDelivery → PushDelivery}
    (hf : ∀ d, (f d).notificationId = d.notificationId) (k : ℕ) :
    Leaves n db (db.updateDelivery k f) where
  notification := rfl
  noRow h k' d hd := by
    rw [PushDb.updateDelivery, InsertionMap.get_modify] at hd
    split_ifs at hd
    · obtain ⟨d', hd', rfl⟩ := Option.map_eq_some_iff.1 hd
      exact (hf d').trans_ne (h k' d' hd')
    · exact h k' d hd
  next := le_rfl

theorem leaves_setSent {id : ℕ} (hid : id ≠ n) (status : NotificationStatus) (now : ℕ) :
    Leaves n db (db.setSent id status now) where
  notification := by rw [PushDb.setSent, InsertionMap.get_modify, if_neg hid.symm]
  noRow h := h
  next := le_rfl

theorem deliverTurn_leaves {id : ℕ} (hid : id ≠ n) (dryRun : Bool) (about : ℕ)
    (payload : PushPayload) (db : PushDb) (target : PushToken) (stage : DeliveryStage)
    (input : PushInput) :
    Leaves n db (deliverTurn dryRun about id payload db target stage input).1 := by
  cases stage with
  | starting =>
    refine ⟨rfl, fun h k d hd => ?_, le_rfl⟩
    dsimp only [deliverTurn] at hd
    rw [InsertionMap.get_set] at hd
    split_ifs at hd
    · exact Option.some.inj hd ▸ hid
    · exact h k d hd
  | stored delivery =>
    rw [deliverTurn]
    split_ifs
    · exact leaves_updateDelivery (f := (·.delivered input.now)) (fun _ => rfl) delivery
    · exact ⟨rfl, fun h => h, le_rfl⟩
  | answered delivery error =>
    cases error with
    | none => exact leaves_updateDelivery (f := (·.delivered input.now)) (fun _ => rfl) delivery
    | some error =>
      exact leaves_updateDelivery (f := (·.undelivered error)) (fun _ => rfl) delivery
  | unregistered | finished => exact ⟨rfl, fun h => h, le_rfl⟩

theorem nextNotification_deliverTurn (dryRun : Bool) (about id : ℕ) (payload : PushPayload)
    (db : PushDb) (target : PushToken) (stage : DeliveryStage) (input : PushInput) :
    (deliverTurn dryRun about id payload db target stage input).1.nextNotification =
      db.nextNotification := by
  cases stage with
  | stored delivery =>
    rw [deliverTurn]
    split_ifs <;> rfl
  | answered delivery error => cases error <;> rfl
  | starting | unregistered | finished => rfl

theorem id?_found {id : ℕ} {targets : List PushToken} :
    (SendStage.found id targets).id? = some id := by
  unfold SendStage.found
  split_ifs <;> rfl

theorem id?_resolve {id : ℕ} : (resolve db options id).id? = some id := by
  unfold resolve
  split
  · exact id?_found
  · exact id?_found
  · split
    · exact id?_found
    · rfl
  · exact id?_found

/-- **What `sendPushNotification` writes**: it leaves every other notification alone, and what it
writes about is the one that it has created. -/
theorem sendTurn_leaves (dryRun : Bool) (about : Option ℕ) (hn : n < db.nextNotification)
    (hid : stage.id? ≠ some n) :
    Leaves n db (sendTurn dryRun about options db stage input).1 ∧
      (sendTurn dryRun about options db stage input).2.id? ≠ some n := by
  cases stage with
  | starting =>
    refine ⟨⟨?_, fun h => h, Nat.le_succ _⟩, ?_⟩
    · rw [sendTurn, InsertionMap.get_set, if_neg hn.ne]
    · rw [sendTurn]
      split_ifs
      · exact (Option.some_ne_none n).symm
      · exact fun h => hn.ne' (Option.some.inj h)
  | resolving id => exact ⟨.refl n db, id?_resolve.trans_ne hid⟩
  | segment id filter => exact ⟨.refl n db, id?_found.trans_ne hid⟩
  | noTargets id =>
    exact ⟨leaves_setSent (fun h => hid (congrArg some h)) _ _, (Option.some_ne_none n).symm⟩
  | delivering id targets errors =>
    have hne : id ≠ n := fun h => hid (congrArg some h)
    rw [sendTurn]
    split_ifs
    · exact ⟨leaves_setSent hne _ _, (Option.some_ne_none n).symm⟩
    · split
      · exact ⟨.refl n db, hid⟩
      · exact ⟨deliverTurn_leaves hne .., hid⟩
  | finished result => exact ⟨.refl n db, hid⟩

/-- The notifications that have been created come before the next one. -/
theorem sendTurn_fresh (dryRun : Bool) (about : Option ℕ)
    (hid : ∀ id, stage.id? = some id → id < db.nextNotification) :
    db.nextNotification ≤ (sendTurn dryRun about options db stage input).1.nextNotification ∧
      ∀ id, (sendTurn dryRun about options db stage input).2.id? = some id →
        id < (sendTurn dryRun about options db stage input).1.nextNotification := by
  have hnone : ∀ {P : Prop} (id : ℕ), (none : Option ℕ) = some id → P := fun id h =>
    absurd h.symm (Option.some_ne_none id)
  cases stage with
  | starting =>
    refine ⟨Nat.le_succ _, fun id h => ?_⟩
    rw [sendTurn] at h
    split_ifs at h
    · exact hnone id h
    · exact Option.some.inj h ▸ Nat.lt_succ_self _
  | resolving id => exact ⟨le_rfl, fun id' h => hid id' (id?_resolve.symm.trans h)⟩
  | segment id filter => exact ⟨le_rfl, fun id' h => hid id' (id?_found.symm.trans h)⟩
  | noTargets id => exact ⟨le_rfl, fun id' h => hnone id' h⟩
  | delivering id targets errors =>
    rw [sendTurn]
    split_ifs
    · exact ⟨le_rfl, fun id' h => hnone id' h⟩
    · split
      · exact ⟨le_rfl, hid⟩
      · dsimp only
        rw [nextNotification_deliverTurn]
        exact ⟨le_rfl, hid⟩
  | finished result => exact ⟨le_rfl, fun id' h => hnone id' h⟩

/-- What a statement of a call does: it writes nothing, or marks a notification, or is one of
`sendPushNotification`. -/
inductive PushTurnSpec (dryRun : Bool) (db : PushDb) (input : PushInput) :
    PushCall → PushDb → PushCall → Prop
  | quiet {call call' : PushCall} (hid : call'.id? = none) :
      PushTurnSpec dryRun db input call db call'
  | marked {call call' : PushCall} (id : ℕ) (hid : call'.id? = none) :
      PushTurnSpec dryRun db input call (db.setStatus id .sending) call'
  | send {call call' : PushCall} (about : Option ℕ) (options : SendPushOptions) (stage : SendStage)
      (hid : call.id? = stage.id?)
      (hid' : call'.id? = (sendTurn dryRun about options db stage input).2.id?) :
      PushTurnSpec dryRun db input call (sendTurn dryRun about options db stage input).1 call'

theorem pushTurnSpec (dryRun : Bool) (db : PushDb) (call : PushCall) (input : PushInput) :
    PushTurnSpec dryRun db input call (pushTurn dryRun db call input).1
      (pushTurn dryRun db call input).2 := by
  rcases call with ⟨options, stage⟩ | stage
  · exact .send none options stage rfl rfl
  · cases stage with
    | starting => exact .quiet rfl
    | next due =>
      cases due with
      | nil => exact .quiet rfl
      | cons row due => exact .marked row.id rfl
    | sending row due stage =>
      have hsend : (∀ result, stage ≠ .finished result) →
          processTurn dryRun db (.sending row due stage) input =
            ((sendTurn dryRun (some row.id) row.resend db stage input).1,
              .sending row due (sendTurn dryRun (some row.id) row.resend db stage input).2) := by
        intro hopen
        cases stage with
        | finished result => exact absurd rfl (hopen result)
        | _ => rfl
      by_cases hopen : ∀ result, stage ≠ .finished result
      · rw [pushTurn, hsend hopen]
        exact .send (some row.id) row.resend stage rfl rfl
      · obtain ⟨result, hresult⟩ := not_forall.1 hopen
        obtain rfl := not_not.1 hresult
        exact .quiet rfl

end SorobanPay.Push
