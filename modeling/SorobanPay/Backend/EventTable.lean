import Mathlib.Data.List.ReduceOption
import SorobanPay.Backend.EventIndexer
import SorobanPay.Backend.Repairs
import SorobanPay.Frontend.NativeValues

/-!
# The two replays of the table of events

`services/reconciler.ts` reads the rows of `Event`, oldest first, for two purposes: `load` builds
the database of the subscriptions that are live, and `fetchChainEventsFromDB` makes of the rows the
events that the reconciler replays. Both take `BigInt` of the amount of every row and throw where it
is no integer; then there is no result.

The two replays come to the same records (`Agrees`). So the reconciler has nothing to repair in the
loaded database, and reports of it the payments without a live subscription only.

## Main definitions

* `loadRow`, `load`: the database that is built from the rows.
* `chainEventOf`, `fetchChainEventsFromDB`: the events of the rows.
* `Agrees`: a database that holds what is expected.

## Main results

* `agrees_load`: the two replays come to the same.
* `reconcile_load`: the reconciler leaves the loaded database alone.
-/

set_option autoImplicit false

namespace SorobanPay.EventIndexer

open Foundation Frontend

/-! ### The two readers -/

/-- The type of an event of the reconciler, for a row that has one. -/
def chainEventType : EventType → Option ChainEventType
  | .subscribe => some .subscribe
  | .executed => some .executed
  | .cancel => some .cancel
  | .paymentTransferFailure => none

/-- The event that a row is read as. Of a row of any other type, which the reconciler passes over,
there is none. -/
def chainEventOf (row : EventRow) : Option (Option ChainEvent) := do
  let amount ← bigIntOfText row.amount
  return (chainEventType row.type).map fun type =>
    { type := type
      subscriber := row.subscriber
      merchant := row.merchant
      token := row.token
      amount := amount
      timestamp := row.ledgerTimestamp }

/-- `fetchChainEventsFromDB`, for the rows in their order. -/
def fetchChainEventsFromDB (rows : List EventRow) : Option (List ChainEvent) :=
  (rows.mapM chainEventOf).map List.reduceOption

/-- One row of `PrismaSubscriptionDB.load`. -/
def loadRow (defaultInterval : ℕ) (db : SubscriptionDB) (row : EventRow) :
    Option SubscriptionDB := do
  let key := recordKey row.subscriber row.merchant row.token
  let ts := row.ledgerTimestamp
  let amount ← bigIntOfText row.amount
  match row.type with
  | .subscribe =>
    let prev := db.store.get key
    let interval := (prev.map (·.interval)).getD defaultInterval
    return ⟨db.store.set key
      { subscriber := row.subscriber
        merchant := row.merchant
        token := row.token
        amount := .bigint amount
        interval := interval
        nextPayment := ts + interval
        lastPaymentAt := prev.bind (·.lastPaymentAt) }⟩
  | .executed =>
    match db.store.get key with
    | none => return db
    | some cur =>
      return ⟨db.store.set key
        { cur with
          amount := .bigint amount
          lastPaymentAt := some ts
          nextPayment := ts + cur.interval }⟩
  | .cancel => return ⟨db.store.erase key⟩
  | .paymentTransferFailure => return db

/-- `PrismaSubscriptionDB.load`, for the rows in their order. -/
def load (rows : List EventRow) (defaultInterval : ℕ) : Option SubscriptionDB :=
  rows.foldlM (loadRow defaultInterval) .empty

/-! ### Agreement -/

/-- The database holds what is expected, key by key. -/
def Agrees (db : SubscriptionDB) (expected : Expected) : Prop :=
  ∀ key, db.store.get key = (expected.get key).join

variable {defaultInterval : ℕ} {db : SubscriptionDB} {expected : Expected} {rows : List EventRow}
  {row : EventRow}

theorem Agrees.set (h : Agrees db expected) (key : String) (r : StoredSubscription) :
    Agrees ⟨db.store.set key r⟩ (expected.set key (some r)) := by
  intro key'
  simp only [InsertionMap.get_set]
  split_ifs
  · rfl
  · exact h key'

theorem Agrees.erase (h : Agrees db expected) (key : String) :
    Agrees ⟨db.store.erase key⟩ (expected.set key none) := by
  intro key'
  simp only [InsertionMap.get_set, InsertionMap.get_erase]
  split_ifs
  · rfl
  · exact h key'

variable (defaultInterval) in
/-- A row and its event keep the agreement. -/
theorem Agrees.loadRow (h : Agrees db expected) {amount : ℤ}
    (hamount : bigIntOfText row.amount = some amount) (errors : List String) :
    ∃ db' event, loadRow defaultInterval db row = some db' ∧ chainEventOf row = some event ∧
      Agrees db' (event.elim expected fun ev =>
        (replayEvent defaultInterval (expected, errors) ev).1) := by
  have hkey := h (recordKey row.subscriber row.merchant row.token)
  simp only [EventIndexer.loadRow, chainEventOf, hamount, Option.bind_eq_bind, Option.bind_some]
  rcases htype : row.type with _ | _ | _ | _
  · refine ⟨_, _, rfl, rfl, ?_⟩
    rw [chainEventType, Option.map_some, Option.elim_some, replayEvent_eq, if_neg (by simp)]
    simp only [ChainEvent.apply, ChainEvent.key, ← hkey]
    exact h.set _ _
  · rcases hcur : db.store.get (recordKey row.subscriber row.merchant row.token) with _ | cur
    · refine ⟨_, _, rfl, rfl, ?_⟩
      rw [chainEventType, Option.map_some, Option.elim_some, replayEvent_eq, ChainEvent.key,
        ← hkey, hcur, if_pos ⟨rfl, rfl⟩]
      exact h
    · refine ⟨_, _, rfl, rfl, ?_⟩
      rw [chainEventType, Option.map_some, Option.elim_some, replayEvent_eq, ChainEvent.key,
        ← hkey, hcur, if_neg (by simp)]
      exact h.set _ _
  · refine ⟨_, _, rfl, rfl, ?_⟩
    rw [chainEventType, Option.map_some, Option.elim_some, replayEvent_eq, if_neg (by simp)]
    exact h.erase _
  · exact ⟨_, _, rfl, rfl, h⟩

variable (defaultInterval) in
/-- The rows and their events keep the agreement. -/
theorem Agrees.foldlM_loadRow (h : Agrees db expected)
    (hamounts : ∀ row ∈ rows, (bigIntOfText row.amount).isSome = true) (errors : List String) :
    ∃ db' events, rows.foldlM (EventIndexer.loadRow defaultInterval) db = some db' ∧
      rows.mapM chainEventOf = some events ∧
      Agrees db'
        (events.reduceOption.foldl (replayEvent defaultInterval) (expected, errors)).1 := by
  induction rows generalizing db expected errors with
  | nil => exact ⟨db, [], rfl, rfl, h⟩
  | cons row rows ih =>
    obtain ⟨amount, hamount⟩ := Option.isSome_iff_exists.1 (hamounts row List.mem_cons_self)
    have hrest : ∀ row' ∈ rows, (bigIntOfText row'.amount).isSome = true := fun row' h' =>
      hamounts row' (List.mem_cons_of_mem _ h')
    obtain ⟨db₁, event, hload, hevent, hagrees⟩ :=
      h.loadRow defaultInterval hamount errors
    rcases event with _ | ev
    · obtain ⟨db₂, events, hloads, hevents, hagrees₂⟩ := ih hagrees hrest errors
      refine ⟨db₂, none :: events, ?_, ?_, hagrees₂⟩
      · rw [List.foldlM_cons, hload]
        exact hloads
      · rw [List.mapM_cons, hevent, hevents]
        rfl
    · obtain ⟨db₂, events, hloads, hevents, hagrees₂⟩ := ih hagrees hrest
        (replayEvent defaultInterval (expected, errors) ev).2
      refine ⟨db₂, some ev :: events, ?_, ?_, hagrees₂⟩
      · rw [List.foldlM_cons, hload]
        exact hloads
      · rw [List.mapM_cons, hevent, hevents]
        rfl

/-- **The two replays agree.** Where the amounts are integers, both readers have a result, and the
database holds what the reconciler expects. -/
theorem agrees_load (hamounts : ∀ row ∈ rows, (bigIntOfText row.amount).isSome = true)
    (defaultInterval : ℕ) :
    ∃ db events, load rows defaultInterval = some db ∧ fetchChainEventsFromDB rows = some events ∧
      Agrees db (replayEvents events defaultInterval).1 := by
  have hstart : Agrees .empty .empty := fun _ => rfl
  obtain ⟨db, events, hload, hevents, hagrees⟩ :=
    hstart.foldlM_loadRow defaultInterval hamounts []
  exact ⟨db, events.reduceOption, hload, by rw [fetchChainEventsFromDB, hevents, Option.map_some],
    hagrees⟩

/-! ### The reconciler on the loaded database -/

theorem exists_of_mem_mapM {α β : Type} {f : α → Option β} {l : List α} {l' : List β} {b : β}
    (h : l.mapM f = some l') (hb : b ∈ l') : ∃ a ∈ l, f a = some b := by
  induction l generalizing l' with
  | nil =>
    obtain rfl := Option.some.inj h
    cases hb
  | cons a l ih =>
    rw [List.mapM_cons] at h
    rcases ha : f a with _ | b'
    · rw [ha] at h
      cases h
    · rcases hl : l.mapM f with _ | l''
      · rw [ha, hl] at h
        cases h
      · rw [ha, hl] at h
        obtain rfl := Option.some.inj h
        rcases List.mem_cons.1 hb with rfl | hb
        · exact ⟨a, List.mem_cons_self, ha⟩
        · obtain ⟨a', ha', hf⟩ := ih hl hb
          exact ⟨a', List.mem_cons_of_mem _ ha', hf⟩

/-- The texts of an event are those of its row. -/
theorem colonFree_of_fetch {events : List ChainEvent}
    (hcolon : ∀ row ∈ rows, ColonFree row.subscriber row.merchant row.token)
    (h : fetchChainEventsFromDB rows = some events) : ∀ ev ∈ events, ev.ColonFree := by
  intro ev hev
  obtain ⟨events', hevents', rfl⟩ := Option.map_eq_some_iff.1 h
  obtain ⟨row, hrow, hrowEvent⟩ := exists_of_mem_mapM hevents' (List.reduceOption_mem_iff.1 hev)
  obtain ⟨amount, -, hsome⟩ := Option.bind_eq_some_iff.1 hrowEvent
  obtain ⟨type, -, rfl⟩ := Option.map_eq_some_iff.1 (Option.some.inj hsome)
  exact hcolon row hrow

/-- What agrees with the events is under its own keys. -/
theorem Agrees.keyed {events : List ChainEvent} (hevents : ∀ ev ∈ events, ev.ColonFree)
    (h : Agrees db (replayEvents events defaultInterval).1) : db.Keyed where
  own key r hget := (keyed_replayEvents _ hevents).own key r
    (Option.join_eq_some_iff.1 ((h key).symm.trans hget))
  colonFree key _ hget := colonFree_of_get_replayEvents hevents
    (Option.join_eq_some_iff.1 ((h key).symm.trans hget))

/-- The amounts of what agrees with the events are numbers. -/
theorem Agrees.exists_bigint {events : List ChainEvent} (hevents : ∀ ev ∈ events, ev.ColonFree)
    (h : Agrees db (replayEvents events defaultInterval).1) {key : String} {r : StoredSubscription}
    (hget : db.store.get key = some r) : ∃ n, r.amount = .bigint n :=
  exists_bigint_of_get_replayEvents hevents (Option.join_eq_some_iff.1 ((h key).symm.trans hget))

theorem Agrees.legible {events : List ChainEvent} (hevents : ∀ ev ∈ events, ev.ColonFree)
    (h : Agrees db (replayEvents events defaultInterval).1) : Legible events db := by
  intro s m t r _ _ hget _
  obtain ⟨n, hn⟩ := h.exists_bigint hevents hget
  exact ⟨n, by rw [hn]; rfl⟩

/-- What agrees with the events is left alone. -/
theorem Agrees.reconcile_eq {events : List ChainEvent} (hevents : ∀ ev ∈ events, ev.ColonFree)
    (h : Agrees db (replayEvents events defaultInterval).1) :
    reconcile events db defaultInterval =
      (db, .ok ⟨[], (dangling [] events).map danglingText⟩) := by
  have hlegible := h.legible hevents
  have hnone : ∀ entry ∈ (replayEvents events defaultInterval).1.entries,
      repairOf db entry = none := by
    intro entry hentry
    have hwant := InsertionMap.mem_entries_iff.1 hentry
    refine (repairOf_eq_none_iff_get hevents (h.keyed hevents) hlegible hwant).2 ?_
    have hget : db.store.get entry.1 = entry.2 := by rw [h, hwant, Option.join_some]
    rcases hstored : entry.2 with _ | r
    · rw [hget, hstored, Option.map_none]
    · rw [hget, hstored, Option.map_some,
        numbered_eq_self (h.exists_bigint hevents (hget.trans hstored))]
  have hneeding : needing db (replayEvents events defaultInterval).1.entries = [] :=
    List.filter_eq_nil_iff.2 fun entry hentry => by simp [hnone entry hentry]
  have horphans : db.all.filterMap (orphanError (replayEvents events defaultInterval).1) = [] := by
    refine List.filterMap_eq_nil_iff.2 fun r hr => ?_
    obtain ⟨key, hget⟩ := InsertionMap.mem_values_iff.1 hr
    have hwant := Option.join_eq_some_iff.1 ((h key).symm.trans hget)
    rw [orphanError_def, (h.keyed hevents).own key r hget, hwant]
    rfl
  rw [reconcile_eq_of_legible hevents hlegible]
  simp only [hneeding, InsertionMap.patch_nil, List.filterMap_eq_nil_iff.2 hnone, horphans,
    replayEvents_snd hevents, List.append_nil]

/-- **The reconciler on the loaded database.** Where the amounts of the rows are integers and no
text contains a colon, the database that is loaded holds, key by key, what the reconciler expects,
and reconciling it repairs nothing and reports no row. -/
theorem reconcile_load (hamounts : ∀ row ∈ rows, (bigIntOfText row.amount).isSome = true)
    (hcolon : ∀ row ∈ rows, ColonFree row.subscriber row.merchant row.token)
    (defaultInterval : ℕ) :
    ∃ db events, load rows defaultInterval = some db ∧ fetchChainEventsFromDB rows = some events ∧
      Agrees db (replayEvents events defaultInterval).1 ∧
      reconcile events db defaultInterval =
        (db, .ok ⟨[], (dangling [] events).map danglingText⟩) := by
  obtain ⟨db, events, hload, hfetch, hagrees⟩ := agrees_load hamounts defaultInterval
  exact ⟨db, events, hload, hfetch, hagrees,
    hagrees.reconcile_eq (colonFree_of_fetch hcolon hfetch)⟩

/-- Rows of a subscription that is made again after it has been cancelled, with a payment before
it. -/
def sampleRows : List EventRow :=
  [⟨.executed, "a", "b", "c", "70", 5⟩, ⟨.subscribe, "a", "b", "c", "100", 10⟩,
    ⟨.cancel, "a", "b", "c", "0", 20⟩, ⟨.subscribe, "a", "b", "c", "50", 30⟩]

theorem reconcile_load_sample :
    ∃ db events, load sampleRows 86400 = some db ∧
      fetchChainEventsFromDB sampleRows = some events ∧
      Agrees db (replayEvents events 86400).1 ∧
      reconcile events db 86400 = (db, .ok ⟨[], (dangling [] events).map danglingText⟩) :=
  reconcile_load (by decide +kernel) (by decide) 86400

end SorobanPay.EventIndexer
