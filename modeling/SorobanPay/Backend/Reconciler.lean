import SorobanPay.Foundation.Patching
import SorobanPay.Frontend.NativeValues

/-!
# The reconciler

`reconcile` of `backend/reconciler.ts` replays the events of the chain into a map from keys
`subscriber:merchant:token` to the records that are to be stored, with `null` where none is to be
stored, and then repairs the database. The database is the in-memory one that implements its
interface `SubscriptionDB`, a map by the same keys.

The amount of a record is a number or a text. Where a stored amount is compared and its text is no
integer, `toBigInt` throws: the reconciler ends there, and the repairs before it stay.

## Main definitions

* `ChainEvent`, `StoredAmount`, `StoredSubscription`, `SubscriptionDB`, `ReconcileResult`: the data.
* `reconcile`: the reconciler.
* `repairOf`, `failureOf`: what comes of one of the expected records.
* `reached`, `needing`: the expected records before the first failure, and those to be repaired.

## Main results

* `splitKey_recordKey`: a key is taken apart as it was put together.
* `repairLoop_repairEntry`, `reconcile_eq`: the repairs, in terms of the database before the first
  one.
* `get_reconcile`: what is stored after an empty database has been reconciled.
-/

set_option autoImplicit false

namespace SorobanPay

open Foundation

/-! ### Data -/

/-- `EventType` of the reconciler. -/
inductive ChainEventType
  | subscribe
  | executed
  | cancel
  deriving DecidableEq, Repr

/-- `ChainEvent`. -/
structure ChainEvent where
  type : ChainEventType
  subscriber : String
  merchant : String
  token : String
  amount : ℤ
  timestamp : ℕ
  deriving DecidableEq, Repr

/-- The amount of a record, `bigint | string`. -/
inductive StoredAmount
  | bigint (value : ℤ)
  | text (value : String)
  deriving DecidableEq, Repr

/-- `toBigInt`. `BigInt` throws if the text is no integer. -/
def StoredAmount.toBigInt : StoredAmount → Except String ℤ
  | .bigint value => .ok value
  | .text value =>
    match Frontend.bigIntOfText value with
    | some amount => .ok amount
    | none => .error ("Cannot convert " ++ value ++ " to a BigInt")

/-- The amount is a number or the text of one. -/
def StoredAmount.Readable (amount : StoredAmount) : Prop := ∃ n, amount.toBigInt = .ok n

instance (amount : StoredAmount) : Decidable amount.Readable :=
  match h : amount.toBigInt with
  | .ok n => .isTrue ⟨n, h⟩
  | .error _ => .isFalse fun ⟨_, hn⟩ => by rw [h] at hn; cases hn

/-- `StoredSubscription`. -/
structure StoredSubscription where
  subscriber : String
  merchant : String
  token : String
  amount : StoredAmount
  interval : ℕ
  nextPayment : ℕ
  lastPaymentAt : Option ℕ
  deriving DecidableEq, Repr

/-- The key of a subscription, `subscriber:merchant:token`. -/
def recordKey (subscriber merchant token : String) : String :=
  subscriber ++ ":" ++ merchant ++ ":" ++ token

/-- The three parts of a key, split at the colons. -/
def splitKey (key : String) : String × String × String :=
  let parts := (key.toList.splitOn ':').map String.ofList
  (parts.getD 0 "", parts.getD 1 "", parts.getD 2 "")

/-- `SubscriptionDB`, in memory. -/
structure SubscriptionDB where
  store : InsertionMap String StoredSubscription

namespace SubscriptionDB

/-- The database without records. -/
def empty : SubscriptionDB := ⟨.empty⟩

/-- `get`. -/
def get (db : SubscriptionDB) (subscriber merchant token : String) : Option StoredSubscription :=
  db.store.get (recordKey subscriber merchant token)

/-- `upsert`. -/
def upsert (db : SubscriptionDB) (record : StoredSubscription) : SubscriptionDB :=
  ⟨db.store.set (recordKey record.subscriber record.merchant record.token) record⟩

/-- `delete`. -/
def delete (db : SubscriptionDB) (subscriber merchant token : String) : SubscriptionDB :=
  ⟨db.store.erase (recordKey subscriber merchant token)⟩

/-- `all`. -/
def all (db : SubscriptionDB) : List StoredSubscription := db.store.values

end SubscriptionDB

/-- `RepairAction`. -/
inductive RepairAction
  | insert (record : StoredSubscription)
  | update (previous next : StoredSubscription)
  | delete (subscriber merchant : String)
  deriving DecidableEq, Repr

/-- `ReconcileResult`. -/
structure ReconcileResult where
  repairs : List RepairAction
  errors : List String
  deriving DecidableEq, Repr

/-! ### Reconciling -/

/-- The records that are to be stored; `none` stands for `null`. -/
abbrev Expected : Type := InsertionMap String (Option StoredSubscription)

/-- One event of the replay. -/
def replayEvent (defaultInterval : ℕ) (state : Expected × List String) (ev : ChainEvent) :
    Expected × List String :=
  let (expected, errors) := state
  let key := recordKey ev.subscriber ev.merchant ev.token
  let cur := (expected.get key).join
  match ev.type with
  | .subscribe =>
    let interval := (cur.map (·.interval)).getD defaultInterval
    (expected.set key (some
      { subscriber := ev.subscriber
        merchant := ev.merchant
        token := ev.token
        amount := .bigint ev.amount
        interval := interval
        nextPayment := ev.timestamp + interval
        lastPaymentAt := cur.bind (·.lastPaymentAt) }), errors)
  | .executed =>
    match cur with
    | none =>
      (expected, errors ++ ["executed event for " ++ key ++ " at t=" ++ toString ev.timestamp ++
        " has no preceding subscribe"])
    | some cur =>
      (expected.set key (some
        { cur with
          amount := .bigint ev.amount
          lastPaymentAt := some ev.timestamp
          nextPayment := ev.timestamp + cur.interval }), errors)
  | .cancel => (expected.set key none, errors)

/-- `recordsMatch`. The amounts are read if the tokens are the same. -/
def recordsMatch (a b : StoredSubscription) : Except String Bool :=
  if a.token = b.token then do
    let x ← a.amount.toBigInt
    let y ← b.amount.toBigInt
    return x = y && a.interval = b.interval && a.nextPayment = b.nextPayment &&
      a.lastPaymentAt = b.lastPaymentAt
  else return false

/-- The repair for one entry of the expected records. What throws does so before a change. -/
def repairEntry (state : SubscriptionDB × List RepairAction)
    (entry : String × Option StoredSubscription) :
    Except String (SubscriptionDB × List RepairAction) :=
  let (db, repairs) := state
  let (subscriber, merchant, token) := splitKey entry.1
  match entry.2, db.get subscriber merchant token with
  | none, some _ =>
    .ok (db.delete subscriber merchant token, repairs ++ [.delete subscriber merchant])
  | none, none => .ok (db, repairs)
  | some want, none => .ok (db.upsert want, repairs ++ [.insert want])
  | some want, some stored =>
    match recordsMatch stored want with
    | .error error => .error error
    | .ok true => .ok (db, repairs)
    | .ok false => .ok (db.upsert want, repairs ++ [.update stored want])

/-- The loop over the expected records: the state that it leaves, and what ends it, if one of them
throws. -/
def repairLoop {σ α : Type} (step : σ → α → Except String σ) : σ → List α → σ × Option String
  | state, [] => (state, none)
  | state, entry :: entries =>
    match step state entry with
    | .ok state => repairLoop step state entries
    | .error error => (state, some error)

/-- The error for a stored record, if the chain has no history for it. -/
def orphanError (expected : Expected) (stored : StoredSubscription) : Option String :=
  let key := recordKey stored.subscriber stored.merchant stored.token
  if (expected.get key).isSome then none
  else some ("orphan record in DB for " ++ key ++ " — no on-chain subscribe event found")

/-- The expected records after some events, and the errors among the events. -/
def replayEvents (events : List ChainEvent) (defaultInterval : ℕ) : Expected × List String :=
  events.foldl (replayEvent defaultInterval) (.empty, [])

/-- `reconcile`: the database afterwards, and the result, or what has been thrown. -/
def reconcile (events : List ChainEvent) (db : SubscriptionDB) (defaultInterval : ℕ) :
    SubscriptionDB × Except String ReconcileResult :=
  let (expected, errors) := replayEvents events defaultInterval
  let ((db, repairs), thrown) := repairLoop repairEntry (db, []) expected.entries
  (db, match thrown with
    | none => .ok ⟨repairs, errors ++ db.all.filterMap (orphanError expected)⟩
    | some error => .error error)

/-! ### Keys -/

theorem splitKey_recordKey {s m t : String} (hs : ':' ∉ s.toList) (hm : ':' ∉ m.toList)
    (ht : ':' ∉ t.toList) : splitKey (recordKey s m t) = (s, m, t) := by
  have hjoin : (recordKey s m t).toList = [':'].intercalate [s.toList, m.toList, t.toList] := by
    simp [recordKey, List.intercalate]
  have hparts : (recordKey s m t).toList.splitOn ':' = [s.toList, m.toList, t.toList] := by
    rw [hjoin]
    refine List.splitOn_intercalate ':' ?_ (List.cons_ne_nil _ _)
    simp only [List.forall_mem_cons, List.not_mem_nil, false_implies, implies_true, and_true]
    exact ⟨hs, hm, ht⟩
  simp [splitKey, hparts]

theorem recordKey_inj {s m t s' m' t' : String} (hs : ':' ∉ s.toList) (hm : ':' ∉ m.toList)
    (ht : ':' ∉ t.toList) (hs' : ':' ∉ s'.toList) (hm' : ':' ∉ m'.toList) (ht' : ':' ∉ t'.toList) :
    recordKey s m t = recordKey s' m' t' ↔ s = s' ∧ m = m' ∧ t = t' := by
  constructor
  · intro h
    have hsplit := congrArg splitKey h
    rw [splitKey_recordKey hs hm ht, splitKey_recordKey hs' hm' ht'] at hsplit
    simpa using hsplit
  · rintro ⟨rfl, rfl, rfl⟩
    rfl

/-! ### Records -/

section Records

variable {a b : StoredSubscription}

/-- Records of different tokens do not match, whatever their amounts are. -/
theorem recordsMatch_of_ne (h : a.token ≠ b.token) : recordsMatch a b = .ok false := by
  rw [recordsMatch, if_neg h]
  rfl

theorem recordsMatch_of_error {error : String} (htoken : a.token = b.token)
    (ha : a.amount.toBigInt = .error error) : recordsMatch a b = .error error := by
  rw [recordsMatch, if_pos htoken, ha]
  rfl

theorem recordsMatch_of_ok {x y : ℤ} (htoken : a.token = b.token) (ha : a.amount.toBigInt = .ok x)
    (hb : b.amount.toBigInt = .ok y) :
    recordsMatch a b = .ok (x = y && a.interval = b.interval && a.nextPayment = b.nextPayment &&
      a.lastPaymentAt = b.lastPaymentAt) := by
  rw [recordsMatch, if_pos htoken, ha, hb]
  rfl

/-- Only the amount of a record of the same token makes a comparison with a number fail. -/
theorem recordsMatch_eq_error_iff (hb : b.amount.Readable) :
    (∃ error, recordsMatch a b = .error error) ↔ a.token = b.token ∧ ¬ a.amount.Readable := by
  obtain ⟨y, hy⟩ := hb
  by_cases htoken : a.token = b.token
  · rcases hx : a.amount.toBigInt with error | x
    · simp [recordsMatch_of_error htoken hx, htoken, StoredAmount.Readable, hx]
    · simp [recordsMatch_of_ok htoken hx hy, StoredAmount.Readable, hx]
  · simp [recordsMatch_of_ne htoken, htoken]

end Records

/-! ### Repairs -/

/-- The expected records are under their own keys, and every key can be taken apart. -/
structure Expected.Keyed (expected : Expected) : Prop where
  split : ∀ key want, expected.get key = some want → ∀ s m t, splitKey key = (s, m, t) →
    recordKey s m t = key
  own : ∀ key record, expected.get key = some (some record) →
    recordKey record.subscriber record.merchant record.token = key

/-- What comes of an entry: the repair, if the entry needs one, or what is thrown. -/
def compareEntry (db : SubscriptionDB) (entry : String × Option StoredSubscription) :
    Except String (Option RepairAction) :=
  let (subscriber, merchant, token) := splitKey entry.1
  match entry.2, db.get subscriber merchant token with
  | none, some _ => .ok (some (.delete subscriber merchant))
  | none, none => .ok none
  | some want, none => .ok (some (.insert want))
  | some want, some stored =>
    match recordsMatch stored want with
    | .error error => .error error
    | .ok true => .ok none
    | .ok false => .ok (some (.update stored want))

/-- The repair of a stored record, if what is expected is another one or none. -/
def repairOf (db : SubscriptionDB) (entry : String × Option StoredSubscription) :
    Option RepairAction :=
  match compareEntry db entry with
  | .ok repair => repair
  | .error _ => none

/-- What is thrown where the stored amount is no integer. -/
def failureOf (db : SubscriptionDB) (entry : String × Option StoredSubscription) : Option String :=
  match compareEntry db entry with
  | .ok _ => none
  | .error error => some error

/-- The entries of the expected records that need a repair. -/
def needing (db : SubscriptionDB) (entries : List (String × Option StoredSubscription)) :
    List (String × Option StoredSubscription) :=
  entries.filter fun entry => (repairOf db entry).isSome

/-- The entries before the first one that throws. -/
def reached (db : SubscriptionDB) (entries : List (String × Option StoredSubscription)) :
    List (String × Option StoredSubscription) :=
  entries.takeWhile fun entry => (failureOf db entry).isNone

/-- What the first entry throws that does. -/
def thrown (db : SubscriptionDB) (entries : List (String × Option StoredSubscription)) :
    Option String :=
  entries.findSome? (failureOf db)

/-- An entry whose key can be taken apart, with a record that is under its own key. -/
structure KeyedEntry (entry : String × Option StoredSubscription) : Prop where
  split : recordKey (splitKey entry.1).1 (splitKey entry.1).2.1 (splitKey entry.1).2.2 = entry.1
  own : ∀ record, entry.2 = some record →
    recordKey record.subscriber record.merchant record.token = entry.1

theorem Expected.Keyed.keyedEntry {expected : Expected} (h : expected.Keyed)
    {entry : String × Option StoredSubscription} (hentry : entry ∈ expected.entries) :
    KeyedEntry entry where
  split := h.split entry.1 entry.2 (InsertionMap.mem_entries_iff.1 hentry) _ _ _ rfl
  own record hrecord := h.own entry.1 record (hrecord ▸ InsertionMap.mem_entries_iff.1 hentry)

variable {db db' : SubscriptionDB} {entry : String × Option StoredSubscription}
  {entries : List (String × Option StoredSubscription)} {repairs : List RepairAction}

/-- What is stored under the parts of a key is what is stored under the key. -/
theorem KeyedEntry.get_split (h : KeyedEntry entry) (db : SubscriptionDB) :
    db.get (splitKey entry.1).1 (splitKey entry.1).2.1 (splitKey entry.1).2.2 =
      db.store.get entry.1 := by
  rw [SubscriptionDB.get, h.split]

theorem compareEntry_congr (h : KeyedEntry entry)
    (hget : db'.store.get entry.1 = db.store.get entry.1) :
    compareEntry db' entry = compareEntry db entry := by
  simp only [compareEntry, h.get_split, hget]

/-- One step of the repairs, in terms of what comes of the entry. -/
theorem repairEntry_eq (h : KeyedEntry entry) :
    repairEntry (db, repairs) entry =
      (compareEntry db entry).map fun repair =>
        (if repair.isSome then ⟨db.store.put entry.1 entry.2⟩ else db,
          repairs ++ repair.toList) := by
  obtain ⟨key, want⟩ := entry
  have hsplit := h.split
  have hget := h.get_split db
  rcases want with _ | want
  · rcases hstored : db.store.get key with _ | stored <;>
      simp [repairEntry, compareEntry, hget, hstored, SubscriptionDB.delete, hsplit,
        InsertionMap.put, Except.map]
  · have hown := h.own want rfl
    rcases hstored : db.store.get key with _ | stored
    · simp [repairEntry, compareEntry, hget, hstored, SubscriptionDB.upsert, hown,
        InsertionMap.put, Except.map]
    · rcases hmatch : recordsMatch stored want with error | _ | _ <;>
        simp [repairEntry, compareEntry, hget, hstored, SubscriptionDB.upsert, hown,
          InsertionMap.put, Except.map, hmatch]

theorem needing_cons :
    needing db (entry :: entries) =
      if (repairOf db entry).isSome then entry :: needing db entries else needing db entries :=
  List.filter_cons

theorem reached_cons :
    reached db (entry :: entries) =
      if (failureOf db entry).isNone then entry :: reached db entries else [] :=
  List.takeWhile_cons

theorem thrown_cons :
    thrown db (entry :: entries) = (failureOf db entry).or (thrown db entries) := by
  rcases hfailure : failureOf db entry with _ | error <;> simp [thrown, hfailure]

/-- Nothing else about the database counts than what comes of the entries. -/
theorem reached_congr
    (h : ∀ entry ∈ entries, compareEntry db' entry = compareEntry db entry) :
    reached db' entries = reached db entries ∧ thrown db' entries = thrown db entries := by
  induction entries with
  | nil => exact ⟨rfl, rfl⟩
  | cons entry entries ih =>
    obtain ⟨hreached, hthrown⟩ := ih fun entry' h' => h entry' (List.mem_cons_of_mem _ h')
    have hfailure : failureOf db' entry = failureOf db entry := by
      rw [failureOf, h entry List.mem_cons_self, failureOf]
    rw [reached_cons, reached_cons, thrown_cons, thrown_cons, hfailure, hreached, hthrown]
    exact ⟨rfl, rfl⟩

theorem reached_sublist : (reached db entries).Sublist entries := List.takeWhile_sublist _

/-- All entries are reached if none throws. -/
theorem reached_eq (h : thrown db entries = none) : reached db entries = entries := by
  rw [thrown, List.findSome?_eq_none_iff] at h
  exact List.takeWhile_eq_self_iff.2 fun entry hentry => by rw [h entry hentry]; rfl

/-- **The repairs.** Every entry is compared with what was stored before the first repair, and up to
the first entry that throws the repairs bring what needs one to what is expected. -/
theorem repairLoop_repairEntry (db : SubscriptionDB) (repairs : List RepairAction)
    (hnodup : (entries.map Prod.fst).Nodup) (hkeyed : ∀ entry ∈ entries, KeyedEntry entry) :
    repairLoop repairEntry (db, repairs) entries =
      ((⟨db.store.patch (needing db (reached db entries))⟩,
        repairs ++ (reached db entries).filterMap (repairOf db)), thrown db entries) := by
  induction entries generalizing db repairs with
  | nil => simp [repairLoop, needing, reached, thrown]
  | cons entry entries ih =>
    obtain ⟨hnew, hnodup⟩ := List.nodup_cons.1 hnodup
    have hentry := hkeyed entry List.mem_cons_self
    have hrest : ∀ entry' ∈ entries, KeyedEntry entry' := fun entry' h =>
      hkeyed entry' (List.mem_cons_of_mem _ h)
    rw [repairLoop, repairEntry_eq hentry, reached_cons, thrown_cons]
    rcases hcompare : compareEntry db entry with error | _ | repair
    · have hfailure : failureOf db entry = some error := by rw [failureOf, hcompare]
      simp [hfailure, needing, Except.map]
    · have hfailure : failureOf db entry = none := by rw [failureOf, hcompare]
      have hrepair : repairOf db entry = none := by rw [repairOf, hcompare]
      simpa [hfailure, needing_cons, hrepair, Except.map] using ih db repairs hnodup hrest
    · have hfailure : failureOf db entry = none := by rw [failureOf, hcompare]
      have hrepair : repairOf db entry = some repair := by rw [repairOf, hcompare]
      -- the other entries do not see the repair
      have hsame : ∀ entry' ∈ entries,
          compareEntry ⟨db.store.put entry.1 entry.2⟩ entry' = compareEntry db entry' := by
        intro entry' hentry'
        refine compareEntry_congr (hrest entry' hentry') ?_
        rw [InsertionMap.get_put, if_neg]
        exact fun heq => hnew (List.mem_map.2 ⟨entry', hentry', heq⟩)
      obtain ⟨hreached, hthrown⟩ := reached_congr hsame
      have hrepairs : ∀ entry' ∈ reached db entries,
          repairOf ⟨db.store.put entry.1 entry.2⟩ entry' = repairOf db entry' :=
        fun entry' h => by rw [repairOf, hsame entry' (reached_sublist.subset h), repairOf]
      have hneeding : needing ⟨db.store.put entry.1 entry.2⟩ (reached db entries) =
          needing db (reached db entries) :=
        List.filter_congr fun entry' h => by rw [hrepairs entry' h]
      have hloop := ih ⟨db.store.put entry.1 entry.2⟩ (repairs ++ [repair]) hnodup hrest
      rw [hreached, hthrown, hneeding, List.filterMap_congr hrepairs] at hloop
      simpa [hfailure, needing_cons, hrepair, Except.map] using hloop

section Expected

variable {events : List ChainEvent} {defaultInterval : ℕ}

/-- `reconcile` in terms of the repairs. -/
theorem reconcile_eq (h : (replayEvents events defaultInterval).1.Keyed) :
    reconcile events db defaultInterval =
      let expected := (replayEvents events defaultInterval).1
      let reached := reached db expected.entries
      let db' := ⟨db.store.patch (needing db reached)⟩
      (db', match thrown db expected.entries with
        | none => .ok ⟨reached.filterMap (repairOf db),
            (replayEvents events defaultInterval).2 ++ db'.all.filterMap (orphanError expected)⟩
        | some error => .error error) := by
  have hloop := repairLoop_repairEntry db []
    (replayEvents events defaultInterval).1.nodup fun entry => h.keyedEntry
  rw [reconcile]
  simp only [hloop, List.nil_append]

/-- `reconcile` where nothing is thrown. -/
theorem reconcile_eq_ok (h : (replayEvents events defaultInterval).1.Keyed)
    (hthrown : thrown db (replayEvents events defaultInterval).1.entries = none) :
    reconcile events db defaultInterval =
      let expected := (replayEvents events defaultInterval).1
      let db' := ⟨db.store.patch (needing db expected.entries)⟩
      (db', .ok ⟨expected.entries.filterMap (repairOf db),
        (replayEvents events defaultInterval).2 ++ db'.all.filterMap (orphanError expected)⟩) := by
  rw [reconcile_eq h]
  simp only [hthrown, reached_eq hthrown]

/-- What is stored under a key after the repairs. -/
theorem get_patch_needing {expected : Expected} (key : String) :
    (db.store.patch (needing db expected.entries)).get key =
      ((expected.get key).filter fun want => (repairOf db (key, want)).isSome).getD
        (db.store.get key) := by
  have hentries : needing db expected.entries =
      (expected.filter fun key want => (repairOf db (key, want)).isSome).entries := rfl
  rw [hentries, InsertionMap.get_patch_entries, InsertionMap.get_filter]

/-- Nothing is thrown where nothing is stored. -/
theorem compareEntry_empty (entry : String × Option StoredSubscription) :
    compareEntry .empty entry = .ok (entry.2.map .insert) := by
  obtain ⟨key, _ | want⟩ := entry <;> rfl

theorem thrown_empty (entries : List (String × Option StoredSubscription)) :
    thrown .empty entries = none :=
  List.findSome?_eq_none_iff.2 fun entry _ => by rw [failureOf, compareEntry_empty]

/-- **What is stored after an empty database has been reconciled.** -/
theorem get_reconcile (h : (replayEvents events defaultInterval).1.Keyed) (key : String) :
    (reconcile events .empty defaultInterval).1.store.get key =
      ((replayEvents events defaultInterval).1.get key).join := by
  rw [reconcile_eq_ok h (thrown_empty _)]
  simp only [get_patch_needing, repairOf, compareEntry_empty]
  rcases hget : (replayEvents events defaultInterval).1.get key with _ | _ | record <;> rfl

end Expected

end SorobanPay
