import SorobanPay.Backend.KeyReplay

/-!
# The database after a reconciliation

Where no text contains a colon, every row is under its own key and the amounts that are compared can
be read, `reconcile` brings the database to what the events say: a subscription that some event
starts or ends has the replayed record, or none, and every other row is left alone and reported. A
row of which the events know payments only is among the latter. A row that agrees with the replayed
record is left as it is, so that its amount may be the text of the number. When the reconciler runs
again it finds nothing to repair.

## Main definitions

* `SubscriptionDB.Keyed`: the rows are under their own keys.
* `StoredSubscription.numbered`: a record with its amount as a number.
* `Reconciled`: what a reconciliation achieves.

## Main results

* `reconciled_reconcile`: the reconciler achieves it, and a second run repairs nothing.
-/

set_option autoImplicit false

namespace SorobanPay

open Foundation

/-- The texts of a record contain no colon. -/
def StoredSubscription.ColonFree (r : StoredSubscription) : Prop :=
  SorobanPay.ColonFree r.subscriber r.merchant r.token

instance (r : StoredSubscription) : Decidable r.ColonFree :=
  inferInstanceAs (Decidable (SorobanPay.ColonFree ..))

/-- The key of a record. -/
def StoredSubscription.key (r : StoredSubscription) : String :=
  recordKey r.subscriber r.merchant r.token

/-- The rows are under their own keys, and their texts contain no colon. -/
structure SubscriptionDB.Keyed (db : SubscriptionDB) : Prop where
  own : ∀ key r, db.store.get key = some r → r.key = key
  colonFree : ∀ key r, db.store.get key = some r → r.ColonFree

theorem SubscriptionDB.Keyed.empty : SubscriptionDB.empty.Keyed where
  own _ _ h := by cases h
  colonFree _ _ h := by cases h

theorem SubscriptionDB.Keyed.upsert {db : SubscriptionDB} (h : db.Keyed) {r : StoredSubscription}
    (hr : r.ColonFree) : (db.upsert r).Keyed where
  own key r' hget := by
    rw [SubscriptionDB.upsert, InsertionMap.get_set] at hget
    split_ifs at hget with hkey
    · rw [← Option.some.inj hget]
      exact hkey.symm
    · exact h.own key r' hget
  colonFree key r' hget := by
    rw [SubscriptionDB.upsert, InsertionMap.get_set] at hget
    split_ifs at hget with hkey
    · exact Option.some.inj hget ▸ hr
    · exact h.colonFree key r' hget

/-- What is reported of a row that the events do not start or end. -/
def orphanText (r : StoredSubscription) : String :=
  "orphan record in DB for " ++ r.key ++ " — no on-chain subscribe event found"

/-- The record with its amount as a number, where it can be read as one. -/
def StoredSubscription.numbered (r : StoredSubscription) : StoredSubscription :=
  match r.amount.toBigInt with
  | .ok n => { r with amount := .bigint n }
  | .error _ => r

/-- The database `after` is `db` brought to what the events say, and the errors are the payments
without a live subscription and the rows of subscriptions that no event starts or ends. -/
structure Reconciled (events : List ChainEvent) (defaultInterval : ℕ) (db after : SubscriptionDB)
    (errors : List String) : Prop where
  keyed : after.Keyed
  record : ∀ s m t, ColonFree s m t → after.get s m t =
    if Decided events s m t ∧
        (db.get s m t).map (·.numbered) ≠ replayed defaultInterval events s m t then
      replayed defaultInterval events s m t
    else db.get s m t
  errors : errors = (dangling [] events).map danglingText ++
    (db.all.filter fun r => ¬ Decided events r.subscriber r.merchant r.token).map orphanText

variable {events : List ChainEvent} {defaultInterval : ℕ} {db : SubscriptionDB}

/-! ### Rows -/

theorem orphanError_def (expected : Expected) (r : StoredSubscription) :
    orphanError expected r = if (expected.get r.key).isSome then none else some (orphanText r) :=
  rfl

/-- Rows of one subscription match exactly if they are the same, with the amount as a number. -/
theorem recordsMatch_iff {r w : StoredSubscription} (h : r.ColonFree) (h' : w.ColonFree)
    (hkey : r.key = w.key) (hr : r.amount.Readable) (hw : ∃ n, w.amount = .bigint n) :
    recordsMatch r w = .ok (decide (r.numbered = w)) := by
  obtain ⟨hs, hm, ht⟩ := (ColonFree.recordKey_inj h h').1 hkey
  obtain ⟨n, hn⟩ := hw
  obtain ⟨k, hk⟩ := hr
  have hwn : w.amount.toBigInt = .ok n := by rw [hn]; rfl
  rw [recordsMatch_of_ok ht hk hwn, StoredSubscription.numbered, hk]
  obtain ⟨s, m, t, amount, interval, nextPayment, lastPaymentAt⟩ := r
  obtain ⟨s', m', t', amount', interval', nextPayment', lastPaymentAt'⟩ := w
  subst hn
  dsimp only at hs hm ht ⊢
  subst hs hm ht
  simp [Bool.and_assoc]

/-- A record with a number is that record with its amount as a number. -/
theorem numbered_eq_self {r : StoredSubscription} (h : ∃ n, r.amount = .bigint n) :
    r.numbered = r := by
  obtain ⟨n, hn⟩ := h
  obtain ⟨s, m, t, amount, interval, nextPayment, lastPaymentAt⟩ := r
  subst hn
  rfl

/-- Nothing is to be repaired exactly where what is stored is what is expected, as far as the amount
is concerned as a number. -/
theorem repairOf_eq_none_iff (hdb : db.Keyed) {entry : String × Option StoredSubscription}
    (hentry : KeyedEntry entry) (hcolon : ∀ r, entry.2 = some r → r.ColonFree)
    (hamount : ∀ r, entry.2 = some r → ∃ n, r.amount = .bigint n)
    (hfailure : failureOf db entry = none) :
    repairOf db entry = none ↔ (db.store.get entry.1).map (·.numbered) = entry.2 := by
  obtain ⟨key, want⟩ := entry
  have hget := hentry.get_split db
  rcases want with _ | want
  · rcases hstored : db.store.get key with _ | stored <;>
      simp [repairOf, compareEntry, hget, hstored]
  · rcases hstored : db.store.get key with _ | stored
    · simp [repairOf, compareEntry, hget, hstored]
    · have hkey : stored.key = want.key := by
        rw [hdb.own key stored hstored]
        exact (hentry.own want rfl).symm
      have hcolon' := hdb.colonFree key stored hstored
      obtain ⟨-, -, htoken⟩ := (ColonFree.recordKey_inj hcolon' (hcolon want rfl)).1 hkey
      obtain ⟨n, hn⟩ := hamount want rfl
      have hreadable : stored.amount.Readable := by
        by_contra hnot
        obtain ⟨error, herror⟩ := (recordsMatch_eq_error_iff (b := want) ⟨n, by rw [hn]; rfl⟩).2
          ⟨htoken, hnot⟩
        simp [failureOf, compareEntry, hget, hstored, herror] at hfailure
      have hmatch := recordsMatch_iff hcolon' (hcolon want rfl) hkey hreadable ⟨n, hn⟩
      by_cases hsame : stored.numbered = want <;>
        simp [repairOf, compareEntry, hget, hstored, hmatch, hsame]

section Replay

variable (hevents : ∀ ev ∈ events, ev.ColonFree)

include hevents

theorem colonFree_of_get_replayEvents {key : String} {r : StoredSubscription}
    (h : (replayEvents events defaultInterval).1.get key = some (some r)) : r.ColonFree := by
  obtain ⟨ev, hev, -, hs, hm, ht⟩ := exists_names_of_get_replayEvents hevents h
  rw [StoredSubscription.ColonFree, hs, hm, ht]
  exact hevents ev hev

/-- Nothing is to be repaired exactly where what is expected is stored. -/
theorem repairOf_eq_none_iff_get (hdb : db.Keyed) (hlegible : Legible events db) {key : String}
    {want : Option StoredSubscription}
    (hwant : (replayEvents events defaultInterval).1.get key = some want) :
    repairOf db (key, want) = none ↔ (db.store.get key).map (·.numbered) = want := by
  have hentry := InsertionMap.mem_entries_iff.2 hwant
  have hthrown := (thrown_eq_none_iff hevents db defaultInterval).2 hlegible
  rw [thrown, List.findSome?_eq_none_iff] at hthrown
  refine repairOf_eq_none_iff hdb ((keyed_replayEvents _ hevents).keyedEntry hentry)
    (fun r hr => ?_) (fun r hr => ?_) (hthrown _ hentry)
  · exact colonFree_of_get_replayEvents hevents (hwant.trans (congrArg some hr))
  · exact exists_bigint_of_get_replayEvents hevents (hwant.trans (congrArg some hr))

/-- The reconciler where the amounts that are compared can be read. -/
theorem reconcile_eq_of_legible (hlegible : Legible events db) :
    reconcile events db defaultInterval =
      let expected := (replayEvents events defaultInterval).1
      let db' := ⟨db.store.patch (needing db expected.entries)⟩
      (db', .ok ⟨expected.entries.filterMap (repairOf db),
        (replayEvents events defaultInterval).2 ++ db'.all.filterMap (orphanError expected)⟩) :=
  reconcile_eq_ok (keyed_replayEvents _ hevents) ((thrown_eq_none_iff hevents _ _).2 hlegible)

/-- Where the amounts that are compared can be read, the reconciler returns. -/
theorem exists_result (hlegible : Legible events db) (defaultInterval : ℕ) :
    ∃ result, reconcile events db defaultInterval =
        ((reconcile events db defaultInterval).1, .ok result) ∧
      result.repairs =
        (replayEvents events defaultInterval).1.entries.filterMap (repairOf db) ∧
      result.errors = (replayEvents events defaultInterval).2 ++
        (reconcile events db defaultInterval).1.all.filterMap
          (orphanError (replayEvents events defaultInterval).1) := by
  rw [reconcile_eq_of_legible hevents hlegible]
  exact ⟨_, rfl, rfl, rfl⟩

/-- What is stored after the repairs: what is expected, where something else was stored, and
elsewhere what has been stored. -/
theorem get_repaired (hdb : db.Keyed) (hlegible : Legible events db) (key : String) :
    (reconcile events db defaultInterval).1.store.get key =
      ((((replayEvents events defaultInterval).1.get key).filter fun want =>
        (db.store.get key).map (·.numbered) ≠ want)).getD (db.store.get key) := by
  rw [reconcile_eq_of_legible hevents hlegible]
  simp only [get_patch_needing]
  rcases hwant : (replayEvents events defaultInterval).1.get key with _ | want
  · rfl
  · have hnone := repairOf_eq_none_iff_get hevents hdb hlegible hwant
    have hneeds : (repairOf db (key, want)).isSome =
        decide ((db.store.get key).map (·.numbered) ≠ want) := by
      rw [Bool.eq_iff_iff, decide_eq_true_iff, ← not_iff_not, Option.not_isSome_iff_eq_none, hnone,
        not_not]
    rw [Option.filter, Option.filter, hneeds]

/-- What is stored afterwards is, with the amount as a number, what is expected. -/
theorem map_numbered_repaired (hdb : db.Keyed) (hlegible : Legible events db) {key : String}
    {want : Option StoredSubscription}
    (hwant : (replayEvents events defaultInterval).1.get key = some want) :
    ((reconcile events db defaultInterval).1.store.get key).map (·.numbered) = want := by
  rw [get_repaired hevents hdb hlegible, hwant, Option.filter]
  by_cases hsame : (db.store.get key).map (·.numbered) = want
  · simp [hsame]
  · rcases want with _ | want
    · simp [hsame]
    · have hnumber := exists_bigint_of_get_replayEvents hevents hwant
      simp [hsame, numbered_eq_self hnumber]

/-- A row that is stored after the repairs has been stored before, or is expected. -/
theorem get_repaired_cases (hdb : db.Keyed) (hlegible : Legible events db) {key : String}
    {r : StoredSubscription}
    (h : (reconcile events db defaultInterval).1.store.get key = some r) :
    db.store.get key = some r ∨
      (replayEvents events defaultInterval).1.get key = some (some r) := by
  rw [get_repaired hevents hdb hlegible] at h
  rcases hwant : (replayEvents events defaultInterval).1.get key with _ | want
  · rw [hwant] at h
    exact .inl h
  · rw [hwant, Option.filter] at h
    split_ifs at h
    · exact .inr (congrArg some h)
    · exact .inl h

variable (defaultInterval) in
theorem keyed_repaired (hdb : db.Keyed) (hlegible : Legible events db) :
    (reconcile events db defaultInterval).1.Keyed where
  own key r h := by
    rcases get_repaired_cases hevents hdb hlegible h with h | h
    · exact hdb.own key r h
    · exact (keyed_replayEvents _ hevents).own key r h
  colonFree key r h := by
    rcases get_repaired_cases hevents hdb hlegible h with h | h
    · exact hdb.colonFree key r h
    · exact colonFree_of_get_replayEvents hevents h

variable (defaultInterval) in
/-- The amounts that are compared can be read afterwards, too. -/
theorem legible_repaired (hdb : db.Keyed) (hlegible : Legible events db) :
    Legible events (reconcile events db defaultInterval).1 := by
  intro s m t r hkey hlive hget htoken
  rcases get_repaired_cases hevents hdb hlegible hget with h | h
  · exact hlegible s m t r hkey hlive h htoken
  · obtain ⟨n, hn⟩ := exists_bigint_of_get_replayEvents hevents h
    exact ⟨n, by rw [hn]; rfl⟩

/-- A row is reported exactly if no event starts or ends its subscription. -/
theorem orphanError_eq (hdb : db.Keyed) {r : StoredSubscription} (hr : r ∈ db.all) :
    orphanError (replayEvents events defaultInterval).1 r =
      if Decided events r.subscriber r.merchant r.token then none else some (orphanText r) := by
  obtain ⟨key, hget⟩ := InsertionMap.mem_values_iff.1 hr
  rw [orphanError_def, StoredSubscription.key,
    get_replayEvents hevents (hdb.colonFree key r hget)]
  by_cases hdecided : Decided events r.subscriber r.merchant r.token <;> simp [hdecided]

theorem filterMap_orphanError (hdb : db.Keyed) :
    db.all.filterMap (orphanError (replayEvents events defaultInterval).1) =
      (db.all.filter fun r => ¬ Decided events r.subscriber r.merchant r.token).map
        orphanText := by
  rw [List.filterMap_congr fun r hr => orphanError_eq hevents hdb hr, ← List.filterMap_eq_map,
    List.filterMap_filter]
  refine List.filterMap_congr fun r _ => ?_
  by_cases h : Decided events r.subscriber r.merchant r.token <;> simp [h]

end Replay

/-- The rows that are reported are found by their keys. -/
theorem filterMap_orphanError_eq (hdb : db.Keyed) (expected : Expected) :
    db.all.filterMap (orphanError expected) =
      (db.store.entries.filter fun entry => (expected.get entry.1).isNone).map
        fun entry => orphanText entry.2 := by
  rw [SubscriptionDB.all, InsertionMap.values, List.filterMap_map, ← List.filterMap_eq_map,
    List.filterMap_filter]
  refine List.filterMap_congr fun entry hentry => ?_
  have hkey := hdb.own entry.1 entry.2 (InsertionMap.mem_entries_iff.1 hentry)
  rw [Function.comp_apply, orphanError_def, hkey]
  rcases hwant : expected.get entry.1 with _ | want <;> simp

/-- **A reconciliation.** Where no text of an event contains a colon, the rows are under their own
keys and the amounts that are compared can be read, the reconciler brings the database to what the
events say and reports what it has no event for, and when it runs again it has nothing to repair. -/
theorem reconciled_reconcile (hevents : ∀ ev ∈ events, ev.ColonFree) (hdb : db.Keyed)
    (hlegible : Legible events db) (defaultInterval : ℕ) :
    ∃ after result again, reconcile events db defaultInterval = (after, .ok result) ∧
      Reconciled events defaultInterval db after result.errors ∧
      reconcile events after defaultInterval = (after, .ok again) ∧ again.repairs = [] := by
  have hafter := keyed_repaired defaultInterval hevents hdb hlegible
  have hlegible' := legible_repaired defaultInterval hevents hdb hlegible
  obtain ⟨result, hresult, -, herrors⟩ := exists_result hevents hlegible defaultInterval
  obtain ⟨again, hagain, hrepairs, -⟩ := exists_result hevents hlegible' defaultInterval
  -- what has been repaired is as expected
  have hnone : ∀ entry ∈ (replayEvents events defaultInterval).1.entries,
      repairOf (reconcile events db defaultInterval).1 entry = none := fun entry hentry =>
    (repairOf_eq_none_iff_get hevents hafter hlegible' (InsertionMap.mem_entries_iff.1 hentry)).2
      (map_numbered_repaired hevents hdb hlegible (InsertionMap.mem_entries_iff.1 hentry))
  have hneeding : needing (reconcile events db defaultInterval).1
      (replayEvents events defaultInterval).1.entries = [] :=
    List.filter_eq_nil_iff.2 fun entry hentry => by simp [hnone entry hentry]
  refine ⟨_, result, again, hresult, ⟨hafter, fun s m t hcolon => ?_, ?_⟩, ?_, ?_⟩
  · rw [SubscriptionDB.get, SubscriptionDB.get, get_repaired hevents hdb hlegible,
      get_replayEvents hevents hcolon]
    by_cases hdecided : Decided events s m t
    · rw [if_pos hdecided, Option.filter]
      simp only [hdecided, true_and, decide_eq_true_eq]
      split_ifs <;> rfl
    · rw [if_neg hdecided, if_neg fun h => hdecided h.1]
      rfl
  · have hrows : (reconcile events db defaultInterval).1.all.filterMap
        (orphanError (replayEvents events defaultInterval).1) =
          db.all.filterMap (orphanError (replayEvents events defaultInterval).1) := by
      rw [filterMap_orphanError_eq hafter, filterMap_orphanError_eq hdb,
        reconcile_eq_of_legible hevents hlegible]
      refine congrArg (List.map _) (InsertionMap.filter_entries_patch (p := fun key =>
        ((replayEvents events defaultInterval).1.get key).isNone) fun entry hentry => ?_)
      have hexpected := InsertionMap.mem_entries_iff.1 (List.mem_of_mem_filter hentry)
      rw [hexpected]
      rfl
    rw [← filterMap_orphanError hevents hdb, ← replayEvents_snd hevents, ← hrows, herrors]
  · have hsame : (reconcile events (reconcile events db defaultInterval).1 defaultInterval).1 =
        (reconcile events db defaultInterval).1 := by
      rw [reconcile_eq_of_legible hevents hlegible']
      simp only [hneeding]
      rfl
    rwa [hsame] at hagain
  · rw [hrepairs]
    exact List.filterMap_eq_nil_iff.2 hnone

/-- A subscription that is paid for, one that is cancelled, and one of which there is a payment
only. -/
def sampleChainEvents : List ChainEvent :=
  [⟨.subscribe, "a", "b", "c", 100, 10⟩, ⟨.executed, "a", "b", "c", 100, 20⟩,
    ⟨.subscribe, "d", "b", "c", 50, 30⟩, ⟨.cancel, "d", "b", "c", 0, 40⟩,
    ⟨.executed, "e", "b", "c", 70, 50⟩]

/-- A stale row with a text, the rows of the other two subscriptions, and one without any event. -/
def sampleStored : SubscriptionDB :=
  (((SubscriptionDB.empty.upsert ⟨"a", "b", "c", .text "90", 7, 17, none⟩).upsert
    ⟨"d", "b", "c", .bigint 50, 7, 37, none⟩).upsert
    ⟨"e", "b", "c", .bigint 70, 7, 57, none⟩).upsert ⟨"f", "b", "c", .bigint 10, 7, 17, none⟩

/-- A row whose amount is no integer. -/
def sampleUnread : SubscriptionDB :=
  SubscriptionDB.empty.upsert ⟨"a", "b", "c", .text "100.0", 7, 27, some 20⟩

/-- Where an amount cannot be read, the row is not brought to what the events say. -/
theorem not_reconciled_unread :
    ¬ ∃ after result again, reconcile sampleChainEvents sampleUnread 7 = (after, .ok result) ∧
      Reconciled sampleChainEvents 7 sampleUnread after result.errors ∧
      reconcile sampleChainEvents after 7 = (after, .ok again) ∧ again.repairs = [] := by
  rintro ⟨after, result, -, hresult, -⟩
  have hok : (reconcile sampleChainEvents sampleUnread 7).2.isOk = true := by
    rw [hresult]
    rfl
  revert hok
  decide +kernel

theorem reconciled_sample_rows :
    ∃ after result again, reconcile sampleChainEvents sampleStored 7 = (after, .ok result) ∧
      Reconciled sampleChainEvents 7 sampleStored after result.errors ∧
      reconcile sampleChainEvents after 7 = (after, .ok again) ∧ again.repairs = [] :=
  reconciled_reconcile (by decide)
    ((((SubscriptionDB.Keyed.empty.upsert (by decide)).upsert (by decide)).upsert
      (by decide)).upsert (by decide)) (legible_of_forall (by decide +kernel)) 7

end SorobanPay
