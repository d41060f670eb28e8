import SorobanPay.Backend.DryRuns
import SorobanPay.Frontend.NativeValues

/-!
# The reconciler with an audit trail

`runReconciledWithAudit` of `services/reconciler.ts` runs the reconciler, makes an entry of the
audit trail for each repair, and then has all entries written at once. The repairs have been made by
then, and they are not taken back if an entry cannot be written. If the reconciler throws at an
amount that is no integer then the repairs before it stay, and no entries are made.

An entry holds the JSON of the records before and after the repair. The entry of a row that is
removed names the pair only, not the token, and nothing of the record that it held.

How the writes end, the identifier that is drawn at random and the clock are inputs. The values of
an entry are those before they are written as JSON.

## Main definitions

* `SerializedRecord`, `ReconciliationAuditEntry`: the entries.
* `runReconciledWithAudit`: a run.
* `FaithfulTrail`: the trail tells what has been done.
* `AllOrNothing`: what a run leaves when it rejects and when it resolves.

## Main results

* `faithfulTrail_iff`: when the trail is faithful.
* `allOrNothing_iff`: when a run is all or nothing.
-/

set_option autoImplicit false

namespace SorobanPay

open Foundation Frontend

/-! ### Entries -/

/-- The object that `serializeRecord` writes as JSON. -/
structure SerializedRecord where
  subscriber : String
  merchant : String
  token : String
  amount : String
  interval : ℕ
  nextPayment : ℕ
  lastPaymentAt : Option ℕ
  deriving DecidableEq, Repr

/-- `String` of an amount. -/
def StoredAmount.toText : StoredAmount → String
  | .bigint value => toString value
  | .text value => value

/-- `serializeRecord`. -/
def serializeRecord (record : StoredSubscription) : SerializedRecord :=
  { subscriber := record.subscriber
    merchant := record.merchant
    token := record.token
    amount := record.amount.toText
    interval := record.interval
    nextPayment := record.nextPayment
    lastPaymentAt := record.lastPaymentAt }

/-- The record that is read back, if the amount is an integer. -/
def SerializedRecord.toStored (value : SerializedRecord) : Option StoredSubscription :=
  (bigIntOfText value.amount).map fun amount =>
    { subscriber := value.subscriber
      merchant := value.merchant
      token := value.token
      amount := .bigint amount
      interval := value.interval
      nextPayment := value.nextPayment
      lastPaymentAt := value.lastPaymentAt }

/-- A record with a number is read back. -/
theorem toStored_serializeRecord {r : StoredSubscription} (h : ∃ n, r.amount = .bigint n) :
    (serializeRecord r).toStored = some r := by
  obtain ⟨n, hn⟩ := h
  obtain ⟨s, m, t, amount, interval, nextPayment, lastPaymentAt⟩ := r
  subst hn
  rw [SerializedRecord.toStored, serializeRecord, StoredAmount.toText]
  simp only [bigIntOfText_toString, Option.map_some]

/-- An event of the chain as an entry lists it. -/
structure SourceEvent where
  type : ChainEventType
  timestamp : ℕ
  deriving DecidableEq, Repr

/-- `ReconciliationAuditEntry`, without the id that the database gives it. -/
structure ReconciliationAuditEntry where
  correlationId : String
  actor : String
  tenantId : String
  repairKind : String
  aggregateId : String
  beforeValue : Option SerializedRecord
  afterValue : Option SerializedRecord
  sourceEvents : List SourceEvent
  decision : String
  timestamp : ℕ
  deriving DecidableEq, Repr

namespace RepairAction

/-- `repairKind`. -/
def repairKind : RepairAction → String
  | .insert _ => "insert"
  | .update .. => "update"
  | .delete .. => "delete"

/-- `aggregateId`. -/
def aggregateId : RepairAction → String
  | .insert record => record.key
  | .update _ next => next.key
  | .delete subscriber merchant => subscriber ++ ":" ++ merchant

/-- `beforeValue`. -/
def beforeValue : RepairAction → Option SerializedRecord
  | .insert _ => none
  | .update previous _ => some (serializeRecord previous)
  | .delete .. => none

/-- `afterValue`. -/
def afterValue : RepairAction → Option SerializedRecord
  | .insert record => some (serializeRecord record)
  | .update _ next => some (serializeRecord next)
  | .delete .. => none

end RepairAction

/-- `buildDecision`. -/
def buildDecision (kind aggregateId : String) : String :=
  if kind = "insert" then "Reconciler inserted missing subscription for " ++ aggregateId
  else if kind = "update" then
    "Reconciler corrected diverged subscription fields for " ++ aggregateId
  else if kind = "delete" then "Reconciler removed cancelled subscription for " ++ aggregateId
  else "Reconciler applied " ++ kind ++ " repair for " ++ aggregateId

/-- `RunReconciledWithAuditOptions`, without the events, the database and the logger. -/
structure AuditOptions where
  actor : String
  tenantId : String
  correlationId : Option String
  dryRun : Bool

/-- The entry for a repair. -/
def auditEntry (events : List ChainEvent) (options : AuditOptions) (uuid : String) (now : ℕ)
    (repair : RepairAction) : ReconciliationAuditEntry :=
  let (subscriber, merchant, _) := splitKey repair.aggregateId
  { correlationId := options.correlationId.getD uuid
    actor := options.actor
    tenantId := options.tenantId
    repairKind := repair.repairKind
    aggregateId := repair.aggregateId
    beforeValue := repair.beforeValue
    afterValue := repair.afterValue
    sourceEvents := (events.filter fun e => e.subscriber = subscriber ∧ e.merchant = merchant).map
      fun e => ⟨e.type, e.timestamp⟩
    decision := buildDecision repair.repairKind repair.aggregateId
    timestamp := now }

/-! ### Runs -/

/-- The entries for what the reconciler has done, which are none if it throws. -/
def auditEntries (events : List ChainEvent) (options : AuditOptions) (uuid : String) (now : ℕ) :
    Except String ReconcileResult → List ReconciliationAuditEntry
  | .ok result => result.repairs.map (auditEntry events options uuid now)
  | .error _ => []

/-- What a run leaves: the database, the rows of the trail, and the result if it resolves. -/
structure AuditedRun (δ : Type) where
  db : δ
  stored : List ReconciliationAuditEntry
  result : Option (ReconcileResult × List ReconciliationAuditEntry)

/-- The entries that are stored when the write of the entry at position `i` ends with `writes i`. -/
def storedEntries (writes : ℕ → Outcome) (entries : List ReconciliationAuditEntry) :
    List ReconciliationAuditEntry :=
  (entries.zipIdx.filter fun entry => writes entry.2 ≠ .failed).map Prod.fst

/-- `runReconciledWithAudit`. All writes are started, and the run rejects if one does not succeed.
-/
def runReconciledWithAudit {δ : Type} [SubscriptionStore δ] (events : List ChainEvent) (db : δ)
    (options : AuditOptions) (uuid : String) (now : ℕ) (writes : ℕ → Outcome)
    (stored : List ReconciliationAuditEntry) : AuditedRun δ :=
  if options.dryRun then
    match reconcileOn events (ReadOnlySubscriptionDB.mk db) 86400 with
    | (readOnlyDb, .error _) => ⟨readOnlyDb.inner, stored, none⟩
    | (readOnlyDb, .ok result) =>
      ⟨readOnlyDb.inner, stored,
        some (result, auditEntries events options uuid now (.ok result))⟩
  else
    match reconcileOn events db 86400 with
    | (db, .error _) => ⟨db, stored, none⟩
    | (db, .ok result) =>
      let auditEntries := auditEntries events options uuid now (.ok result)
      ⟨db, stored ++ storedEntries writes auditEntries,
        if ∀ i < auditEntries.length, writes i = .acknowledged then some (result, auditEntries)
        else none⟩

/-! ### The trail -/

/-- The database after an entry has been applied: the record of its `afterValue` is put there, and
where there is none the record that its `aggregateId` names is removed. -/
def ReconciliationAuditEntry.applyTo (db : SubscriptionDB) (entry : ReconciliationAuditEntry) :
    Option SubscriptionDB :=
  match entry.afterValue with
  | some value => value.toStored.map db.upsert
  | none => some ⟨db.store.erase entry.aggregateId⟩

/-- The entries lead from the database `db` to `after`, and each names one subscription and tells
what was stored for it. -/
structure FaithfulTrail (db after : SubscriptionDB) (entries : List ReconciliationAuditEntry) :
    Prop where
  applied : entries.foldlM ReconciliationAuditEntry.applyTo db = some after
  told : ∀ entry ∈ entries, ∃ s m t, ColonFree s m t ∧ entry.aggregateId = recordKey s m t ∧
    entry.beforeValue = (db.get s m t).map serializeRecord

variable {events : List ChainEvent} {db after : SubscriptionDB} {options : AuditOptions}
  {uuid : String} {now : ℕ} {entries : List (String × Option StoredSubscription)}
  {entry : String × Option StoredSubscription} {repair : RepairAction} {want : StoredSubscription}

/-- A repair that leaves a record is entered with that record and with the one before it. -/
theorem entered_of_repairOf {key : String} (hentry : KeyedEntry (key, some want))
    (h : repairOf db (key, some want) = some repair) :
    repair.aggregateId = key ∧ repair.afterValue = some (serializeRecord want) ∧
      repair.beforeValue = (db.store.get key).map serializeRecord := by
  have hget := hentry.get_split db
  have hkey : want.key = key := hentry.own want rfl
  rcases hstored : db.store.get key with _ | stored
  · simp only [repairOf, compareEntry, hget, hstored] at h
    obtain rfl := Option.some.inj h
    exact ⟨hkey, rfl, rfl⟩
  · rcases hmatch : recordsMatch stored want with error | _ | _
    all_goals simp only [repairOf, compareEntry, hget, hstored, hmatch] at h
    · cases h
    · obtain rfl := Option.some.inj h
      exact ⟨hkey, rfl, rfl⟩
    · cases h

/-- Where no row is removed, applying the entries makes the repairs. -/
theorem foldlM_applyTo (hkeyed : ∀ entry ∈ entries, KeyedEntry entry)
    (hnumber : ∀ entry ∈ entries, ∀ r, entry.2 = some r → ∃ n, r.amount = .bigint n)
    (hkept : ∀ entry ∈ entries, entry.2 = none → repairOf db entry = none)
    (start : SubscriptionDB) :
    ((entries.filterMap (repairOf db)).map (auditEntry events options uuid now)).foldlM
        ReconciliationAuditEntry.applyTo start =
      some ⟨start.store.patch (needing db entries)⟩ := by
  induction entries generalizing start with
  | nil => rfl
  | cons entry entries ih =>
    have ih := ih (fun entry' h => hkeyed entry' (List.mem_cons_of_mem _ h))
      (fun entry' h => hnumber entry' (List.mem_cons_of_mem _ h))
      fun entry' h => hkept entry' (List.mem_cons_of_mem _ h)
    rw [needing_cons]
    rcases hrepair : repairOf db entry with _ | repair
    · rw [List.filterMap_cons_none hrepair]
      exact ih start
    · obtain ⟨key, _ | want⟩ := entry
      · rw [hkept _ List.mem_cons_self rfl] at hrepair
        cases hrepair
      · have hentry := hkeyed _ List.mem_cons_self
        obtain ⟨-, hafter, -⟩ := entered_of_repairOf hentry hrepair
        have happly : (auditEntry events options uuid now repair).applyTo start =
            some ⟨start.store.put key (some want)⟩ := by
          have hafter' : (auditEntry events options uuid now repair).afterValue =
              some (serializeRecord want) := hafter
          rw [ReconciliationAuditEntry.applyTo, hafter']
          simp only [toStored_serializeRecord (hnumber _ List.mem_cons_self want rfl),
            Option.map_some, SubscriptionDB.upsert, InsertionMap.put, hentry.own want rfl]
        rw [List.filterMap_cons_some hrepair, List.map_cons, List.foldlM_cons, happly]
        exact ih _

/-- The name of a pair is not the key of a subscription. -/
theorem pair_ne_recordKey {s m s' m' t' : String} (hs : ':' ∉ s.toList) (hm : ':' ∉ m.toList)
    (h' : ColonFree s' m' t') : s ++ ":" ++ m ≠ recordKey s' m' t' := by
  intro h
  have hcount := congrArg (fun text => text.toList.count ':') h
  simp [recordKey, List.count_eq_zero.2 hs, List.count_eq_zero.2 hm,
    List.count_eq_zero.2 h'.1, List.count_eq_zero.2 h'.2.1, List.count_eq_zero.2 h'.2.2] at hcount

/-- A stored row of a subscription that is to have none is removed. -/
theorem repairOf_cancelled {s m t : String} (hcolon : ColonFree s m t) :
    repairOf db (recordKey s m t, none) = (db.get s m t).map fun _ => .delete s m := by
  simp only [repairOf, compareEntry, hcolon.splitKey]
  rcases db.get s m t with _ | stored <;> rfl

section Replay

variable (hevents : ∀ ev ∈ events, ev.ColonFree)

include hevents

/-- What is to have no row are the subscriptions that have been cancelled. -/
theorem exists_cancelled {key : String}
    (h : (replayEvents events 86400).1.get key = some none) :
    ∃ s m t, ColonFree s m t ∧ Decided events s m t ∧ ¬ Live events s m t ∧
      key = recordKey s m t := by
  obtain ⟨ev, hev, rfl⟩ := exists_key_of_get_replayEvents h
  rw [ChainEvent.key, get_replayEvents hevents (hevents ev hev)] at h
  split_ifs at h with hdecided
  refine ⟨_, _, _, hevents ev hev, hdecided, fun hlive => ?_, rfl⟩
  rw [← isSome_replayed_iff 86400, Option.some.inj h] at hlive
  cases hlive

theorem get_replayEvents_cancelled {s m t : String} (hcolon : ColonFree s m t)
    (hdecided : Decided events s m t) (hlive : ¬ Live events s m t) :
    (replayEvents events 86400).1.get (recordKey s m t) = some none := by
  rw [get_replayEvents hevents hcolon, if_pos hdecided]
  refine congrArg some (Option.not_isSome_iff_eq_none.1 ?_)
  rwa [isSome_replayed_iff]

end Replay

section Runs

variable (writes : ℕ → Outcome) (stored : List ReconciliationAuditEntry)

/-- A run that is not a dry run, if the reconciler returns. -/
theorem runReconciledWithAudit_of_ok (hdry : options.dryRun = false) {result : ReconcileResult}
    (h : reconcile events db 86400 = (after, .ok result)) :
    runReconciledWithAudit events db options uuid now writes stored =
      let auditEntries := result.repairs.map (auditEntry events options uuid now)
      { db := after
        stored := stored ++ storedEntries writes auditEntries
        result := if ∀ i < auditEntries.length, writes i = .acknowledged then
          some (result, auditEntries) else none } := by
  rw [runReconciledWithAudit, if_neg (by simp [hdry]), reconcileOn_eq, h]
  rfl

/-- A run that is not a dry run, if the reconciler throws. -/
theorem runReconciledWithAudit_of_error (hdry : options.dryRun = false) {error : String}
    (h : reconcile events db 86400 = (after, .error error)) :
    runReconciledWithAudit events db options uuid now writes stored = ⟨after, stored, none⟩ := by
  rw [runReconciledWithAudit, if_neg (by simp [hdry]), reconcileOn_eq, h]

end Runs

/-! ### What a run has repaired -/

/-- What the reconciler repairs: the rows before the first amount that cannot be read which are not
as the events say. -/
def repaired (events : List ChainEvent) (db : SubscriptionDB) :
    List (String × Option StoredSubscription) :=
  needing db (reached db (replayEvents events 86400).1.entries)

/-- A repair changes the database. -/
theorem get_ne_of_repairOf (hentry : KeyedEntry entry) (h : (repairOf db entry).isSome = true) :
    db.store.get entry.1 ≠ entry.2 := by
  obtain ⟨key, want⟩ := entry
  have hget := hentry.get_split db
  intro heq
  rcases want with _ | want
  · simp [repairOf, compareEntry, hget, heq] at h
  · rcases hamount : want.amount.toBigInt with error | n
    · simp [repairOf, compareEntry, hget, heq, recordsMatch_of_error rfl hamount] at h
    · simp [repairOf, compareEntry, hget, heq, recordsMatch_of_ok rfl hamount hamount] at h

section Repaired

variable (hevents : ∀ ev ∈ events, ev.ColonFree)

include hevents

theorem reconcile_fst :
    (reconcile events db 86400).1 = ⟨db.store.patch (repaired events db)⟩ := by
  rw [reconcile_eq (keyed_replayEvents 86400 hevents), repaired]

/-- Where the amounts that are compared can be read, every row that is not as the events say is
repaired. -/
theorem repaired_eq (hlegible : Legible events db) :
    repaired events db = needing db (replayEvents events 86400).1.entries := by
  rw [repaired, reached_eq ((thrown_eq_none_iff hevents _ _).2 hlegible)]

/-- Where one of them cannot be read, the reconciler throws. -/
theorem exists_error (hlegible : ¬ Legible events db) :
    ∃ error, reconcile events db 86400 = (⟨db.store.patch (repaired events db)⟩, .error error) := by
  rw [← thrown_eq_none_iff hevents db 86400] at hlegible
  obtain ⟨error, herror⟩ := Option.ne_none_iff_exists'.1 hlegible
  refine ⟨error, ?_⟩
  rw [reconcile_eq (keyed_replayEvents 86400 hevents), repaired]
  simp only [herror]

/-- The database is changed exactly if something is repaired. -/
theorem reconcile_eq_self_iff : (reconcile events db 86400).1 = db ↔ repaired events db = [] := by
  have hexpected := keyed_replayEvents 86400 hevents
  constructor
  · intro h
    rw [List.eq_nil_iff_forall_not_mem]
    intro entry hentry
    obtain ⟨hmem, hneeds⟩ := List.mem_filter.1 hentry
    have hsublist : (repaired events db).Sublist (replayEvents events 86400).1.entries :=
      List.filter_sublist.trans reached_sublist
    have hget := InsertionMap.get_patch_of_mem (m := db.store)
      ((hsublist.map Prod.fst).nodup (replayEvents events 86400).1.nodup) hentry
    rw [reconcile_fst hevents] at h
    have hstore : db.store.patch (repaired events db) = db.store := congrArg SubscriptionDB.store h
    rw [hstore] at hget
    exact get_ne_of_repairOf (hexpected.keyedEntry (reached_sublist.subset hmem)) hneeds hget
  · intro h
    rw [reconcile_fst hevents, h]
    rfl

end Repaired

/-- The trail of a run in which nothing is entered is faithful if the database stays as it is. -/
theorem faithfulTrail_nil_iff : FaithfulTrail db after [] ↔ after = db := by
  constructor
  · intro h
    exact (Option.some.inj h.applied).symm
  · rintro rfl
    exact ⟨rfl, fun _ h => absurd h List.not_mem_nil⟩

/-- **When the trail is faithful.** Where no text of an event contains a colon, the entries lead to
the database that the run leaves, and each names one subscription and tells what was stored for it,
exactly if nothing is repaired, or the amounts that are compared can be read and nothing is stored
for the subscriptions that have been cancelled. -/
theorem faithfulTrail_iff (hevents : ∀ ev ∈ events, ev.ColonFree) (db : SubscriptionDB)
    (options : AuditOptions) (hdry : options.dryRun = false) (uuid : String) (now : ℕ)
    (writes : ℕ → Outcome) (stored : List ReconciliationAuditEntry) :
    FaithfulTrail db (runReconciledWithAudit events db options uuid now writes stored).db
        (auditEntries events options uuid now (reconcile events db 86400).2) ↔
      repaired events db = [] ∨ Legible events db ∧
        ∀ s m t, ColonFree s m t → Decided events s m t → ¬ Live events s m t →
          db.get s m t = none := by
  have hexpected := keyed_replayEvents 86400 hevents
  have hkeyed : ∀ entry ∈ (replayEvents events 86400).1.entries, KeyedEntry entry :=
    fun entry => hexpected.keyedEntry
  by_cases hlegible : Legible events db
  · obtain ⟨result, hresult, hrepairs, -⟩ := exists_result hevents hlegible 86400
    rw [runReconciledWithAudit_of_ok writes stored hdry hresult, hresult, auditEntries, hrepairs,
      reconcile_fst hevents]
    dsimp only
    constructor
    · intro h
      refine .inr ⟨hlegible, fun s m t hcolon hdecided hlive => ?_⟩
      by_contra hstored
      obtain ⟨row, hrow⟩ := Option.ne_none_iff_exists'.1 hstored
      have hrepair : repairOf db (recordKey s m t, none) = some (.delete s m) := by
        rw [repairOf_cancelled hcolon, hrow, Option.map_some]
      have hwant := get_replayEvents_cancelled hevents hcolon hdecided hlive
      have hmem : RepairAction.delete s m ∈
          (replayEvents events 86400).1.entries.filterMap (repairOf db) :=
        List.mem_filterMap.2 ⟨_, InsertionMap.mem_entries_iff.2 hwant, hrepair⟩
      -- the entry of this repair names the pair only
      obtain ⟨s', m', t', hcolon', hname, -⟩ := h.told _ (List.mem_map_of_mem hmem)
      exact pair_ne_recordKey hcolon.1 hcolon.2.1 hcolon' hname
    · intro h
      have hkept : ∀ entry ∈ (replayEvents events 86400).1.entries, entry.2 = none →
          repairOf db entry = none := by
        rintro ⟨key, want⟩ hentry rfl
        rcases h with hnone | ⟨-, hcancelled⟩
        · rw [repaired_eq hevents hlegible, needing, List.filter_eq_nil_iff] at hnone
          simpa using hnone _ hentry
        · obtain ⟨s, m, t, hcolon, hdecided, hlive, rfl⟩ :=
            exists_cancelled hevents (InsertionMap.mem_entries_iff.1 hentry)
          rw [repairOf_cancelled hcolon, hcancelled s m t hcolon hdecided hlive, Option.map_none]
      have hnumber : ∀ entry ∈ (replayEvents events 86400).1.entries, ∀ r, entry.2 = some r →
          ∃ n, r.amount = .bigint n := fun entry hentry r hr =>
        exists_bigint_of_get_replayEvents hevents
          ((InsertionMap.mem_entries_iff.1 hentry).trans (congrArg some hr))
      refine ⟨?_, fun audited haudited => ?_⟩
      · rw [repaired_eq hevents hlegible]
        exact foldlM_applyTo hkeyed hnumber hkept db
      · obtain ⟨repair, hrepair, rfl⟩ := List.mem_map.1 haudited
        obtain ⟨⟨key, want⟩, hentry, hrepairOf⟩ := List.mem_filterMap.1 hrepair
        rcases want with _ | want
        · rw [hkept _ hentry rfl] at hrepairOf
          cases hrepairOf
        · obtain ⟨hname, -, hbefore⟩ := entered_of_repairOf (hkeyed _ hentry) hrepairOf
          have hkey : want.key = key := (hkeyed _ hentry).own want rfl
          refine ⟨want.subscriber, want.merchant, want.token, ?_, hname.trans hkey.symm, ?_⟩
          · exact colonFree_of_get_replayEvents hevents (InsertionMap.mem_entries_iff.1 hentry)
          · rw [SubscriptionDB.get, ← StoredSubscription.key, hkey]
            exact hbefore
  · -- the reconciler throws, and nothing is entered
    obtain ⟨error, herror⟩ := exists_error hevents hlegible
    rw [runReconciledWithAudit_of_error writes stored hdry herror, herror, auditEntries,
      faithfulTrail_nil_iff, ← reconcile_fst hevents, reconcile_eq_self_iff hevents,
      or_iff_left fun h => hlegible h.1]

/-- Options of a run that is not a dry run. -/
def sampleAuditOptions : AuditOptions := ⟨"scheduler", "tenant", none, false⟩

/-- The entry of a row that is removed names no subscription. -/
theorem not_faithfulTrail_cancelled :
    ¬ FaithfulTrail sampleStored
      (runReconciledWithAudit sampleChainEvents sampleStored sampleAuditOptions "run" 60
        (fun _ => .acknowledged) []).db
      (auditEntries sampleChainEvents sampleAuditOptions "run" 60
        (reconcile sampleChainEvents sampleStored 86400).2) := by
  intro h
  obtain ⟨s, m, t, hcolon, hname, -⟩ :=
    h.told (auditEntry sampleChainEvents sampleAuditOptions "run" 60 (.delete "d" "b"))
      (by decide +kernel)
  exact pair_ne_recordKey (by decide) (by decide) hcolon hname

theorem faithfulTrail_sample :
    FaithfulTrail sampleStored
        (runReconciledWithAudit sampleChainEvents sampleStored sampleAuditOptions "run" 60
          (fun _ => .acknowledged) []).db
        (auditEntries sampleChainEvents sampleAuditOptions "run" 60
          (reconcile sampleChainEvents sampleStored 86400).2) ↔
      repaired sampleChainEvents sampleStored = [] ∨ Legible sampleChainEvents sampleStored ∧
        ∀ s m t, ColonFree s m t → Decided sampleChainEvents s m t →
          ¬ Live sampleChainEvents s m t → sampleStored.get s m t = none :=
  faithfulTrail_iff (by decide) sampleStored sampleAuditOptions rfl "run" 60
    (fun _ => .acknowledged) []

/-! ### Failing writes -/

/-- A run that rejects leaves no repair behind, one that resolves has stored one entry for each
repair, and a dry run changes neither the database nor the trail. -/
structure AllOrNothing (events : List ChainEvent) (db : SubscriptionDB) (options : AuditOptions)
    (uuid : String) (now : ℕ) (stored : List ReconciliationAuditEntry)
    (run : AuditedRun SubscriptionDB) : Prop where
  rejected : run.result = none → run.db = db
  resolved : ∀ result entries, run.result = some (result, entries) → options.dryRun = false →
    run.stored = stored ++ result.repairs.map (auditEntry events options uuid now)
  dry : options.dryRun = true → run.db = db ∧ run.stored = stored

/-- If no write fails then all entries are stored. -/
theorem storedEntries_eq {writes : ℕ → Outcome} {l : List ReconciliationAuditEntry}
    (h : ∀ i < l.length, writes i = .acknowledged) : storedEntries writes l = l := by
  have hall : l.zipIdx.filter (fun entry => writes entry.2 ≠ .failed) = l.zipIdx := by
    refine List.filter_eq_self.2 fun entry hentry => ?_
    have hlt := List.snd_lt_add_of_mem_zipIdx hentry
    simp [h entry.2 (by omega)]
  rw [storedEntries, hall, List.zipIdx_map_fst]

/-- The number of repairs is the number of rows that are not as the events say. -/
theorem length_filterMap_repairOf (entries : List (String × Option StoredSubscription)) :
    (entries.filterMap (repairOf db)).length = (needing db entries).length := by
  induction entries with
  | nil => rfl
  | cons entry entries ih =>
    rw [needing_cons]
    rcases hrepair : repairOf db entry with _ | repair <;> simp [hrepair, ih]

/-- **When a run is all or nothing.** Where no text of an event contains a colon, a run is all or
nothing exactly if it is a dry run, nothing is repaired, or the amounts that are compared can be
read and no write of an entry fails: there is one for each row that is repaired. -/
theorem allOrNothing_iff (hevents : ∀ ev ∈ events, ev.ColonFree) (db : SubscriptionDB)
    (options : AuditOptions) (uuid : String) (now : ℕ) (writes : ℕ → Outcome)
    (stored : List ReconciliationAuditEntry) :
    AllOrNothing events db options uuid now stored
        (runReconciledWithAudit events db options uuid now writes stored) ↔
      options.dryRun = true ∨ repaired events db = [] ∨ Legible events db ∧
        ∀ i < (repaired events db).length, writes i = .acknowledged := by
  by_cases hdry : options.dryRun = true
  · refine iff_of_true ?_ (.inl hdry)
    rw [runReconciledWithAudit, if_pos hdry, reconcileOn_readOnly]
    rcases thrown db (replayEvents events 86400).1.entries with _ | error <;>
      exact ⟨fun _ => rfl, fun _ _ _ h => absurd (hdry.symm.trans h) (by decide),
        fun _ => ⟨rfl, rfl⟩⟩
  rw [or_iff_right hdry]
  have hdry' := Bool.not_eq_true _ ▸ hdry
  by_cases hlegible : Legible events db
  · obtain ⟨result, hresult, hrepairs, -⟩ := exists_result hevents hlegible 86400
    have hlength : (result.repairs.map (auditEntry events options uuid now)).length =
        (repaired events db).length := by
      rw [List.length_map, hrepairs, length_filterMap_repairOf, repaired_eq hevents hlegible]
    rw [runReconciledWithAudit_of_ok writes stored hdry' hresult, ← hlength]
    constructor
    · intro h
      by_cases hwrites : ∀ i < (result.repairs.map (auditEntry events options uuid now)).length,
          writes i = .acknowledged
      · exact .inr ⟨hlegible, hwrites⟩
      · exact .inl ((reconcile_eq_self_iff hevents).1 (h.rejected (if_neg hwrites)))
    · intro h
      have hwrites : ∀ i < (result.repairs.map (auditEntry events options uuid now)).length,
          writes i = .acknowledged := by
        rcases h with hnone | ⟨-, hwrites⟩
        · rw [hlength, hnone]
          exact fun i hi => absurd hi (Nat.not_lt_zero i)
        · exact hwrites
      refine ⟨fun h => ?_, fun result' entries h _ => ?_, fun h => (hdry h).elim⟩
      · cases (if_pos hwrites).symm.trans h
      · obtain ⟨rfl, -⟩ := Prod.mk.inj (Option.some.inj ((if_pos hwrites).symm.trans h))
        simp only [storedEntries_eq hwrites]
  · -- the reconciler throws
    obtain ⟨error, herror⟩ := exists_error hevents hlegible
    rw [runReconciledWithAudit_of_error writes stored hdry' herror, ← reconcile_fst hevents,
      or_iff_left fun h => hlegible h.1, ← reconcile_eq_self_iff hevents]
    exact ⟨fun h => h.rejected rfl, fun h =>
      ⟨fun _ => h, fun _ _ h => absurd h (by simp), fun h => (hdry h).elim⟩⟩

/-- The repairs stay where the first entry cannot be written. -/
theorem not_allOrNothing_sample :
    ¬ AllOrNothing sampleChainEvents sampleStored sampleAuditOptions "run" 60 []
      (runReconciledWithAudit sampleChainEvents sampleStored sampleAuditOptions "run" 60
        (fun _ => .failed) []) := by
  intro h
  have hrows := congrArg SubscriptionDB.all (h.rejected (by decide +kernel))
  revert hrows
  decide +kernel

theorem allOrNothing_sample :
    AllOrNothing sampleChainEvents sampleStored sampleAuditOptions "run" 60 []
        (runReconciledWithAudit sampleChainEvents sampleStored sampleAuditOptions "run" 60
          (fun _ => .failed) []) ↔
      sampleAuditOptions.dryRun = true ∨ repaired sampleChainEvents sampleStored = [] ∨
        Legible sampleChainEvents sampleStored ∧
          ∀ i < (repaired sampleChainEvents sampleStored).length,
            Outcome.failed = .acknowledged :=
  allOrNothing_iff (by decide) sampleStored sampleAuditOptions "run" 60 (fun _ => .failed) []

end SorobanPay
