import Mathlib.Data.List.Induction
import SorobanPay.Foundation.Encoding
import SorobanPay.Foundation.Largest

/-!
# Checkpoints of the indexer

`indexerStateService.ts` stores checkpoints by their sequence numbers. `saveCheckpoint` writes the
checkpoint of a sequence number, and if there are more than `maxCheckpoints` then, it reads the
oldest ones and deletes all up to the last of these. `recoverFromCheckpoint` reads a checkpoint, the
given one or the latest one, and returns it if its checksum is that of its cursor and ledger.

What is to be stored is said by a reference that keeps the checkpoints with the largest sequence
numbers, with no regard to how they are found.

## Main definitions

* `CheckpointTable`: the table, with one row for each sequence number.
* `saveCheckpoint`, `recoverFromCheckpoint`: the operations.
* `referenceStep`: what is to be stored.

## Main results

* `CheckpointTable.get_prune`: pruning keeps the rows with the largest sequence numbers.
* `defaultChecksumFn_injective`: the default checksum tells cursors and ledgers apart.
* `checkpoint_store`: what is stored and recovered after any saves.
-/

set_option autoImplicit false

namespace SorobanPay.IndexerState

open Foundation

/-! ### The table -/

structure CheckpointEntry where
  sequence : ℤ
  cursor : String
  ledger : ℤ
  eventCount : ℤ
  checksum : String
  deriving DecidableEq, Repr

/-- The rows, by their sequence numbers. -/
structure CheckpointTable where
  rows : InsertionMap ℤ CheckpointEntry
  keyed : ∀ sequence row, rows.get sequence = some row → row.sequence = sequence

namespace CheckpointTable

def empty : CheckpointTable := ⟨.empty, fun _ _ h => by simp at h⟩

/-- `upsert` by the sequence number. -/
def upsert (t : CheckpointTable) (row : CheckpointEntry) : CheckpointTable where
  rows := t.rows.set row.sequence row
  keyed sequence row' h := by
    rw [InsertionMap.get_set] at h
    split_ifs at h with heq
    · rw [← Option.some.inj h, heq]
    · exact t.keyed sequence row' h

/-- `deleteMany` of the rows with smaller sequence numbers. -/
def deleteBelow (t : CheckpointTable) (minSequence : ℤ) : CheckpointTable where
  rows := t.rows.filter fun _ row => !decide (row.sequence < minSequence)
  keyed sequence row h := by
    rw [InsertionMap.get_filter] at h
    exact t.keyed sequence row (Option.filter_eq_some_iff.1 h).1

def count (t : CheckpointTable) : ℕ := t.rows.values.length

/-- `findMany` in ascending order of the sequence numbers. -/
def oldest (t : CheckpointTable) (take : ℕ) : List CheckpointEntry :=
  (ascending CheckpointEntry.sequence t.rows.values).take take

end CheckpointTable

/-! ### The operations -/

/-- `createHash('sha256').update(..).digest('hex')` of the cursor and the ledger. -/
def defaultChecksumFn (sha256Hex : String → String) (cursor : String) (ledger : ℤ) : String :=
  sha256Hex (cursor ++ ":" ++ toString ledger)

/-- What is passed to `saveCheckpoint`. -/
structure Checkpoint where
  sequence : ℤ
  cursor : String
  ledger : ℤ
  eventCount : ℤ
  deriving DecidableEq, Repr

structure Recovered where
  cursor : String
  ledger : ℤ
  eventCount : ℤ
  deriving DecidableEq, Repr

section Service

variable (maxCheckpoints : ℕ) (checksumFn : String → ℤ → String)

/-- The row of a checkpoint. -/
def Checkpoint.entry (c : Checkpoint) : CheckpointEntry where
  sequence := c.sequence
  cursor := c.cursor
  ledger := c.ledger
  eventCount := c.eventCount
  checksum := checksumFn c.cursor c.ledger

/-- The end of `saveCheckpoint`: the oldest rows over the limit are pruned. -/
def CheckpointTable.prune (t : CheckpointTable) : CheckpointTable :=
  if maxCheckpoints < t.count then
    match (t.oldest (t.count - maxCheckpoints)).getLast? with
    | none => t
    | some last => t.deleteBelow (last.sequence + 1)
  else t

def saveCheckpoint (t : CheckpointTable) (c : Checkpoint) : CheckpointTable × CheckpointEntry :=
  ((t.upsert (c.entry checksumFn)).prune maxCheckpoints, c.entry checksumFn)

/-- The table after some saves. -/
def afterSaves (saves : List Checkpoint) : CheckpointTable :=
  saves.foldl (fun t c => (saveCheckpoint maxCheckpoints checksumFn t c).1) .empty

def getCheckpoint (t : CheckpointTable) (sequence : ℤ) : Option CheckpointEntry :=
  t.rows.get sequence

def getLatestCheckpoint (t : CheckpointTable) : Option CheckpointEntry :=
  greatest? CheckpointEntry.sequence t.rows.values

def recoverFromCheckpoint (t : CheckpointTable) (sequence : Option ℤ) : Option Recovered :=
  match sequence.elim (getLatestCheckpoint t) (getCheckpoint t) with
  | none => none
  | some row =>
    if row.checksum ≠ checksumFn row.cursor row.ledger then none
    else some ⟨row.cursor, row.ledger, row.eventCount⟩

/-! ### The reference -/

/-- A checkpoint is stored under its sequence number, and those with the largest sequence numbers
are kept. -/
def referenceStep (m : InsertionMap ℤ Checkpoint) (c : Checkpoint) : InsertionMap ℤ Checkpoint :=
  (m.set c.sequence c).largest maxCheckpoints

def reference (saves : List Checkpoint) : InsertionMap ℤ Checkpoint :=
  saves.foldl (referenceStep maxCheckpoints) .empty

end Service

def Checkpoint.recovered (c : Checkpoint) : Recovered := ⟨c.cursor, c.ledger, c.eventCount⟩

/-- The stored cursor and ledger of a row are changed. -/
def CheckpointTable.tamper (t : CheckpointTable) (sequence : ℤ) (cursor : String) (ledger : ℤ) :
    CheckpointTable where
  rows := t.rows.modify sequence fun row => { row with cursor := cursor, ledger := ledger }
  keyed sequence' row h := by
    rw [InsertionMap.get_modify] at h
    split_ifs at h with heq
    · obtain ⟨row', hrow', rfl⟩ := Option.map_eq_some_iff.1 h
      exact t.keyed sequence' row' (heq ▸ hrow')
    · exact t.keyed sequence' row h

/-! ### Pruning -/

variable {maxCheckpoints : ℕ} {checksumFn : String → ℤ → String} {t : CheckpointTable}
  {m : InsertionMap ℤ Checkpoint} {c : Checkpoint} {row : CheckpointEntry} {sequence : ℤ}
  {saves : List Checkpoint}

namespace CheckpointTable

theorem map_sequence_values (t : CheckpointTable) :
    t.rows.values.map CheckpointEntry.sequence = t.rows.entries.map Prod.fst := by
  rw [InsertionMap.values, List.map_map]
  exact List.map_congr_left fun e he => t.keyed e.1 e.2 (InsertionMap.mem_entries_iff.1 he)

theorem nodup_sequences (t : CheckpointTable) :
    (t.rows.values.map CheckpointEntry.sequence).Nodup :=
  t.map_sequence_values ▸ t.rows.nodup

theorem above_sequence_values (t : CheckpointTable) (sequence : ℤ) :
    above CheckpointEntry.sequence t.rows.values sequence =
      above Prod.fst t.rows.entries sequence := by
  rw [above_eq_countP, above_eq_countP, map_sequence_values]

/-- **Pruning** keeps the rows with the largest sequence numbers. -/
theorem get_prune (t : CheckpointTable) (sequence : ℤ) :
    (t.prune maxCheckpoints).rows.get sequence = (t.rows.largest maxCheckpoints).get sequence := by
  rw [InsertionMap.largest, InsertionMap.get_filter]
  cases hrow : t.rows.get sequence with
  | none =>
    have hnone : ∀ minSequence, (t.deleteBelow minSequence).rows.get sequence = none := by
      intro minSequence
      rw [deleteBelow, InsertionMap.get_filter, hrow, Option.filter_none]
    rw [Option.filter_none, prune]
    split_ifs
    · split
      · exact hrow
      · exact hnone _
    · exact hrow
  | some row =>
    have hkey := t.keyed sequence row hrow
    have hmem : row ∈ t.rows.values := InsertionMap.mem_values_iff.2 ⟨sequence, hrow⟩
    rw [← above_sequence_values, ← hkey, prune]
    split_ifs with hover
    · obtain ⟨last, hlast, hleft⟩ := exists_getLast?_take_ascending t.nodup_sequences hover
      have hdelete : decide (row.sequence < last.sequence + 1) =
          !decide (above CheckpointEntry.sequence t.rows.values row.sequence < maxCheckpoints) := by
        rw [← decide_not, decide_eq_decide, ← hleft row hmem]
        omega
      simp only [oldest, count, hlast]
      rw [deleteBelow, InsertionMap.get_filter, hkey, hrow, ← hkey]
      simp only [Option.filter_some, hdelete, Bool.not_not]
    · have hkept : above CheckpointEntry.sequence t.rows.values row.sequence < maxCheckpoints :=
        above_lt_of_length_le (not_lt.1 hover) hmem
      rw [hkey, hrow, Option.filter_some, if_pos (by simpa [hkey] using hkept)]

end CheckpointTable

/-! ### What is stored -/

variable (checksumFn) in
/-- The table holds the rows of the checkpoints of the reference. -/
def Stores (t : CheckpointTable) (m : InsertionMap ℤ Checkpoint) : Prop :=
  ∀ sequence, t.rows.get sequence = (m.get sequence).map (Checkpoint.entry checksumFn)

namespace Stores

theorem upsert (h : Stores checksumFn t m) (c : Checkpoint) :
    Stores checksumFn (t.upsert (c.entry checksumFn)) (m.set c.sequence c) := by
  intro sequence
  rw [CheckpointTable.upsert, InsertionMap.get_set, InsertionMap.get_set, h sequence]
  split_ifs with heq hne hne
  · rfl
  · exact absurd heq hne
  · exact absurd hne heq
  · rfl

theorem prune (h : Stores checksumFn t m) :
    Stores checksumFn (t.prune maxCheckpoints) (m.largest maxCheckpoints) := by
  intro sequence
  have habove : above Prod.fst t.rows.entries sequence = above Prod.fst m.entries sequence :=
    InsertionMap.above_entries_congr (fun k => by rw [h k, Option.isSome_map]) sequence
  rw [CheckpointTable.get_prune, InsertionMap.largest, InsertionMap.largest,
    InsertionMap.get_filter, InsertionMap.get_filter, h sequence, habove]
  cases m.get sequence with
  | none => rfl
  | some c =>
    simp only [Option.map_some, Option.filter_some]
    split_ifs <;> rfl

theorem afterSaves (saves : List Checkpoint) :
    Stores checksumFn (afterSaves maxCheckpoints checksumFn saves)
      (reference maxCheckpoints saves) := by
  induction saves using List.reverseRecOn with
  | nil => exact fun _ => rfl
  | append_singleton saves c ih =>
    rw [IndexerState.afterSaves, reference, List.foldl_append, List.foldl_append]
    exact (ih.upsert c).prune

end Stores

/-! ### Recovery -/

/-- The latest row has the largest sequence number. -/
theorem getLatestCheckpoint_eq_some_iff : getLatestCheckpoint t = some row ↔
    t.rows.get row.sequence = some row ∧
      ∀ sequence, t.rows.get sequence ≠ none → sequence ≤ row.sequence := by
  have hfound : ∀ row', getLatestCheckpoint t = some row' →
      t.rows.get row'.sequence = some row' ∧
        ∀ sequence, t.rows.get sequence ≠ none → sequence ≤ row'.sequence := by
    intro row' hrow'
    obtain ⟨hmem, hmax⟩ := greatest?_eq_some hrow'
    obtain ⟨sequence, hget⟩ := InsertionMap.mem_values_iff.1 hmem
    refine ⟨(t.keyed sequence row' hget).symm ▸ hget, fun sequence' hne => ?_⟩
    obtain ⟨row'', hrow''⟩ := Option.ne_none_iff_exists'.1 hne
    rw [← t.keyed sequence' row'' hrow'']
    exact hmax row'' (InsertionMap.mem_values_iff.2 ⟨sequence', hrow''⟩)
  refine ⟨hfound row, fun ⟨hget, hmax⟩ => ?_⟩
  cases hlatest : getLatestCheckpoint t with
  | none =>
    have hnil := greatest?_eq_none_iff.1 hlatest
    have hmem : row ∈ t.rows.values := InsertionMap.mem_values_iff.2 ⟨_, hget⟩
    simp [hnil] at hmem
  | some row' =>
    obtain ⟨hget', hmax'⟩ := hfound row' hlatest
    have heq : row'.sequence = row.sequence :=
      le_antisymm (hmax _ (hget' ▸ Option.some_ne_none _)) (hmax' _ (hget ▸ Option.some_ne_none _))
    rw [heq, hget] at hget'
    exact hget'.symm

/-- A row with the largest sequence number is the latest one. -/
theorem getLatestCheckpoint_of_get {sequence : ℤ} (hget : t.rows.get sequence = some row)
    (hmax : ∀ s, t.rows.get s ≠ none → s ≤ sequence) : getLatestCheckpoint t = some row := by
  obtain rfl := t.keyed sequence row hget
  exact getLatestCheckpoint_eq_some_iff.2 ⟨hget, hmax⟩

theorem getLatestCheckpoint_eq_none (h : ∀ sequence, t.rows.get sequence = none) :
    getLatestCheckpoint t = none := by
  refine greatest?_eq_none_iff.2 (List.eq_nil_iff_forall_not_mem.2 fun row hmem => ?_)
  obtain ⟨sequence, hget⟩ := InsertionMap.mem_values_iff.1 hmem
  exact absurd ((h sequence).symm.trans hget) (by simp)

theorem recoverFromCheckpoint_of_none {sequence : Option ℤ}
    (h : sequence.elim (getLatestCheckpoint t) (getCheckpoint t) = none) :
    recoverFromCheckpoint checksumFn t sequence = none := by
  simp only [recoverFromCheckpoint, h]

/-- A row whose checksum is right is recovered. -/
theorem recoverFromCheckpoint_of_entry {sequence : Option ℤ}
    (h : sequence.elim (getLatestCheckpoint t) (getCheckpoint t) = some (c.entry checksumFn)) :
    recoverFromCheckpoint checksumFn t sequence = some c.recovered := by
  simp only [recoverFromCheckpoint, h, Checkpoint.entry, ne_eq, not_true, if_false]
  rfl

/-- A row whose checksum is wrong is not. -/
theorem recoverFromCheckpoint_of_ne {sequence : Option ℤ}
    (h : sequence.elim (getLatestCheckpoint t) (getCheckpoint t) = some row)
    (hne : row.checksum ≠ checksumFn row.cursor row.ledger) :
    recoverFromCheckpoint checksumFn t sequence = none := by
  simp only [recoverFromCheckpoint, h, if_pos hne]

/-- What a checksum has to tell apart. -/
def ChecksumInjective (checksumFn : String → ℤ → String) : Prop :=
  ∀ cursor cursor' ledger ledger', checksumFn cursor ledger = checksumFn cursor' ledger' →
    cursor = cursor' ∧ ledger = ledger'

/-- The default checksum does so if the hash has no collisions. -/
theorem defaultChecksumFn_injective {sha256Hex : String → String}
    (hsha : Function.Injective sha256Hex) : ChecksumInjective (defaultChecksumFn sha256Hex) :=
  fun _ _ _ _ h => append_colon_toString_inj (hsha h)

/-- The table and what is recovered from it are those of the reference: a given checkpoint, the
latest one, and nothing when the cursor or the ledger of a row has been changed. -/
structure FollowsReference (checksumFn : String → ℤ → String) (t : CheckpointTable)
    (m : InsertionMap ℤ Checkpoint) : Prop where
  stored : Stores checksumFn t m
  given : ∀ sequence, recoverFromCheckpoint checksumFn t (some sequence) =
    (m.get sequence).map Checkpoint.recovered
  latest : ∀ sequence c, m.get sequence = some c → (∀ s, m.get s ≠ none → s ≤ sequence) →
    recoverFromCheckpoint checksumFn t none = some c.recovered
  nothing : (∀ s, m.get s = none) → recoverFromCheckpoint checksumFn t none = none
  tampered : ∀ sequence c cursor ledger, m.get sequence = some c →
    cursor ≠ c.cursor ∨ ledger ≠ c.ledger →
      recoverFromCheckpoint checksumFn (t.tamper sequence cursor ledger) (some sequence) = none ∧
        ((∀ s, m.get s ≠ none → s ≤ sequence) →
          recoverFromCheckpoint checksumFn (t.tamper sequence cursor ledger) none = none)

theorem CheckpointTable.get_tamper (t : CheckpointTable) (sequence sequence' : ℤ) (cursor : String)
    (ledger : ℤ) : (t.tamper sequence cursor ledger).rows.get sequence' =
      if sequence' = sequence then (t.rows.get sequence').map fun row =>
        { row with cursor := cursor, ledger := ledger }
      else t.rows.get sequence' :=
  InsertionMap.get_modify

/-- Every row is of a checkpoint of the reference. -/
theorem Stores.get_ne_none (h : Stores checksumFn t m) {s : ℤ} (hs : t.rows.get s ≠ none) :
    m.get s ≠ none := by
  intro hnone
  rw [h, hnone, Option.map_none] at hs
  exact hs rfl

/-- **Changed rows.** A row with the old checksum and another cursor or ledger is not recovered. -/
theorem Stores.recover_tampered (h : Stores checksumFn t m)
    (hinjective : ChecksumInjective checksumFn) {sequence ledger : ℤ} {cursor : String}
    (hc : m.get sequence = some c) (hne : cursor ≠ c.cursor ∨ ledger ≠ c.ledger) :
    recoverFromCheckpoint checksumFn (t.tamper sequence cursor ledger) (some sequence) = none ∧
      ((∀ s, m.get s ≠ none → s ≤ sequence) →
        recoverFromCheckpoint checksumFn (t.tamper sequence cursor ledger) none = none) := by
  set row : CheckpointEntry := { c.entry checksumFn with cursor := cursor, ledger := ledger }
  have hwrong : row.checksum ≠ checksumFn row.cursor row.ledger := by
    intro heq
    obtain ⟨hcursor, hledger⟩ := hinjective _ _ _ _ heq
    exact hne.elim (fun hne => hne hcursor.symm) fun hne => hne hledger.symm
  have hget : (t.tamper sequence cursor ledger).rows.get sequence = some row := by
    rw [CheckpointTable.get_tamper, if_pos rfl, h, hc]
    rfl
  refine ⟨recoverFromCheckpoint_of_ne hget hwrong, fun hmax => ?_⟩
  refine recoverFromCheckpoint_of_ne (getLatestCheckpoint_of_get hget fun s hs => ?_) hwrong
  by_cases heq : s = sequence
  · exact heq.le
  · rw [CheckpointTable.get_tamper, if_neg heq] at hs
    exact hmax s (h.get_ne_none hs)

theorem Stores.followsReference (h : Stores checksumFn t m)
    (hinjective : ChecksumInjective checksumFn) : FollowsReference checksumFn t m := by
  refine ⟨h, fun sequence => ?_, fun sequence c hc hmax => ?_, fun hnone => ?_,
    fun _ _ _ _ => h.recover_tampered hinjective⟩
  · cases hc : m.get sequence with
    | none =>
      refine recoverFromCheckpoint_of_none ?_
      rw [Option.elim_some, getCheckpoint, h, hc, Option.map_none]
    | some c =>
      refine recoverFromCheckpoint_of_entry ?_
      rw [Option.elim_some, getCheckpoint, h, hc, Option.map_some]
  · have hget : t.rows.get sequence = some (c.entry checksumFn) := by rw [h, hc, Option.map_some]
    refine recoverFromCheckpoint_of_entry (getLatestCheckpoint_of_get hget fun s hs => ?_)
    exact hmax s (h.get_ne_none hs)
  · refine recoverFromCheckpoint_of_none (getLatestCheckpoint_eq_none fun s => ?_)
    rw [h, hnone, Option.map_none]

/-- **Checkpoints.** After any saves, in any order of the sequence numbers, the table and what is
recovered from it are those of the reference, if the checksum tells cursors and ledgers apart. -/
theorem checkpoint_store (hinjective : ChecksumInjective checksumFn) (maxCheckpoints : ℕ)
    (saves : List Checkpoint) :
    FollowsReference checksumFn (afterSaves maxCheckpoints checksumFn saves)
      (reference maxCheckpoints saves) :=
  (Stores.afterSaves saves).followsReference hinjective

/-- Saves out of order, and one that is repeated. -/
def sampleSaves : List Checkpoint :=
  [⟨3, "c3", 300, 3⟩, ⟨1, "c1", 100, 1⟩, ⟨3, "c3'", 301, 4⟩, ⟨2, "c2", 200, 2⟩, ⟨0, "c0", 0, 0⟩]

theorem checkpoint_store_sample :
    (reference 2 sampleSaves).entries.map Prod.fst = [3, 2] ∧
      FollowsReference (defaultChecksumFn id) (afterSaves 2 (defaultChecksumFn id) sampleSaves)
        (reference 2 sampleSaves) :=
  ⟨by decide, checkpoint_store (defaultChecksumFn_injective Function.injective_id) 2 sampleSaves⟩

end SorobanPay.IndexerState
