import Mathlib.Data.List.Dedup
import Mathlib.Data.List.Induction
import Mathlib.Data.List.Nodup
import Mathlib.Tactic.Common

/-!
# Maps that keep the order of insertion

A finite map as a list of entries, each key once. Setting a key that is there keeps its place, a new
key goes to the end, and the entries are listed in this order.

## Main definitions

* `InsertionMap`: the maps.
* `InsertionMap.get`, `InsertionMap.set`, `InsertionMap.modify`, `InsertionMap.erase`,
  `InsertionMap.filter`: the operations.
* `InsertionMap.keys`: the keys.
* `InsertionMap.mapValues`: the map with every value changed.
* `InsertionMap.ofValues`: the map of a list of values that carry their key.
* `InsertionMap.lasts`: the last value of each key.
* `InsertionMap.Below`: keys that are given in order.

## Main results

* `InsertionMap.mem_entries_iff`: the entries are what `get` finds.
* `InsertionMap.nodup_map_values_iff`: when the values differ in what is seen of them.
* `InsertionMap.get_set`, `InsertionMap.get_modify`, `InsertionMap.get_erase`: what is found after
  an update.
* `InsertionMap.keys_set`, `InsertionMap.keys_erase`: the keys after an update.
* `InsertionMap.map_values_set`, `InsertionMap.values_set_of_none`: the values after an update.
* `InsertionMap.get_mapValues`, `InsertionMap.set_mapValues`: a map with every value changed.
* `InsertionMap.exists_mem_values_ofValues`, `InsertionMap.nodup_map_values_ofValues`: what is kept
  of a list.
* `InsertionMap.perm_values_ofValues`: which values are kept.
* `InsertionMap.Below.set`, `InsertionMap.Below.modify`: keys are not given twice.
-/

set_option autoImplicit false

namespace Foundation

/-- A finite map with its entries in the order of insertion. -/
structure InsertionMap (κ ν : Type) where
  entries : List (κ × ν)
  nodup : (entries.map Prod.fst).Nodup

namespace InsertionMap

variable {κ ν : Type} [DecidableEq κ]

/-- The map without entries. -/
def empty : InsertionMap κ ν := ⟨[], List.nodup_nil⟩

/-- The value of a key. -/
def get (m : InsertionMap κ ν) (k : κ) : Option ν :=
  (m.entries.find? fun entry => entry.1 = k).map Prod.snd

/-- The values in order. -/
def values (m : InsertionMap κ ν) : List ν := m.entries.map Prod.snd

theorem map_fst_replace (l : List (κ × ν)) (k : κ) (v : ν) :
    (l.map fun entry => if entry.1 = k then (k, v) else entry).map Prod.fst = l.map Prod.fst := by
  rw [List.map_map]
  refine List.map_congr_left fun entry _ => ?_
  by_cases hk : entry.1 = k <;> simp [hk]

/-- The map with a new value for a key. -/
def set (m : InsertionMap κ ν) (k : κ) (v : ν) : InsertionMap κ ν :=
  if h : k ∈ m.entries.map Prod.fst then
    ⟨m.entries.map fun entry => if entry.1 = k then (k, v) else entry, by
      rw [map_fst_replace]
      exact m.nodup⟩
  else
    ⟨m.entries ++ [(k, v)], by
      rw [List.map_append]
      exact m.nodup.append (List.nodup_singleton k) (by simpa using h)⟩

/-- The map with the value of a key changed, if it has one. -/
def modify (m : InsertionMap κ ν) (k : κ) (f : ν → ν) : InsertionMap κ ν :=
  match m.get k with
  | none => m
  | some v => m.set k (f v)

/-- The map without a key. -/
def erase (m : InsertionMap κ ν) (k : κ) : InsertionMap κ ν where
  entries := m.entries.filter fun entry => entry.1 ≠ k
  nodup := m.nodup.sublist ((List.filter_sublist).map Prod.fst)

/-- The map with the entries that satisfy a condition. -/
def filter (m : InsertionMap κ ν) (p : κ → ν → Bool) : InsertionMap κ ν where
  entries := m.entries.filter fun entry => p entry.1 entry.2
  nodup := m.nodup.sublist ((List.filter_sublist).map Prod.fst)

variable {m : InsertionMap κ ν} {k k' : κ} {v v' : ν}

@[simp] theorem get_empty (k : κ) : (empty : InsertionMap κ ν).get k = none := rfl

/-- The entries are what `get` finds. -/
theorem mem_entries_iff : (k, v) ∈ m.entries ↔ m.get k = some v := by
  constructor
  · intro h
    have hsome : (m.entries.find? fun entry => entry.1 = k).isSome = true :=
      List.find?_isSome.2 ⟨(k, v), h, by simp⟩
    obtain ⟨⟨k', v'⟩, hfind⟩ := Option.isSome_iff_exists.1 hsome
    have hkey : k' = k := by simpa using List.find?_some hfind
    subst hkey
    rw [get, hfind, Option.map_some]
    exact congrArg some (congrArg Prod.snd
      (List.inj_on_of_nodup_map m.nodup (List.mem_of_find?_eq_some hfind) h rfl))
  · intro h
    obtain ⟨⟨k', v'⟩, hfind, rfl⟩ := Option.map_eq_some_iff.1 h
    have hkey : k' = k := by simpa using List.find?_some hfind
    subst hkey
    exact List.mem_of_find?_eq_some hfind

theorem mem_values_iff : v ∈ m.values ↔ ∃ k, m.get k = some v := by
  simp only [values, List.mem_map, Prod.exists, mem_entries_iff, exists_eq_right]

/-- The values differ in what `f` sees of them exactly if their keys do. -/
theorem nodup_map_values_iff {α : Type} (f : ν → α) :
    (m.values.map f).Nodup ↔
      ∀ k k' v v', m.get k = some v → m.get k' = some v' → f v = f v' → k = k' := by
  have hentries : m.entries.Nodup := List.Nodup.of_map _ m.nodup
  rw [values, List.map_map, List.nodup_map_iff_inj_on hentries]
  constructor
  · intro h k k' v v' hv hv' heq
    exact congrArg Prod.fst (h _ (mem_entries_iff.2 hv) _ (mem_entries_iff.2 hv') heq)
  · rintro h ⟨k, v⟩ hv ⟨k', v'⟩ hv' heq
    rw [mem_entries_iff] at hv hv'
    obtain rfl := h k k' v v' hv hv' heq
    rw [Option.some.inj (hv.symm.trans hv')]

theorem get_set : (m.set k v).get k' = if k' = k then some v else m.get k' := by
  refine Option.ext fun w => ?_
  rw [← mem_entries_iff]
  unfold set
  split_ifs with hmem hkk' hkk'
  · subst hkk'
    obtain ⟨⟨k₀, v₀⟩, hentry, rfl⟩ := List.mem_map.1 hmem
    simp only [List.mem_map]
    constructor
    · rintro ⟨entry, -, heq⟩
      split_ifs at heq with hk
      · rw [← (Prod.mk.inj heq).2]
      · exact (hk (by rw [heq])).elim
    · rintro ⟨⟩
      exact ⟨_, hentry, if_pos rfl⟩
  · rw [← mem_entries_iff, List.mem_map]
    constructor
    · rintro ⟨entry, hentry, heq⟩
      split_ifs at heq with hk
      · exact (hkk' (Prod.mk.inj heq).1.symm).elim
      · exact heq ▸ hentry
    · intro hentry
      exact ⟨_, hentry, if_neg hkk'⟩
  · subst hkk'
    have hnew : ∀ v₀, (k', v₀) ∉ m.entries := fun v₀ hentry =>
      hmem (List.mem_map.2 ⟨_, hentry, rfl⟩)
    simp [hnew, eq_comm]
  · rw [← mem_entries_iff]
    simp [hkk']

theorem get_erase : (m.erase k).get k' = if k' = k then none else m.get k' := by
  refine Option.ext fun v => ?_
  rw [← mem_entries_iff]
  split_ifs with hk
  · simp [erase, hk]
  · simp [erase, hk, mem_entries_iff]

theorem get_filter {p : κ → ν → Bool} : (m.filter p).get k = (m.get k).filter (p k) := by
  refine Option.ext fun v => ?_
  rw [← mem_entries_iff, Option.filter_eq_some_iff, ← mem_entries_iff]
  simp [filter]

theorem get_modify {f : ν → ν} :
    (m.modify k f).get k' = if k' = k then (m.get k').map f else m.get k' := by
  unfold modify
  split_ifs with hk
  · subst hk
    cases hget : m.get k' with
    | none => simpa using hget
    | some v => simp [get_set]
  · cases m.get k with
    | none => rfl
    | some v => simp [get_set, hk]

/-! ### Keys -/

/-- The keys in order. -/
def keys (m : InsertionMap κ ν) : List κ := m.entries.map Prod.fst

omit [DecidableEq κ] in
theorem nodup_keys (m : InsertionMap κ ν) : m.keys.Nodup := m.nodup

omit [DecidableEq κ] in
theorem length_keys (m : InsertionMap κ ν) : m.keys.length = m.entries.length := List.length_map _

omit [DecidableEq κ] in
@[simp] theorem keys_empty : (empty : InsertionMap κ ν).keys = [] := rfl

theorem mem_keys_iff : k ∈ m.keys ↔ ∃ v, m.get k = some v := by
  simp only [keys, List.mem_map, Prod.exists, exists_and_right, exists_eq_right, mem_entries_iff]

/-- The keys after an update: a key that is there stays where it is. -/
theorem keys_set : (m.set k v).keys = if k ∈ m.keys then m.keys else m.keys ++ [k] := by
  unfold set
  split_ifs with hmem hkeys hkeys
  · exact map_fst_replace m.entries k v
  · exact absurd hmem hkeys
  · exact absurd hkeys hmem
  · exact List.map_append

/-- What is seen of the values does not change when a value is replaced by one that looks the same.
-/
theorem map_values_set {α : Type} (f : ν → α) (hget : m.get k = some v') (hf : f v = f v') :
    (m.set k v).values.map f = m.values.map f := by
  have hmem : k ∈ m.entries.map Prod.fst := List.mem_map.2 ⟨_, mem_entries_iff.2 hget, rfl⟩
  rw [set, dif_pos hmem]
  simp only [values, List.map_map]
  refine List.map_congr_left fun entry hentry => ?_
  by_cases hk : entry.1 = k
  · have hvalue : entry.2 = v' :=
      Option.some.inj ((mem_entries_iff.1 (hk ▸ hentry : (k, entry.2) ∈ m.entries)).symm.trans hget)
    simp [hk, hf, hvalue]
  · simp [hk]

/-- The value of a new key is the last one. -/
theorem values_set_of_none (hget : m.get k = none) : (m.set k v).values = m.values ++ [v] := by
  have hnew : k ∉ m.entries.map Prod.fst := by
    intro hmem
    obtain ⟨w, hw⟩ := mem_keys_iff.1 (show k ∈ m.keys from hmem)
    rw [hget] at hw
    cases hw
  rw [set, dif_neg hnew, values, List.map_append]
  rfl

theorem length_set_le (m : InsertionMap κ ν) (k : κ) (v : ν) :
    (m.set k v).entries.length ≤ m.entries.length + 1 := by
  rw [← length_keys, ← length_keys, keys_set]
  split_ifs
  · exact Nat.le_succ _
  · rw [List.length_append]
    exact Nat.le_refl _

theorem keys_erase : (m.erase k).keys = m.keys.filter fun k' => k' ≠ k := by
  rw [keys, keys, erase, List.filter_map]
  rfl

/-! ### Changing every value -/

section MapValues

variable {ν' : Type} {f g : κ → ν → ν'} {w : ν'}

/-- The map with every value changed. -/
def mapValues (f : κ → ν → ν') (m : InsertionMap κ ν) : InsertionMap κ ν' where
  entries := m.entries.map fun entry => (entry.1, f entry.1 entry.2)
  nodup := by
    rw [List.map_map]
    exact m.nodup

theorem get_mapValues : (m.mapValues f).get k = (m.get k).map (f k) := by
  refine Option.ext fun w => ?_
  rw [← mem_entries_iff, Option.map_eq_some_iff, mapValues, List.mem_map]
  constructor
  · rintro ⟨⟨k', v⟩, hentry, heq⟩
    obtain ⟨rfl, rfl⟩ := Prod.mk.inj heq
    exact ⟨v, mem_entries_iff.1 hentry, rfl⟩
  · rintro ⟨v, hget, rfl⟩
    exact ⟨(k, v), mem_entries_iff.2 hget, rfl⟩

theorem mapValues_congr (h : ∀ k v, m.get k = some v → f k v = g k v) :
    m.mapValues f = m.mapValues g := by
  simp only [mapValues, mk.injEq]
  exact List.map_congr_left fun entry hentry => by rw [h _ _ (mem_entries_iff.1 hentry)]

theorem mapValues_eq_self {f : κ → ν → ν} (h : ∀ k v, m.get k = some v → f k v = v) :
    m.mapValues f = m := by
  have hentries : (m.entries.map fun entry => (entry.1, f entry.1 entry.2)) = m.entries.map id :=
    List.map_congr_left fun entry hentry => by rw [h _ _ (mem_entries_iff.1 hentry)]; rfl
  simp only [mapValues, hentries, List.map_id]

/-- Setting a key that is there changes one value more. -/
theorem set_mapValues (h : m.get k = some v) :
    (m.mapValues f).set k w = m.mapValues fun k' v' => if k' = k then w else f k' v' := by
  have hmem : k ∈ (m.mapValues f).entries.map Prod.fst := by
    rw [mapValues, List.map_map]
    exact List.mem_map.2 ⟨_, mem_entries_iff.2 h, rfl⟩
  rw [set, dif_pos hmem]
  simp only [mapValues, List.map_map, mk.injEq]
  refine List.map_congr_left fun entry _ => ?_
  by_cases hk : entry.1 = k <;> simp [hk]

end MapValues

/-! ### Values that carry their key -/

/-- The map of the values of a list under their keys; of two values with one key, the later one is
kept. -/
def ofValues (key : ν → κ) (l : List ν) : InsertionMap κ ν :=
  l.foldl (fun m v => m.set (key v) v) empty

variable {key : ν → κ} {l : List ν}

theorem get_ofValues : (ofValues key l).get k = l.reverse.find? fun v => key v = k := by
  induction l using List.reverseRecOn with
  | nil => rfl
  | append_singleton l v ih =>
    have hset : ofValues key (l ++ [v]) = (ofValues key l).set (key v) v := by
      rw [ofValues, List.foldl_append]
      rfl
    rw [hset, get_set, ih, List.reverse_append, List.reverse_singleton, List.singleton_append,
      List.find?_cons]
    by_cases hk : key v = k
    · simp [hk]
    · simp [hk, Ne.symm hk]

theorem key_of_get_ofValues (h : (ofValues key l).get k = some v) : key v = k ∧ v ∈ l := by
  rw [get_ofValues] at h
  have hkey := (List.find?_eq_some_iff_append.1 h).1
  exact ⟨of_decide_eq_true hkey, List.mem_reverse.1 (List.mem_of_find?_eq_some h)⟩

theorem mem_of_mem_values_ofValues (h : v ∈ (ofValues key l).values) : v ∈ l := by
  obtain ⟨k, hk⟩ := mem_values_iff.1 h
  exact (key_of_get_ofValues hk).2

/-- No value of the list is lost but to one with the same key. -/
theorem exists_mem_values_ofValues (h : v ∈ l) :
    ∃ v' ∈ (ofValues key l).values, key v' = key v := by
  have hsome : (ofValues key l).get (key v) ≠ none := by
    rw [get_ofValues, Ne, List.find?_eq_none]
    exact fun hnone => hnone v (List.mem_reverse.2 h) (decide_eq_true rfl)
  obtain ⟨v', hv'⟩ := Option.ne_none_iff_exists'.1 hsome
  exact ⟨v', mem_values_iff.2 ⟨_, hv'⟩, (key_of_get_ofValues hv').1⟩

/-- No two values have one key. -/
theorem nodup_map_values_ofValues : ((ofValues key l).values.map key).Nodup := by
  have hkeys : (ofValues key l).values.map key = (ofValues key l).entries.map Prod.fst := by
    rw [values, List.map_map]
    refine List.map_congr_left fun entry hentry => ?_
    exact (key_of_get_ofValues (mem_entries_iff.1 hentry)).1
  rw [hkeys]
  exact (ofValues key l).nodup

/-- The last value of each key, in the order of a list. -/
def lasts (key : ν → κ) : List ν → List ν
  | [] => []
  | v :: l => if key v ∈ l.map key then lasts key l else v :: lasts key l

theorem lasts_sublist : (lasts key l).Sublist l := by
  induction l with
  | nil => exact .slnil
  | cons v l ih =>
    rw [lasts]
    split_ifs
    · exact ih.cons v
    · exact ih.cons_cons v

theorem map_lasts : (lasts key l).map key = (l.map key).dedup := by
  induction l with
  | nil => rfl
  | cons v l ih =>
    rw [lasts, List.map_cons]
    split_ifs with hmem
    · rw [List.dedup_cons_of_mem hmem, ih]
    · rw [List.dedup_cons_of_notMem hmem, List.map_cons, ih]

theorem get_ofValues_eq_some_iff :
    (ofValues key l).get k = some v ↔ key v = k ∧ v ∈ lasts key l := by
  rw [get_ofValues]
  induction l with
  | nil => simp [lasts]
  | cons w l ih =>
    rw [List.reverse_cons, List.find?_append, Option.or_eq_some_iff, ih, lasts]
    have hnone : (l.reverse.find? fun v => key v = k) = none ↔ k ∉ l.map key := by
      simp [List.find?_eq_none]
    rw [hnone]
    split_ifs with hmem
    · grind
    · grind

/-- The map has the last value of each key. -/
theorem perm_values_ofValues : (ofValues key l).values.Perm (lasts key l) := by
  have hlasts : ((lasts key l).map key).Nodup := by
    rw [map_lasts]
    exact List.nodup_dedup _
  have hvalues : ((ofValues key l).values.map key).Nodup := nodup_map_values_ofValues
  refine (List.perm_ext_iff_of_nodup hvalues.of_map hlasts.of_map).2 fun v => ?_
  rw [mem_values_iff]
  simp only [get_ofValues_eq_some_iff, exists_eq_left']

/-! ### Keys that are given in order -/

/-- The keys are below the next one. -/
def Below (m : InsertionMap ℕ ν) (n : ℕ) : Prop := ∀ k v, m.get k = some v → k < n

variable {t : InsertionMap ℕ ν} {n : ℕ}

theorem Below.get_eq_none (h : t.Below n) : t.get n = none := by
  by_contra hsome
  obtain ⟨v, hv⟩ := Option.ne_none_iff_exists'.1 hsome
  exact Nat.lt_irrefl _ (h _ v hv)

theorem Below.set (h : t.Below n) (v : ν) : (t.set n v).Below (n + 1) := by
  intro k v' hget
  rw [get_set] at hget
  split_ifs at hget with hk
  · exact hk ▸ Nat.lt_succ_self _
  · exact Nat.lt_succ_of_lt (h k v' hget)

theorem Below.modify (h : t.Below n) (k : ℕ) (f : ν → ν) : (t.modify k f).Below n := by
  intro k' v' hget
  rw [get_modify] at hget
  split_ifs at hget
  · obtain ⟨v, hv, -⟩ := Option.map_eq_some_iff.1 hget
    exact h k' v hv
  · exact h k' v' hget

end InsertionMap

end Foundation
