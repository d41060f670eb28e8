import SorobanPay.Foundation.InsertionMap

/-!
# Patches of a map

A patch lists what is to be under some keys, where nothing is to be under a key without a value. It
is applied entry by entry.

## Main definitions

* `InsertionMap.put`, `InsertionMap.patch`: one entry of a patch, and a patch.

## Main results

* `InsertionMap.get_patch_entries`: what is under a key after a patch.
* `InsertionMap.filter_entries_patch`: the entries that a patch leaves alone.
-/

set_option autoImplicit false

namespace Foundation

variable {κ ν : Type} [DecidableEq κ]

namespace InsertionMap

variable {m : InsertionMap κ ν} {k k' : κ} {o : Option ν} {l : List (κ × Option ν)}

/-- The map with a value under a key, or with nothing under it. -/
def put (m : InsertionMap κ ν) (k : κ) (o : Option ν) : InsertionMap κ ν :=
  match o with
  | none => m.erase k
  | some v => m.set k v

theorem get_put : (m.put k o).get k' = if k' = k then o else m.get k' := by
  cases o with
  | none => exact get_erase
  | some v => exact get_set

/-- A new value under a key leaves the entries under other keys alone. -/
theorem filter_entries_set {p : κ → Bool} {v : ν} (hk : p k = false) :
    (m.set k v).entries.filter (fun entry => p entry.1) =
      m.entries.filter fun entry => p entry.1 := by
  unfold set
  split_ifs with hmem
  · rw [List.filter_map, ← List.map_id (m.entries.filter fun entry => p entry.1)]
    have hkey : ∀ entry : κ × ν, p (if entry.1 = k then (k, v) else entry).1 = p entry.1 := by
      intro entry
      split_ifs with heq
      · rw [heq]
      · rfl
    simp only [Function.comp_def, hkey]
    refine List.map_congr_left fun entry hentry => if_neg fun heq => ?_
    rw [List.mem_filter, heq, hk] at hentry
    exact Bool.noConfusion hentry.2
  · simp [List.filter_append, hk]

theorem filter_entries_put {p : κ → Bool} (hk : p k = false) :
    (m.put k o).entries.filter (fun entry => p entry.1) =
      m.entries.filter fun entry => p entry.1 := by
  cases o with
  | some v => exact filter_entries_set hk
  | none =>
    rw [put, erase, List.filter_filter]
    refine List.filter_congr fun entry _ => ?_
    by_cases heq : entry.1 = k <;> simp [heq, hk]

/-- The map after a patch. -/
def patch (m : InsertionMap κ ν) (l : List (κ × Option ν)) : InsertionMap κ ν :=
  l.foldl (fun m entry => m.put entry.1 entry.2) m

@[simp] theorem patch_nil : m.patch [] = m := rfl

@[simp] theorem patch_cons {entry : κ × Option ν} :
    m.patch (entry :: l) = (m.put entry.1 entry.2).patch l := rfl

/-- **What a patch puts under a key**, if it names no key twice. -/
theorem get_patch (hl : (l.map Prod.fst).Nodup) :
    (m.patch l).get k =
      ((l.find? fun entry => entry.1 = k).map Prod.snd).getD (m.get k) := by
  induction l generalizing m with
  | nil => rfl
  | cons entry l ih =>
    obtain ⟨hnew, hl⟩ := List.nodup_cons.1 hl
    rw [patch_cons, ih hl, get_put]
    by_cases hk : k = entry.1
    · have hnone : l.find? (fun entry' => entry'.1 = k) = none :=
        List.find?_eq_none.2 fun entry' h heq =>
          hnew (List.mem_map.2 ⟨entry', h, (of_decide_eq_true heq).trans hk⟩)
      subst hk
      simp [hnone]
    · simp [hk, Ne.symm hk]

/-- What a patch that is given as a map puts under a key. -/
theorem get_patch_entries {p : InsertionMap κ (Option ν)} :
    (m.patch p.entries).get k = (p.get k).getD (m.get k) := get_patch p.nodup

/-- What a patch puts under a key that it names. -/
theorem get_patch_of_mem (hl : (l.map Prod.fst).Nodup) {entry : κ × Option ν} (h : entry ∈ l) :
    (m.patch l).get entry.1 = entry.2 := by
  have hget : (⟨l, hl⟩ : InsertionMap κ (Option ν)).get entry.1 = some entry.2 :=
    mem_entries_iff.1 h
  have hpatch := get_patch_entries (m := m) (k := entry.1) (p := ⟨l, hl⟩)
  rwa [hget, Option.getD_some] at hpatch

/-- A patch leaves the entries alone whose keys it does not name. -/
theorem filter_entries_patch {p : κ → Bool} (hl : ∀ entry ∈ l, p entry.1 = false) :
    (m.patch l).entries.filter (fun entry => p entry.1) =
      m.entries.filter fun entry => p entry.1 := by
  induction l generalizing m with
  | nil => rfl
  | cons entry l ih =>
    rw [patch_cons, ih fun entry' h => hl entry' (List.mem_cons_of_mem _ h),
      filter_entries_put (hl entry List.mem_cons_self)]

end InsertionMap

end Foundation
