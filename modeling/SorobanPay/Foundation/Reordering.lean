import Mathlib.Data.List.Perm.Basic
import SorobanPay.Foundation.InsertionMap

/-!
# Rearranging a history

Of a list whose elements have keys, a rearrangement may leave the elements of each key in their
order. What is done for each key on its own then comes out the same: a list that is determined key
by key has the same elements, and so have maps that agree on every key.

## Main definitions

* `KeepsOrder`: a permutation that leaves the elements of each key in their order.

## Main results

* `perm_of_filter_eq`: lists that agree key by key are permutations of each other.
* `InsertionMap.perm_entries`: maps that agree key by key have the same entries.
-/

set_option autoImplicit false

namespace Foundation

variable {α κ ν : Type} [DecidableEq κ]

/-- A permutation that leaves the elements of each key in their order. -/
structure KeepsOrder (key : α → κ) (l l' : List α) : Prop where
  perm : l.Perm l'
  order : ∀ k, l.filter (fun a => key a = k) = l'.filter fun a => key a = k

namespace KeepsOrder

variable {key : α → κ}

/-- Neighbours of different keys may change places. -/
theorem swap (l l' : List α) {a b : α} (hab : key a ≠ key b) :
    KeepsOrder key (l ++ a :: b :: l') (l ++ b :: a :: l') where
  perm := (List.Perm.swap b a l').append_left l
  order k := by
    by_cases ha : key a = k
    · have hb : key b ≠ k := fun hb => hab (ha.trans hb.symm)
      simp [ha, hb]
    · simp [List.filter_cons, ha]

end KeepsOrder

/-- Lists that agree key by key are permutations of each other. -/
theorem perm_of_filter_eq [DecidableEq α] (key : α → κ) {l l' : List α}
    (h : ∀ k, l.filter (fun a => key a = k) = l'.filter fun a => key a = k) : l.Perm l' := by
  have hcount : ∀ (l : List α) a, (l.filter fun b => key b = key a).count a = l.count a :=
    fun l a => List.count_filter (decide_eq_true rfl)
  refine List.perm_iff_count.2 fun a => ?_
  rw [← hcount l, ← hcount l', h]

namespace InsertionMap

/-- Maps that agree key by key have the same entries. -/
theorem perm_entries {m m' : InsertionMap κ ν} (h : ∀ k, m.get k = m'.get k) :
    m.entries.Perm m'.entries := by
  refine (List.perm_ext_iff_of_nodup (.of_map _ m.nodup) (.of_map _ m'.nodup)).2 ?_
  rintro ⟨k, v⟩
  rw [mem_entries_iff, mem_entries_iff, h]

theorem perm_values {m m' : InsertionMap κ ν} (h : ∀ k, m.get k = m'.get k) :
    m.values.Perm m'.values :=
  (perm_entries h).map _

end InsertionMap

end Foundation
