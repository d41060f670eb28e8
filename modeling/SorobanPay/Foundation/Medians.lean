import Mathlib.Algebra.Order.Group.Int
import Mathlib.Data.List.GetD
import Mathlib.Data.List.Sort
import Mathlib.Order.Lattice

/-!
# Medians

The upper median of a list is said by counting: at most half of the entries are smaller, and more
than half are not larger. So it is one of the entries that does not depend on their order, and there
is one only; sorting the list finds it in the middle.

## Main definitions

* `IsUpperMedian`: the upper median.
* `gaps`: the differences of neighbours.

## Main results

* `IsUpperMedian.unique`, `isUpperMedian_iff_of_perm`: there is one, for any order of the entries.
* `isUpperMedian_getD_insertionSort`: how it is found.
-/

set_option autoImplicit false

namespace Foundation

section UpperMedian

variable {α : Type} [LinearOrder α] {l l' : List α} {m m' : α}

/-- At most half of the entries are smaller than `m`, and more than half are not larger. -/
def IsUpperMedian (l : List α) (m : α) : Prop :=
  m ∈ l ∧ l.countP (· < m) ≤ l.length / 2 ∧ l.length / 2 < l.countP (· ≤ m)

theorem IsUpperMedian.le (h : IsUpperMedian l m) (h' : IsUpperMedian l m') : m' ≤ m := by
  by_contra hlt
  rw [not_le] at hlt
  have hmono : l.countP (· ≤ m) ≤ l.countP (· < m') :=
    List.countP_mono_left fun x _ hx => by simpa using lt_of_le_of_lt (by simpa using hx) hlt
  exact absurd (h.2.2.trans_le (hmono.trans h'.2.1)) (lt_irrefl _)

theorem IsUpperMedian.unique (h : IsUpperMedian l m) (h' : IsUpperMedian l m') : m = m' :=
  le_antisymm (h'.le h) (h.le h')

theorem isUpperMedian_iff_of_perm (h : l.Perm l') : IsUpperMedian l m ↔ IsUpperMedian l' m := by
  rw [IsUpperMedian, IsUpperMedian, h.mem_iff, h.countP_eq, h.countP_eq, h.length_eq]

/-- An entry of a sorted list counts the entries before it. -/
theorem countP_of_sorted {front back : List α} (h : (front ++ m :: back).Pairwise (· ≤ ·)) :
    (front ++ m :: back).countP (· < m) ≤ front.length ∧
      front.length < (front ++ m :: back).countP (· ≤ m) := by
  obtain ⟨-, hback, hfront⟩ := List.pairwise_append.1 h
  have hge := (List.pairwise_cons.1 hback).1
  have hle : ∀ x ∈ front, x ≤ m := fun x hx => hfront x hx m List.mem_cons_self
  constructor
  · have hnone : back.countP (· < m) = 0 :=
      List.countP_eq_zero.2 fun x hx => by simpa using hge x hx
    rw [List.countP_append, List.countP_cons_of_neg (by simp), hnone]
    exact List.countP_le_length
  · have hall : front.countP (· ≤ m) = front.length :=
      List.countP_eq_length.2 fun x hx => by simpa using hle x hx
    rw [List.countP_append, List.countP_cons_of_pos (by simp), hall]
    omega

/-- **The upper median is in the middle** of the sorted list. -/
theorem isUpperMedian_getD_insertionSort (hl : l ≠ []) (d : α) :
    IsUpperMedian l ((l.insertionSort (· ≤ ·)).getD (l.length / 2) d) := by
  have hperm := List.perm_insertionSort (· ≤ ·) l
  have hlt : l.length / 2 < (l.insertionSort (· ≤ ·)).length := by
    rw [hperm.length_eq]
    have := List.length_pos_of_ne_nil hl
    omega
  have hsorted := List.pairwise_insertionSort (· ≤ ·) l
  rw [← isUpperMedian_iff_of_perm hperm, List.getD_eq_getElem _ _ hlt]
  have hsplit := (List.take_append_drop (l.length / 2) (l.insertionSort (· ≤ ·))).symm
  rw [List.drop_eq_getElem_cons hlt] at hsplit
  have hlength : ((l.insertionSort (· ≤ ·)).take (l.length / 2)).length = l.length / 2 := by
    rw [List.length_take]
    omega
  have hcount := countP_of_sorted (hsplit ▸ hsorted)
  rw [← hsplit, hlength] at hcount
  rw [IsUpperMedian, hperm.length_eq]
  exact ⟨List.getElem_mem hlt, hcount⟩

end UpperMedian

/-! ### Gaps -/

/-- The differences of neighbours. -/
def gaps (l : List ℤ) : List ℤ := List.zipWith (fun later earlier => later - earlier) l.tail l

theorem gaps_cons_cons (a b : ℤ) (l : List ℤ) : gaps (a :: b :: l) = (b - a) :: gaps (b :: l) := rfl

theorem length_gaps (l : List ℤ) : (gaps l).length = l.length - 1 := by
  rw [gaps, List.length_zipWith, List.length_tail]
  omega

theorem nonneg_of_mem_gaps {l : List ℤ} (h : l.Pairwise (· ≤ ·)) : ∀ gap ∈ gaps l, 0 ≤ gap := by
  induction l with
  | nil => exact List.forall_mem_nil _
  | cons a l ih =>
    rcases l with _ | ⟨b, l⟩
    · exact List.forall_mem_nil _
    · obtain ⟨ha, hl⟩ := List.pairwise_cons.1 h
      rw [gaps_cons_cons, List.forall_mem_cons]
      exact ⟨Int.sub_nonneg.2 (ha b List.mem_cons_self), ih hl⟩

end Foundation
