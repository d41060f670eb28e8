import Mathlib.Data.List.Sort
import Mathlib.Data.List.Nodup

/-!
# Pages of rows in an order

A database is asked for rows in the order of a key, some of them skipped and no more than so many
taken. It may put rows with the same key in any order, and in another one the next time it is asked.
So pages that are put together have the right keys. They have the right rows if the keys of the rows
differ.

## Main definitions

* `IsOrdering`: an answer of the database before rows are skipped and taken.
* `Windowed`: rows each of which is the row of an answer at its place.

## Main results

* `IsOrdering.map_eq`, `IsOrdering.unique`: what answers have in common.
* `Windowed.flatMap_pages`: pages that are put together.
* `Windowed.map_eq`, `Windowed.eq_take`: their keys, and their rows.
-/

set_option autoImplicit false

namespace Foundation

variable {α κ : Type} {le : κ → κ → Prop} {key : α → κ} {l ordered ordered' : List α}

/-- The rows, in the order of their keys. -/
structure IsOrdering (le : κ → κ → Prop) (key : α → κ) (l ordered : List α) : Prop where
  perm : ordered.Perm l
  sorted : ordered.Pairwise fun a b => le (key a) (key b)

namespace IsOrdering

theorem length_eq (h : IsOrdering le key l ordered) : ordered.length = l.length :=
  h.perm.length_eq

theorem mem_iff (h : IsOrdering le key l ordered) {a : α} : a ∈ ordered ↔ a ∈ l := h.perm.mem_iff

variable (hanti : ∀ a b, le a b → le b a → a = b)

include hanti

/-- The keys of all answers are the same. -/
theorem map_eq (h : IsOrdering le key l ordered) (h' : IsOrdering le key l ordered') :
    ordered.map key = ordered'.map key :=
  List.Perm.eq_of_pairwise (fun _ _ _ _ => hanti _ _) (List.pairwise_map.2 h.sorted)
    (List.pairwise_map.2 h'.sorted) ((h.perm.trans h'.perm.symm).map key)

/-- If the keys differ, then there is one answer. -/
theorem unique (hkeys : (l.map key).Nodup) (h : IsOrdering le key l ordered)
    (h' : IsOrdering le key l ordered') : ordered = ordered' :=
  List.Perm.eq_of_pairwise (fun a b ha hb hab hba =>
    List.inj_on_of_nodup_map hkeys (h.mem_iff.1 ha) (h'.mem_iff.1 hb) (hanti _ _ hab hba))
    h.sorted h'.sorted (h.perm.trans h'.perm.symm)

end IsOrdering

/-- Each of the rows is the row of an answer at its place. -/
def Windowed (Answer : List α → Prop) (rows : List α) : Prop :=
  ∀ (k : ℕ) (row : α), rows[k]? = some row → ∃ found, Answer found ∧ found[k]? = some row

namespace Windowed

variable {rows : List α}

/-- There are no more rows than in an answer. -/
theorem length_le (h : Windowed (IsOrdering le key l) rows) : rows.length ≤ l.length := by
  by_contra! hlt
  obtain ⟨found, hfound, hrow⟩ := h l.length _ (List.getElem?_eq_getElem hlt)
  rw [List.getElem?_eq_none hfound.length_eq.le] at hrow
  cases hrow

/-- **Pages** of one size, each from an answer of its own. -/
theorem flatMap_pages {Answer : List α → Prop} {found : ℕ → List α} {total : ℕ}
    (hfound : ∀ j, Answer (found j)) (hlength : ∀ j, (found j).length = total) (n m : ℕ) :
    Windowed Answer ((List.range m).flatMap fun j => ((found j).drop (j * n)).take n) ∧
      ((List.range m).flatMap fun j => ((found j).drop (j * n)).take n).length =
        min (m * n) total := by
  induction m with
  | zero => exact ⟨fun k row hrow => by simp at hrow, by simp⟩
  | succ m ih =>
    obtain ⟨hwindowed, hlen⟩ := ih
    rw [List.range_succ, List.flatMap_append, List.flatMap_singleton]
    refine ⟨fun k row hrow => ?_, ?_⟩
    · rw [List.getElem?_append, hlen] at hrow
      split_ifs at hrow with hk
      · exact hwindowed k row hrow
      · -- a page that is not empty begins where the full pages before it end
        rw [List.getElem?_take] at hrow
        split_ifs at hrow with hkn
        rw [List.getElem?_drop] at hrow
        have hlt := (List.getElem?_eq_some_iff.1 hrow).1
        rw [hlength] at hlt
        have hmin : min (m * n) total = m * n := min_eq_left (by omega)
        rw [hmin] at hrow hk
        rw [Nat.add_sub_cancel' (not_lt.1 hk)] at hrow
        exact ⟨found m, hfound m, hrow⟩
    · rw [List.length_append, hlen, List.length_take, List.length_drop, hlength, Nat.succ_mul]
      omega

variable (hanti : ∀ a b, le a b → le b a → a = b)

include hanti

/-- **The keys** of pages that are put together are the first keys of an answer. -/
theorem map_eq (h : Windowed (IsOrdering le key l) rows) (hordered : IsOrdering le key l ordered) :
    rows.map key = (ordered.map key).take rows.length := by
  refine List.ext_getElem? fun k => ?_
  rcases lt_or_ge k rows.length with hk | hk
  · obtain ⟨found, hfound, hrow⟩ := h k _ (List.getElem?_eq_getElem hk)
    rw [List.getElem?_take_of_lt hk, ← hfound.map_eq hanti hordered, List.getElem?_map,
      List.getElem?_map, hrow, List.getElem?_eq_getElem hk]
  · rw [List.getElem?_eq_none (by simpa using hk),
      List.getElem?_eq_none ((List.length_take_le _ _).trans hk)]

/-- **The rows** are the first of the answer, if there is one answer. -/
theorem eq_take (hkeys : (l.map key).Nodup) (h : Windowed (IsOrdering le key l) rows)
    (hordered : IsOrdering le key l ordered) : rows = ordered.take rows.length := by
  refine List.ext_getElem? fun k => ?_
  rcases lt_or_ge k rows.length with hk | hk
  · obtain ⟨found, hfound, hrow⟩ := h k _ (List.getElem?_eq_getElem hk)
    rw [List.getElem?_take_of_lt hk, ← hfound.unique hanti hkeys hordered, hrow,
      List.getElem?_eq_getElem hk]
  · rw [List.getElem?_eq_none hk, List.getElem?_eq_none ((List.length_take_le _ _).trans hk)]

end Windowed

end Foundation
