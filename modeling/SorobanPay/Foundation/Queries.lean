import Mathlib.Data.List.Induction
import Mathlib.Data.List.Sort
import SorobanPay.Foundation.InsertionMap

/-!
# Queries in the order of a stamp

Rows that carry a stamp are listed newest first. The first of them that satisfies a condition is one
with the greatest stamp; and if for each key only the first row is kept, it is the newest row of the
key.

## Main definitions

* `newestFirst`, `newest?`: rows in the order of their stamps, and the newest row that satisfies a
  condition.
* `InsertionMap.firstBy`: the first row of each key.

## Main results

* `newest?_eq_some`, `newest?_eq_none_iff`: what the newest row is.
* `InsertionMap.mem_values_firstBy_newestFirst_iff`: the rows that are kept.
* `filter_insertionSort`: conditions on rows in order.
-/

set_option autoImplicit false

namespace Foundation

variable {α κ : Type}

/-! ### The newest row -/

section Newest

variable (stamp : α → ℕ)

/-- The rows in descending order of their stamps. -/
def newestFirst (l : List α) : List α := l.insertionSort fun a b => stamp b ≤ stamp a

/-- The first row in descending order that satisfies a condition. -/
def newest? (p : α → Bool) (l : List α) : Option α := (newestFirst stamp l).find? p

variable {stamp} {p : α → Bool} {l : List α} {a : α}

theorem mem_newestFirst : a ∈ newestFirst stamp l ↔ a ∈ l := List.mem_insertionSort _

/-- What comes first in descending order has the greatest stamp. -/
theorem find?_newestFirst_eq_some (h : (newestFirst stamp l).find? p = some a) :
    a ∈ l ∧ p a = true ∧ ∀ b ∈ l, p b = true → stamp b ≤ stamp a := by
  obtain ⟨hp, pre, post, hsplit, hpre⟩ := List.find?_eq_some_iff_append.1 h
  have hmem : ∀ b, b ∈ l ↔ b ∈ pre ++ a :: post := fun b => by rw [← hsplit, mem_newestFirst]
  refine ⟨(hmem a).2 (by simp), hp, fun b hb hpb => ?_⟩
  have hsorted : (pre ++ a :: post).Pairwise fun a b => stamp b ≤ stamp a := by
    rw [← hsplit]
    have htrans : IsTrans α fun a b => stamp b ≤ stamp a := ⟨fun _ _ _ hab hbc => hbc.trans hab⟩
    have htotal : Std.Total fun a b : α => stamp b ≤ stamp a := ⟨fun _ _ => Nat.le_total _ _⟩
    exact List.pairwise_insertionSort _ _
  rcases List.mem_append.1 ((hmem b).1 hb) with hb | hb
  · have hnot := hpre b hb
    rw [hpb] at hnot
    cases hnot
  · rcases List.mem_cons.1 hb with rfl | hb
    · exact Nat.le_refl _
    · exact (List.pairwise_cons.1 (List.pairwise_append.1 hsorted).2.1).1 b hb

theorem newest?_eq_some (h : newest? stamp p l = some a) :
    a ∈ l ∧ p a = true ∧ ∀ b ∈ l, p b = true → stamp b ≤ stamp a :=
  find?_newestFirst_eq_some h

theorem newest?_eq_none_iff : newest? stamp p l = none ↔ ∀ a ∈ l, p a = false := by
  rw [newest?, List.find?_eq_none]
  simp only [mem_newestFirst, Bool.not_eq_true]

end Newest

/-! ### The first row of each key -/

namespace InsertionMap

variable [DecidableEq κ] (key : α → κ)

/-- The first row of each key. -/
def firstBy (l : List α) : InsertionMap κ α :=
  l.foldl (fun m a => if (m.get (key a)).isSome then m else m.set (key a) a) empty

variable {key} {l : List α} {a : α}

theorem get_firstBy (k : κ) : (firstBy key l).get k = l.find? fun a => key a = k := by
  induction l using List.reverseRecOn with
  | nil => rfl
  | append_singleton l a ih =>
    have hfold : firstBy key (l ++ [a]) = if ((firstBy key l).get (key a)).isSome then firstBy key l
        else (firstBy key l).set (key a) a := by
      rw [firstBy, List.foldl_append]
      rfl
    rw [hfold, List.find?_append, ← ih]
    by_cases hk : key a = k
    · subst hk
      rcases hget : (firstBy key l).get (key a) with _ | b
      · simp [get_set]
      · simp [hget]
    · split_ifs with hold
      · simp [hk]
      · simp [get_set, hk, Ne.symm hk]

/-- A row that is the newest of its key has been kept. -/
theorem mem_values_firstBy_newestFirst_iff {stamp : α → ℕ} :
    a ∈ (firstBy key (newestFirst stamp l)).values ↔
      newest? stamp (fun b => key b = key a) l = some a := by
  rw [mem_values_iff]
  constructor
  · rintro ⟨k, hk⟩
    rw [get_firstBy] at hk
    have hkey : decide (key a = k) = true := (List.find?_eq_some_iff_append.1 hk).1
    obtain rfl := of_decide_eq_true hkey
    exact hk
  · exact fun h => ⟨key a, (get_firstBy _).trans h⟩

end InsertionMap

/-! ### Conditions on rows in order -/

section Stable

variable {le : α → α → Prop} [DecidableRel le] [IsTrans α le]

theorem filter_orderedInsert (p : α → Bool) {a : α} {l : List α} (hl : l.Pairwise le) :
    (l.orderedInsert le a).filter p =
      if p a = true then (l.filter p).orderedInsert le a else l.filter p := by
  induction l with
  | nil =>
    rw [List.orderedInsert_nil, List.filter_cons]
    rfl
  | cons b l ih =>
    obtain ⟨hb, hl⟩ := List.pairwise_cons.1 hl
    rw [List.orderedInsert]
    by_cases hab : le a b
    · -- everything that is kept of the rest comes after `a`
      rw [if_pos hab, List.filter_cons]
      refine if_congr Iff.rfl ?_ rfl
      have hle : ∀ c ∈ (b :: l).filter p, le a c := by
        intro c hc
        rcases List.mem_cons.1 (List.mem_filter.1 hc).1 with rfl | hc
        · exact hab
        · exact IsTrans.trans a b c hab (hb c hc)
      rcases hkept : (b :: l).filter p with _ | ⟨c, rest⟩
      · rfl
      · rw [hkept] at hle
        rw [List.orderedInsert, if_pos (hle c List.mem_cons_self)]
    · rw [if_neg hab, List.filter_cons, ih hl, List.filter_cons]
      split_ifs with hpb hpa
      · rw [List.orderedInsert, if_neg hab]
      all_goals rfl

/-- Rows that satisfy a condition are in the order of all rows. -/
theorem filter_insertionSort [Std.Total le] (p : α → Bool) (l : List α) :
    (l.filter p).insertionSort le = (l.insertionSort le).filter p := by
  induction l with
  | nil => rfl
  | cons a l ih =>
    rw [List.insertionSort_cons, filter_orderedInsert p (List.pairwise_insertionSort le l),
      List.filter_cons]
    split_ifs
    · rw [List.insertionSort_cons, ih]
    · exact ih

end Stable

end Foundation
