import Mathlib.Data.List.Sort
import SorobanPay.Foundation.InsertionMap

/-!
# The rows with the largest keys

Rows with keys of a linear order are listed in ascending order. If the first rows are cut off such
that `n` are left, what is left are the `n` rows with the largest keys: those with fewer than `n`
rows above them. The map that keeps them is `InsertionMap.largest`.

## Main definitions

* `ascending`, `greatest?`: rows in the order of their keys, and the last of them.
* `above`: the number of rows above a key.
* `InsertionMap.largest`: the entries with the `n` largest keys.

## Main results

* `exists_getLast?_take_ascending`: what is cut off is below what is left.
* `greatest?_eq_some`: the greatest row.
-/

set_option autoImplicit false

namespace Foundation

variable {α κ : Type} [LinearOrder κ]

section Ascending

variable (key : α → κ)

/-- The rows in ascending order of their keys. -/
def ascending (l : List α) : List α := l.insertionSort fun a b => key a ≤ key b

/-- The first row in descending order of the keys. -/
def greatest? (l : List α) : Option α := (l.insertionSort fun a b => key b ≤ key a).head?

/-- The number of rows with a key above `k`. -/
def above (l : List α) (k : κ) : ℕ := l.countP fun a => k < key a

variable {key} {l : List α} {a b : α} {n : ℕ}

theorem perm_ascending : (ascending key l).Perm l := List.perm_insertionSort _ _

theorem pairwise_ascending (h : (l.map key).Nodup) :
    (ascending key l).Pairwise fun a b => key a < key b := by
  have htrans : IsTrans α fun a b => key a ≤ key b := ⟨fun _ _ _ hab hbc => hab.trans hbc⟩
  have htotal : Std.Total fun a b : α => key a ≤ key b := ⟨fun _ _ => le_total _ _⟩
  have hsorted : (ascending key l).Pairwise fun a b => key a ≤ key b :=
    List.pairwise_insertionSort _ _
  have hnodup : ((ascending key l).map key).Nodup := (perm_ascending.map key).nodup_iff.2 h
  have hne : (ascending key l).Pairwise fun a b => key a ≠ key b := List.pairwise_map.1 hnodup
  exact (hsorted.and hne).imp fun hab => lt_of_le_of_ne hab.1 hab.2

/-- No row is above itself. -/
theorem above_lt_length (ha : a ∈ l) : above key l (key a) < l.length := by
  refine lt_of_le_of_ne List.countP_le_length fun heq => ?_
  simpa using List.countP_eq_length.1 heq a ha

section Split

variable {pre post : List α} (hsplit : ascending key l = pre ++ post) (h : (l.map key).Nodup)
include hsplit

theorem above_eq_add (k : κ) : above key l k = above key pre k + above key post k := by
  have hcount : above key l k = (pre ++ post).countP fun b => k < key b := by
    rw [← hsplit]
    exact (perm_ascending.countP_eq _).symm
  rw [hcount, List.countP_append]
  rfl

include h

/-- The rows that come later are above a row. -/
theorem length_le_above (ha : a ∈ pre) : post.length ≤ above key l (key a) := by
  have hpairs := pairwise_ascending h
  rw [hsplit] at hpairs
  have hall : above key post (key a) = post.length := List.countP_eq_length.2 fun b hb => by
    simpa using (List.pairwise_append.1 hpairs).2.2 a ha b hb
  have hadd := above_eq_add hsplit (key a)
  omega

/-- The rows that come earlier are not above a row, nor is the row itself. -/
theorem above_lt_length_of_mem (ha : a ∈ post) : above key l (key a) < post.length := by
  have hpairs := pairwise_ascending h
  rw [hsplit] at hpairs
  have hnone : above key pre (key a) = 0 := List.countP_eq_zero.2 fun b hb => by
    simpa using ((List.pairwise_append.1 hpairs).2.2 b hb a ha).le
  have hadd := above_eq_add hsplit (key a)
  have hlt : above key post (key a) < post.length := above_lt_length ha
  omega

end Split

/-- **Cutting off.** Let the rows be listed in ascending order, and cut off all but `n`. The rows
that are left are above the last one that is cut off, and they are the rows with fewer than `n` rows
above them. -/
theorem exists_getLast?_take_ascending (h : (l.map key).Nodup) (hn : n < l.length) :
    ∃ last, ((ascending key l).take (l.length - n)).getLast? = some last ∧
      ∀ a ∈ l, key last < key a ↔ above key l (key a) < n := by
  have hlength : (ascending key l).length = l.length := perm_ascending.length_eq
  have hne : (ascending key l).take (l.length - n) ≠ [] := by
    intro hnil
    have hzero := congrArg List.length hnil
    rw [List.length_take, hlength, List.length_nil] at hzero
    omega
  obtain ⟨pre, last, htake⟩ : ∃ pre last,
      (ascending key l).take (l.length - n) = pre ++ [last] :=
    ⟨_, _, (List.dropLast_append_getLast hne).symm⟩
  set post := (ascending key l).drop (l.length - n) with hpost
  have hleft : post.length = n := by
    rw [hpost, List.length_drop, hlength]
    omega
  have hsplit : ascending key l = (pre ++ [last]) ++ post := by
    rw [← htake, List.take_append_drop]
  have hpairs := pairwise_ascending h
  rw [hsplit] at hpairs
  obtain ⟨hcut, -, hacross⟩ := List.pairwise_append.1 hpairs
  refine ⟨last, by rw [htake, List.getLast?_concat], fun a ha => ?_⟩
  have hmem : a ∈ (pre ++ [last]) ++ post := hsplit ▸ perm_ascending.mem_iff.2 ha
  rcases List.mem_append.1 hmem with hmem | hmem
  · have hle : key a ≤ key last := by
      rcases List.mem_append.1 hmem with hpre | hlast
      · exact ((List.pairwise_append.1 hcut).2.2 a hpre last List.mem_cons_self).le
      · rw [List.mem_singleton.1 hlast]
    exact iff_of_false (not_lt.2 hle) (not_lt.2 (hleft ▸ length_le_above hsplit h hmem))
  · have hlast := hacross last (List.mem_append_right _ List.mem_cons_self) a hmem
    exact iff_of_true hlast (hleft ▸ above_lt_length_of_mem hsplit h hmem)

theorem above_eq_countP (k : κ) : above key l k = (l.map key).countP fun k' => k < k' := by
  rw [above, List.countP_map]
  rfl

/-- Nothing is cut off if there are no more than `n` rows. -/
theorem above_lt_of_length_le (hn : l.length ≤ n) (ha : a ∈ l) : above key l (key a) < n :=
  (above_lt_length ha).trans_le hn

theorem greatest?_eq_some (h : greatest? key l = some a) : a ∈ l ∧ ∀ b ∈ l, key b ≤ key a := by
  have htrans : IsTrans α fun a b => key b ≤ key a := ⟨fun _ _ _ hab hbc => hbc.trans hab⟩
  have htotal : Std.Total fun a b : α => key b ≤ key a := ⟨fun _ _ => le_total _ _⟩
  have hmem : ∀ b, b ∈ l.insertionSort (fun a b => key b ≤ key a) ↔ b ∈ l :=
    fun b => List.mem_insertionSort _
  have hsorted := List.pairwise_insertionSort (fun a b : α => key b ≤ key a) l
  obtain ⟨rest, hrest⟩ := List.head?_eq_some_iff.1 h
  refine ⟨(hmem a).1 (hrest ▸ List.mem_cons_self), fun b hb => ?_⟩
  rw [hrest] at hsorted
  rcases List.mem_cons.1 (hrest ▸ (hmem b).2 hb) with rfl | hb
  · exact le_rfl
  · exact (List.pairwise_cons.1 hsorted).1 b hb

theorem greatest?_eq_none_iff : greatest? key l = none ↔ l = [] := by
  rw [greatest?, List.head?_eq_none_iff, ← List.length_eq_zero_iff, List.length_insertionSort,
    List.length_eq_zero_iff]

end Ascending

namespace InsertionMap

variable {ν ν' : Type} {m : InsertionMap κ ν} {m' : InsertionMap κ ν'}

/-- The entries with the `n` largest keys. -/
def largest (n : ℕ) (m : InsertionMap κ ν) : InsertionMap κ ν :=
  m.filter fun k _ => above Prod.fst m.entries k < n

/-- Maps with the same keys have as many above any of them. -/
theorem above_entries_congr (h : ∀ k, (m.get k).isSome = (m'.get k).isSome) (k : κ) :
    above Prod.fst m.entries k = above Prod.fst m'.entries k := by
  have hkeys : ∀ {ν : Type} (m : InsertionMap κ ν) (k : κ),
      k ∈ m.entries.map Prod.fst ↔ (m.get k).isSome = true := by
    intro ν m k
    rw [Option.isSome_iff_exists, List.mem_map]
    constructor
    · rintro ⟨⟨k, v⟩, hmem, rfl⟩
      exact ⟨v, mem_entries_iff.1 hmem⟩
    · rintro ⟨v, hv⟩
      exact ⟨(k, v), mem_entries_iff.2 hv, rfl⟩
  have hperm : (m.entries.map Prod.fst).Perm (m'.entries.map Prod.fst) :=
    (List.perm_ext_iff_of_nodup m.nodup m'.nodup).2 fun k => by rw [hkeys, hkeys, h]
  rw [above_eq_countP, above_eq_countP, hperm.countP_eq]

end InsertionMap

end Foundation
