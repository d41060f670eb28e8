import Mathlib.Algebra.Order.Group.Nat
import Mathlib.Data.List.Nodup
import Mathlib.Tactic.Common

/-!
# Pages after a key

A list is read in pages of `n` elements. A page is what comes first among the elements whose key is
later than that of the last element of the page before. The list need not be in the order of the
keys. If it is not, elements are skipped or read twice; and the pages show the whole list if and
only if at the end of each page the keys of what has been read and of what is left are on different
sides of the last key.

## Main definitions

* `Follows`: the pages that are read from a cursor on.
* `pastPivot`, `keysetPage`: what comes after a key, and its first page.
* `SplitAt`: a key that separates what has been read from what is left.

## Main results

* `exists_follows`: reading comes to an end.
* `flatten_eq_iff_of_follows`: when the pages show the whole list.
-/

set_option autoImplicit false

namespace Foundation

variable {α κ : Type}

/-! ### Following cursors -/

/-- The pages that are read from a cursor on. A request gives a page and maybe the next cursor. -/
inductive Follows (request : Option κ → Option (List α × Option κ)) :
    Option κ → List (List α) → Prop
  | last {cursor : Option κ} {page : List α} (h : request cursor = some (page, none)) :
      Follows request cursor [page]
  | next {cursor : Option κ} {page : List α} {next : κ} {pages : List (List α)}
      (h : request cursor = some (page, some next)) (hpages : Follows request (some next) pages) :
      Follows request cursor (page :: pages)

/-- The pages are determined. -/
theorem Follows.unique {request : Option κ → Option (List α × Option κ)} {cursor : Option κ}
    {pages pages' : List (List α)} (h : Follows request cursor pages)
    (h' : Follows request cursor pages') : pages = pages' := by
  induction h generalizing pages' with
  | last hrequest =>
    cases h' with
    | last hrequest' =>
      rw [hrequest, Option.some.injEq, Prod.mk.injEq] at hrequest'
      rw [hrequest'.1]
    | next hrequest' =>
      rw [hrequest, Option.some.injEq, Prod.mk.injEq] at hrequest'
      exact absurd hrequest'.2 (by simp)
  | next hrequest _ ih =>
    cases h' with
    | last hrequest' =>
      rw [hrequest, Option.some.injEq, Prod.mk.injEq] at hrequest'
      exact absurd hrequest'.2 (by simp)
    | next hrequest' hpages' =>
      rw [hrequest, Option.some.injEq, Prod.mk.injEq, Option.some.injEq] at hrequest'
      obtain ⟨rfl, rfl⟩ := hrequest'
      rw [ih hpages']

/-- Requests that give the same pages under other names of the cursors and the elements, for the
cursors that are met. -/
theorem Follows.map {β σ : Type} {request : Option κ → Option (List α × Option κ)}
    {request' : Option σ → Option (List β × Option σ)} (name : κ → σ) (f : α → β)
    (met : κ → Prop)
    (h : ∀ cursor page next, (∀ k ∈ cursor, met k) → request cursor = some (page, next) →
      (∀ k ∈ next, met k) ∧ request' (cursor.map name) = some (page.map f, next.map name))
    {cursor : Option κ} {pages : List (List α)} (hcursor : ∀ k ∈ cursor, met k)
    (hpages : Follows request cursor pages) :
    Follows request' (cursor.map name) (pages.map (List.map f)) := by
  induction hpages with
  | last hrequest => exact .last (h _ _ _ hcursor hrequest).2
  | next hrequest _ ih =>
    obtain ⟨hnext, hrequest'⟩ := h _ _ _ hcursor hrequest
    exact .next hrequest' (ih hnext)

/-! ### Pages after a key -/

section Pages

variable (key : α → κ) (later : κ → κ → Prop) [DecidableRel later] (n : ℕ) (l : List α)

/-- The elements whose key is later than a given one. -/
def pastPivot (pivot : Option κ) : List α :=
  l.filter fun a => pivot.all fun p => decide (later p (key a))

/-- The first page of what comes after a key, and the last key on it if there is more. -/
def keysetPage (pivot : Option κ) : List α × Option κ :=
  let found := pastPivot key later l pivot
  (found.take n, if n < found.length then (found.take n).getLast?.map key else none)

/-- The last key among the first `m` elements is not earlier than any of these, and earlier than all
others. -/
def SplitAt (m : ℕ) : Prop :=
  ∀ last ∈ l[m - 1]?, (∀ a ∈ l.take m, ¬later (key last) (key a)) ∧
    ∀ a ∈ l.drop m, later (key last) (key a)

variable {key later n l}

theorem mem_pastPivot_iff {pivot : Option κ} {a : α} :
    a ∈ pastPivot key later l pivot ↔ a ∈ l ∧ ∀ p ∈ pivot, later p (key a) := by
  rw [pastPivot, List.mem_filter, Option.all_eq_true]
  simp

@[simp] theorem pastPivot_none : pastPivot key later l none = l := by
  simp [pastPivot]

/-- Where there is more than a page, the last element of the page is the pivot of the next. -/
theorem keysetPage_eq_of_lt (hn : 0 < n) {pivot : Option κ}
    (h : n < (pastPivot key later l pivot).length) :
    ∃ last, (pastPivot key later l pivot)[n - 1]? = some last ∧
      keysetPage key later n l pivot =
        ((pastPivot key later l pivot).take n, some (key last)) := by
  obtain ⟨last, hlast⟩ : ∃ last, (pastPivot key later l pivot)[n - 1]? = some last :=
    ⟨_, List.getElem?_eq_getElem (show n - 1 < _ by omega)⟩
  refine ⟨last, hlast, ?_⟩
  have hlength : ((pastPivot key later l pivot).take n).length = n := by
    rw [List.length_take]
    omega
  rw [keysetPage, if_pos h, List.getLast?_eq_getElem?, hlength,
    List.getElem?_take_of_lt (by omega), hlast, Option.map_some]

theorem keysetPage_eq_of_le {pivot : Option κ}
    (h : (pastPivot key later l pivot).length ≤ n) :
    keysetPage key later n l pivot = (pastPivot key later l pivot, none) := by
  rw [keysetPage, if_neg (by omega), List.take_of_length_le h]

/-! ### Reading comes to an end -/

section Reading

variable (hirrefl : ∀ k, ¬later k k) (htrans : ∀ i j k, later i j → later j k → later i k)
  (hn : 0 < n)

include hirrefl htrans hn

/-- **Reading comes to an end**, since less and less is left after the pivot. -/
theorem exists_follows (pivot : Option κ) :
    ∃ pages, Follows (fun cursor => some (keysetPage key later n l cursor)) pivot pages := by
  induction hleft : (pastPivot key later l pivot).length using Nat.strongRecOn generalizing pivot
    with
  | ind left ih =>
    rcases Nat.lt_or_ge n (pastPivot key later l pivot).length with hmore | hdone
    · obtain ⟨last, hlast, hpage⟩ := keysetPage_eq_of_lt hn hmore
      have hmem := mem_pastPivot_iff.1 (List.mem_of_getElem? hlast)
      -- the last element of the page is not after itself
      have hfewer : (pastPivot key later l (some (key last))).length < left := by
        have hsublist : (pastPivot key later l (some (key last))).Sublist
            (pastPivot key later l pivot) := by
          refine List.monotone_filter_right l fun a ha => ?_
          simp only [Option.all_some, decide_eq_true_eq] at ha
          rw [Option.all_eq_true]
          exact fun p hp => decide_eq_true (htrans _ _ _ (hmem.2 p hp) ha)
        refine lt_of_le_of_ne (hleft ▸ hsublist.length_le) fun hlength => ?_
        have heq := hsublist.eq_of_length (hlength.trans hleft.symm)
        have hself := List.mem_of_getElem? hlast
        rw [← heq, mem_pastPivot_iff] at hself
        exact hirrefl _ (hself.2 _ rfl)
      obtain ⟨pages, hpages⟩ := ih _ hfewer _ rfl
      exact ⟨_, .next (congrArg some hpage) hpages⟩
    · exact ⟨_, .last (congrArg some (keysetPage_eq_of_le hdone))⟩

omit hirrefl in
/-- What is read from a pivot on is after it. -/
theorem mem_pastPivot_of_mem_flatten {pivot : Option κ} {pages : List (List α)}
    (h : Follows (fun cursor => some (keysetPage key later n l cursor)) pivot pages) :
    ∀ a ∈ pages.flatten, a ∈ pastPivot key later l pivot := by
  induction h with
  | @last cursor page hrequest =>
    intro a ha
    have hpage := congrArg Prod.fst (Option.some.inj hrequest)
    rw [List.flatten_singleton, ← show _ = page from hpage] at ha
    exact List.mem_of_mem_take ha
  | @next cursor page next pages hrequest _ ih =>
    intro a ha
    have hpage := congrArg Prod.fst (Option.some.inj hrequest)
    rw [List.flatten_cons, ← show _ = page from hpage, List.mem_append] at ha
    rcases ha with ha | ha
    · exact List.mem_of_mem_take ha
    · rcases Nat.lt_or_ge n (pastPivot key later l cursor).length with hmore | hdone
      · obtain ⟨last, hlast, heq⟩ := keysetPage_eq_of_lt hn hmore
        have hnext : next = key last := by
          rw [heq, Option.some.injEq, Prod.mk.injEq, Option.some.injEq] at hrequest
          exact hrequest.2.symm
        have hmem := mem_pastPivot_iff.1 (List.mem_of_getElem? hlast)
        have hlater := mem_pastPivot_iff.1 (ih a ha)
        exact mem_pastPivot_iff.2 ⟨hlater.1, fun p hp =>
          htrans _ _ _ (hmem.2 p hp) (hnext ▸ hlater.2 next rfl)⟩
      · rw [keysetPage_eq_of_le hdone] at hrequest
        exact absurd (congrArg Prod.snd (Option.some.inj hrequest)) (by simp)

end Reading

/-! ### What is read -/

/-- What is after a pivot is what is left of the list if it is all after the pivot and begins with
the first element that is left. -/
theorem pastPivot_eq_drop {pivot : Option κ} {m : ℕ} (hnodup : l.Nodup)
    (hall : ∀ a ∈ l.drop m, a ∈ pastPivot key later l pivot)
    (hhead : (pastPivot key later l pivot).head? = (l.drop m).head?) :
    pastPivot key later l pivot = l.drop m := by
  have hsplit : pastPivot key later l pivot =
      pastPivot key later (l.take m) pivot ++ pastPivot key later (l.drop m) pivot := by
    rw [pastPivot, pastPivot, pastPivot, ← List.filter_append, List.take_append_drop]
  have hright : pastPivot key later (l.drop m) pivot = l.drop m := by
    refine List.filter_eq_self.2 fun a ha => ?_
    have hpast := (mem_pastPivot_iff.1 (hall a ha)).2
    rw [Option.all_eq_true]
    exact fun p hp => decide_eq_true (hpast p hp)
  have hleft : pastPivot key later (l.take m) pivot = [] := by
    rcases hfirst : pastPivot key later (l.take m) pivot with _ | ⟨a, rest⟩
    · rfl
    · exfalso
      rw [hsplit, hfirst, List.cons_append, List.head?_cons] at hhead
      have htake : a ∈ l.take m := (mem_pastPivot_iff.1 (hfirst ▸ List.mem_cons_self)).1
      exact List.disjoint_take_drop hnodup le_rfl htake (List.mem_of_head? hhead.symm)
  rw [hsplit, hleft, hright, List.nil_append]

/-- What is after the last key is what is left if and only if the key splits the list. -/
theorem pastPivot_eq_drop_iff {m : ℕ} {last : α} (hnodup : l.Nodup)
    (hlast : l[m - 1]? = some last) :
    pastPivot key later l (some (key last)) = l.drop m ↔ SplitAt key later l m := by
  have hsplit : pastPivot key later l (some (key last)) =
      pastPivot key later (l.take m) (some (key last)) ++
        pastPivot key later (l.drop m) (some (key last)) := by
    rw [pastPivot, pastPivot, pastPivot, ← List.filter_append, List.take_append_drop]
  constructor
  · intro heq last' hlast'
    obtain rfl : last = last' := Option.some.inj (hlast.symm.trans hlast')
    refine ⟨fun a ha hlater => ?_, fun a ha => ?_⟩
    · have hpast : a ∈ pastPivot key later l (some (key last)) :=
        mem_pastPivot_iff.2 ⟨List.mem_of_mem_take ha, fun p hp => Option.some.inj hp ▸ hlater⟩
      exact List.disjoint_take_drop hnodup le_rfl ha (heq ▸ hpast)
    · exact (mem_pastPivot_iff.1 (heq ▸ ha)).2 _ rfl
  · intro hkeys
    obtain ⟨hbefore, hafter⟩ := hkeys last hlast
    have hleft : pastPivot key later (l.take m) (some (key last)) = [] :=
      List.filter_eq_nil_iff.2 fun a ha => by simpa using hbefore a ha
    have hright : pastPivot key later (l.drop m) (some (key last)) = l.drop m :=
      List.filter_eq_self.2 fun a ha => by simpa using hafter a ha
    rw [hsplit, hleft, hright, List.nil_append]

/-- If what is left of the list is read from a pivot on, it is what is after the pivot. -/
theorem pastPivot_eq_drop_of_follows (htrans : ∀ i j k, later i j → later j k → later i k)
    (hn : 0 < n) (hnodup : l.Nodup) {pivot : Option κ} {pages : List (List α)} {m : ℕ}
    (hm : m < l.length)
    (h : Follows (fun cursor => some (keysetPage key later n l cursor)) pivot pages)
    (hflatten : pages.flatten = l.drop m) : pastPivot key later l pivot = l.drop m := by
  have hmem := mem_pastPivot_of_mem_flatten htrans hn h
  rw [hflatten] at hmem
  refine pastPivot_eq_drop hnodup hmem ?_
  -- the first element that is read is the first one after the pivot
  obtain ⟨page, rest, hpages, hpage⟩ : ∃ page rest, pages = page :: rest ∧
      page = (pastPivot key later l pivot).take n := by
    cases h with
    | last hrequest => exact ⟨_, [], rfl, (congrArg Prod.fst (Option.some.inj hrequest)).symm⟩
    | next hrequest _ =>
      exact ⟨_, _, rfl, (congrArg Prod.fst (Option.some.inj hrequest)).symm⟩
  obtain ⟨a, left, hdrop⟩ := List.exists_cons_of_ne_nil (show l.drop m ≠ [] by simpa using hm)
  obtain ⟨b, past, hpast⟩ := List.exists_cons_of_ne_nil
    (List.ne_nil_of_mem (hmem a (hdrop ▸ List.mem_cons_self)))
  obtain ⟨k, rfl⟩ := Nat.exists_eq_succ_of_ne_zero hn.ne'
  rw [← hflatten, hpages, hpage, hpast]
  rfl

/-- A page at the start of what is left leaves what comes after it. -/
theorem flatten_take_cons_eq_drop_iff {m : ℕ} {pages : List (List α)} :
    ((l.drop m).take n :: pages).flatten = l.drop m ↔ pages.flatten = l.drop (m + n) := by
  have hdrop : l.drop m = (l.drop m).take n ++ l.drop (m + n) := by
    rw [← List.drop_drop, List.take_append_drop]
  rw [List.flatten_cons]
  exact ⟨fun heq => List.append_cancel_left (heq.trans hdrop), fun heq => heq ▸ hdrop.symm⟩

/-- **What is read** from a pivot on, after which what is left of the list comes, is what is left of
the list if and only if the last key of each page splits the list. -/
theorem flatten_eq_drop_iff_of_follows (htrans : ∀ i j k, later i j → later j k → later i k)
    (hn : 0 < n) (hnodup : l.Nodup) {pivot : Option κ} {pages : List (List α)}
    (h : Follows (fun cursor => some (keysetPage key later n l cursor)) pivot pages) {m : ℕ}
    (hpivot : pastPivot key later l pivot = l.drop m) :
    pages.flatten = l.drop m ↔
      ∀ k, 0 < k → m + k * n < l.length → SplitAt key later l (m + k * n) := by
  induction h generalizing m with
  | @last cursor page hrequest =>
    rcases Nat.lt_or_ge n (pastPivot key later l cursor).length with hmore | hdone
    · obtain ⟨last, -, heq⟩ := keysetPage_eq_of_lt hn hmore
      rw [heq] at hrequest
      exact absurd (congrArg Prod.snd (Option.some.inj hrequest)) (by simp)
    · have hpage := congrArg Prod.fst (Option.some.inj hrequest)
      rw [keysetPage_eq_of_le hdone] at hpage
      rw [List.flatten_singleton, ← show _ = page from hpage, hpivot]
      rw [hpivot, List.length_drop] at hdone
      refine iff_of_true rfl fun k hk hlt => ?_
      have := Nat.le_mul_of_pos_left n hk
      omega
  | @next cursor page next pages hrequest hpages ih =>
    rcases Nat.lt_or_ge n (pastPivot key later l cursor).length with hmore | hdone
    · obtain ⟨last, hlast, heq⟩ := keysetPage_eq_of_lt hn hmore
      rw [heq, Option.some.injEq, Prod.mk.injEq, Option.some.injEq, hpivot] at hrequest
      obtain ⟨rfl, rfl⟩ := hrequest
      rw [hpivot, List.getElem?_drop, show m + (n - 1) = m + n - 1 by omega] at hlast
      rw [hpivot, List.length_drop] at hmore
      have hsum : ∀ k, m + (k + 1) * n = m + n + k * n := fun k => by
        rw [Nat.add_one_mul]
        omega
      rw [flatten_take_cons_eq_drop_iff]
      constructor
      · intro hflatten k hk hlt
        have hpast := pastPivot_eq_drop_of_follows htrans hn hnodup (by omega) hpages hflatten
        obtain ⟨k, rfl⟩ := Nat.exists_eq_succ_of_ne_zero hk.ne'
        rw [Nat.succ_eq_add_one, hsum] at hlt ⊢
        rcases Nat.eq_zero_or_pos k with rfl | hpos
        · rw [Nat.zero_mul, Nat.add_zero]
          exact (pastPivot_eq_drop_iff hnodup hlast).1 hpast
        · exact (ih hpast).1 hflatten k hpos hlt
      · intro hall
        have hpast := (pastPivot_eq_drop_iff hnodup hlast).2 (by
          have := hall 1 Nat.one_pos (by omega)
          rwa [Nat.one_mul] at this)
        refine (ih hpast).2 fun k hk hlt => ?_
        rw [← hsum] at hlt ⊢
        exact hall (k + 1) (Nat.succ_pos k) hlt
    · rw [keysetPage_eq_of_le hdone] at hrequest
      exact absurd (congrArg Prod.snd (Option.some.inj hrequest)) (by simp)

/-- **The whole list is read** if and only if the last key of each page splits it. -/
theorem flatten_eq_iff_of_follows (htrans : ∀ i j k, later i j → later j k → later i k)
    (hn : 0 < n) (hnodup : l.Nodup) {pages : List (List α)}
    (h : Follows (fun cursor => some (keysetPage key later n l cursor)) none pages) :
    pages.flatten = l ↔ ∀ k, 0 < k → k * n < l.length → SplitAt key later l (k * n) := by
  have hiff := flatten_eq_drop_iff_of_follows htrans hn hnodup h (m := 0) pastPivot_none
  simpa using hiff

end Pages

end Foundation
