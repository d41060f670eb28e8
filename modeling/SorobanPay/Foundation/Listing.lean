import Mathlib.Data.Set.Card
import SorobanPay.Foundation.Run

/-!
# Lists that enumerate a set

A store often keeps, beside the records themselves, a list of the keys that have a record.
`Enumerates l S` says that such a list is right: its members are the members of `S`, each of them
once. The lemmas follow the two updates of such lists, appending a key and filtering one out.

The second part is about invariants that hold of a run only under a condition on its steps. When a
step keeps the invariant exactly if it meets the condition, the invariant holds in all states of a
run exactly if all steps meet it.

## Main definitions

* `Enumerates`: a list enumerates a set.
* `Throughout`: a property holds in all states of a run.
* `Onwards`: a relation holds between every state of a run and all later ones.

## Main results

* `Enumerates.append_singleton_iff`, `Enumerates.filter_ne`: the two updates.
* `Enumerates.ncard_eq`: the length of the list is the size of the set.
* `throughout_iff_along_of_admitted`, `throughout_iff_along`: conditional invariants of runs.
* `onwards_iff_along`: the same for what holds from some state on.
-/

set_option autoImplicit false

namespace Foundation

section Enumerates

variable {α : Type} {l : List α} {S : Set α} {a : α}

/-- The members of `l` are those of `S`, each of them once. -/
structure Enumerates (l : List α) (S : Set α) : Prop where
  nodup : l.Nodup
  mem_iff : ∀ x, x ∈ l ↔ x ∈ S

namespace Enumerates

theorem nil : Enumerates ([] : List α) ∅ := ⟨List.nodup_nil, by simp⟩

/-- Appending a member keeps an enumeration exactly if the member is new. -/
theorem append_singleton_iff (h : Enumerates l S) : Enumerates (l ++ [a]) (insert a S) ↔ a ∉ S := by
  rw [← h.mem_iff a]
  constructor
  · intro h' ha
    exact List.disjoint_of_nodup_append h'.nodup ha (List.mem_singleton_self a)
  · intro ha
    refine ⟨?_, fun x => ?_⟩
    · rw [List.nodup_append]
      exact ⟨h.nodup, List.nodup_singleton a, fun x hx y hy hxy => by simp_all⟩
    · rw [List.mem_append, List.mem_singleton, h.mem_iff, Set.mem_insert_iff, or_comm]

/-- Filtering a member out removes it from the set. -/
theorem filter_ne [DecidableEq α] (h : Enumerates l S) :
    Enumerates (l.filter (· ≠ a)) (S \ {a}) :=
  ⟨h.nodup.filter _, fun x => by simp [h.mem_iff]⟩

theorem ncard_eq (h : Enumerates l S) : S.ncard = l.length := by
  classical
  have hS : S = (l.toFinset : Set α) := Set.ext fun x => by simp [h.mem_iff]
  rw [hS, Set.ncard_coe_finset, List.toFinset_card_of_nodup h.nodup]

end Enumerates

end Enumerates

/-! ### Conditional invariants -/

section Runs

variable {S I : Type} (next : S → I → S)

/-- `Good` holds in all states of the run on a list of inputs. -/
def Throughout (Good : S → Prop) (s : S) (is : List I) : Prop :=
  ∀ pre post, is = pre ++ post → Good (after next s pre)

variable {next}

/-- **Conditional invariants of runs.** Let `Inv` imply `Good`, and let a step that is admitted and
taken where `Inv` holds keep `Inv` if it satisfies `P` and break `Good` otherwise. Then `Good` holds
in all states of a run of admitted steps exactly if all its steps satisfy `P`. -/
theorem throughout_iff_along_of_admitted (Inv : S → Prop) (Admitted : S → I → Prop)
    {Good : S → Prop} {P : S → I → Prop} (hgood : ∀ s, Inv s → Good s)
    (hkeep : ∀ s i, Inv s → Admitted s i → P s i → Inv (next s i))
    (hbreak : ∀ s i, Inv s → Admitted s i → Good (next s i) → P s i) {s : S} {is : List I}
    (hs : Inv s) (hadmitted : Along next Admitted s is) :
    Throughout next Good s is ↔ Along next P s is := by
  induction is generalizing s with
  | nil =>
    refine ⟨fun _ => trivial, fun _ pre post hsplit => ?_⟩
    rw [(List.append_eq_nil_iff.1 hsplit.symm).1]
    exact hgood s hs
  | cons i is ih =>
    constructor
    · intro h
      have hi : P s i := hbreak s i hs hadmitted.1 (h [i] is rfl)
      refine ⟨hi, (ih (hkeep s i hs hadmitted.1 hi) hadmitted.2).1 fun pre post hsplit => ?_⟩
      exact h (i :: pre) post (by rw [hsplit, List.cons_append])
    · rintro ⟨hi, htail⟩ pre post hsplit
      rcases pre with _ | ⟨j, pre⟩
      · exact hgood s hs
      · obtain ⟨rfl, hrest⟩ := List.cons.inj hsplit
        exact (ih (hkeep s i hs hadmitted.1 hi) hadmitted.2).2 htail pre post hrest

/-- Conditional invariants of runs whose steps are all admitted. -/
theorem throughout_iff_along (Inv : S → Prop) {Good : S → Prop} {P : S → I → Prop}
    (hgood : ∀ s, Inv s → Good s) (hkeep : ∀ s i, Inv s → P s i → Inv (next s i))
    (hbreak : ∀ s i, Inv s → Good (next s i) → P s i) {s : S} {is : List I} (hs : Inv s) :
    Throughout next Good s is ↔ Along next P s is :=
  throughout_iff_along_of_admitted Inv (fun _ _ => True) hgood
    (fun s i hs _ => hkeep s i hs) (fun s i hs _ => hbreak s i hs) hs
    (along_of_forall fun _ _ => trivial)

/-! ### What holds from some state of a run on -/

variable (next) in
/-- `R` relates every state of the run on a list of inputs to itself and to all later ones. -/
def Onwards (R : S → S → Prop) (s : S) (is : List I) : Prop :=
  ∀ pre mid post, is = pre ++ mid ++ post → R (after next s pre) (after next s (pre ++ mid))

/-- What holds from every state of a run on holds from every state of its end on. -/
theorem Onwards.of_append {R : S → S → Prop} {s : S} {is js : List I}
    (h : Onwards next R s (is ++ js)) : Onwards next R (after next s is) js := by
  rintro pre mid post rfl
  have hlater := h (is ++ pre) mid post (by simp only [List.append_assoc])
  rwa [after_append, List.append_assoc, after_append] at hlater

/-- A relation that no step breaks is kept from every state on. -/
theorem onwards_of_along (Inv : S → Prop) {R : S → S → Prop} {P : S → I → Prop}
    (htrans : ∀ s t u, R s t → R t u → R s u) (hrefl : ∀ s, Inv s → R s s)
    (hkeep : ∀ s i, Inv s → P s i → Inv (next s i) ∧ R s (next s i)) {s : S} {is : List I}
    (hs : Inv s) (hP : Along next P s is) : Onwards next R s is := by
  rintro pre mid post rfl
  rw [List.append_assoc, along_append, along_append] at hP
  obtain ⟨hpre, hmid, -⟩ := hP
  have hstart : Inv (after next s pre) :=
    hpre.invariant (fun s i hs hi => (hkeep s i hs hi).1) hs
  let Kept : S → Prop := fun t => Inv t ∧ R (after next s pre) t
  have hkept : Kept (after next (after next s pre) mid) := by
    refine hmid.invariant (fun t i ht hi => ?_) ⟨hstart, hrefl _ hstart⟩
    obtain ⟨hnext, hstep⟩ := hkeep t i ht.1 hi
    exact ⟨hnext, htrans _ _ _ ht.2 hstep⟩
  rw [after_append]
  exact hkept.2

/-- A relation is kept from every state of a run on exactly if no step breaks it. -/
theorem onwards_iff_along (Inv : S → Prop) {R : S → S → Prop} {P : S → I → Prop}
    (htrans : ∀ s t u, R s t → R t u → R s u) (hrefl : ∀ s, Inv s → R s s)
    (hkeep : ∀ s i, Inv s → P s i → Inv (next s i) ∧ R s (next s i))
    (hbreak : ∀ s i, Inv s → R s (next s i) → R (next s i) (next s i) → P s i) {s : S}
    {is : List I} (hs : Inv s) : Onwards next R s is ↔ Along next P s is := by
  refine ⟨fun h => ?_, onwards_of_along Inv htrans hrefl hkeep hs⟩
  induction is generalizing s with
  | nil => trivial
  | cons i is ih =>
    have hi : P s i := hbreak s i hs (h [] [i] is rfl) (h [i] [] is rfl)
    refine ⟨hi, ih (hkeep s i hs hi).1 fun pre mid post hsplit => ?_⟩
    exact h (i :: pre) mid post (by rw [hsplit, List.cons_append, List.cons_append])

end Runs

end Foundation
