import Mathlib.Data.List.Nodup
import Mathlib.Data.List.Count
import Mathlib.Tactic.Common

/-!
# Elements whose key is new

A consumer that remembers the keys of what it has taken, and takes an element if its key is new,
takes one element of each key. It takes every element exactly once, however often the elements come,
if and only if different elements have different keys.

## Main definitions

* `firstSeen`: the elements that are taken.

## Main results

* `nodup_map_firstSeen`, `exists_mem_firstSeen`: one element of each key is taken.
* `count_firstSeen_iff`: when every element is taken exactly once.
-/

set_option autoImplicit false

namespace Foundation

variable {α κ : Type} [DecidableEq κ] (key : α → κ)

/-- The elements with a key that has not been seen before. -/
def firstSeen : List κ → List α → List α
  | _, [] => []
  | seen, a :: l =>
    if key a ∈ seen then firstSeen seen l else a :: firstSeen (seen ++ [key a]) l

variable {key} {seen : List κ} {l : List α} {a : α}

theorem firstSeen_sublist : (firstSeen key seen l).Sublist l := by
  induction l generalizing seen with
  | nil => exact .slnil
  | cons a l ih =>
    rw [firstSeen]
    split_ifs
    · exact ih.cons a
    · exact ih.cons_cons a

theorem notMem_seen (h : a ∈ firstSeen key seen l) : key a ∉ seen := by
  induction l generalizing seen with
  | nil => cases h
  | cons b l ih =>
    rw [firstSeen] at h
    split_ifs at h with hb
    · exact ih h
    · rcases List.mem_cons.1 h with rfl | h
      · exact hb
      · exact fun ha => ih h (List.mem_append_left _ ha)

variable (key seen l) in
/-- No two elements of one key are taken. -/
theorem nodup_map_firstSeen : ((firstSeen key seen l).map key).Nodup := by
  induction l generalizing seen with
  | nil => exact List.nodup_nil
  | cons a l ih =>
    rw [firstSeen]
    split_ifs
    · exact ih seen
    · refine List.nodup_cons.2 ⟨fun hmem => ?_, ih _⟩
      obtain ⟨b, hb, hkey⟩ := List.mem_map.1 hmem
      exact notMem_seen hb (List.mem_append_right _ (List.mem_singleton.2 hkey))

/-- Of each new key an element is taken. -/
theorem exists_mem_firstSeen (ha : a ∈ l) :
    key a ∈ seen ∨ ∃ b ∈ firstSeen key seen l, key b = key a := by
  induction l generalizing seen with
  | nil => cases ha
  | cons b l ih =>
    rw [firstSeen]
    split_ifs with hb
    · rcases List.mem_cons.1 ha with rfl | ha
      · exact .inl hb
      · exact ih ha
    · rcases List.mem_cons.1 ha with rfl | ha
      · exact .inr ⟨a, List.mem_cons_self, rfl⟩
      · have hrest : key a ∈ seen ++ [key b] ∨
            ∃ c ∈ firstSeen key (seen ++ [key b]) l, key c = key a := ih ha
        rcases hrest with hseen | ⟨c, hc, hkey⟩
        · rcases List.mem_append.1 hseen with hseen | hseen
          · exact .inl hseen
          · exact .inr ⟨b, List.mem_cons_self, (List.mem_singleton.1 hseen).symm⟩
        · exact .inr ⟨c, List.mem_cons_of_mem _ hc, hkey⟩

variable (key) in
theorem exists_mem_firstSeen_nil (ha : a ∈ l) : ∃ b ∈ firstSeen key [] l, key b = key a :=
  (exists_mem_firstSeen ha).resolve_left List.not_mem_nil

/-- **Every element is taken exactly once** if and only if different elements have different
keys. -/
theorem count_firstSeen_iff [DecidableEq α] :
    (∀ a ∈ l, (firstSeen key [] l).count a = 1) ↔ ∀ a ∈ l, ∀ b ∈ l, key a = key b → a = b := by
  have hnodup := nodup_map_firstSeen key [] l
  constructor
  · intro hone a ha b hb hkey
    have htaken : ∀ c ∈ l, c ∈ firstSeen key [] l := fun c hc =>
      List.count_pos_iff.1 (hone c hc ▸ Nat.one_pos)
    exact List.inj_on_of_nodup_map hnodup (htaken a ha) (htaken b hb) hkey
  · intro hinj a ha
    obtain ⟨b, hb, hkey⟩ := exists_mem_firstSeen_nil key ha
    obtain rfl := hinj b (firstSeen_sublist.subset hb) a ha hkey
    exact List.count_eq_one_of_mem (.of_map _ hnodup) hb

end Foundation
