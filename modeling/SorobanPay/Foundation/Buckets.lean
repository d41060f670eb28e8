import Mathlib.Algebra.BigOperators.Group.List.Basic
import Mathlib.Data.List.Nodup
import Mathlib.Tactic.Abel

/-!
# Sums over buckets

Buckets say which items they cover. If every item of a collection is covered by exactly one bucket,
and no other item is covered, then what the buckets hold together is what the collection holds.

## Main results

* `countP_eq_one`: one item of a list without duplicates has a property.
* `sum_map_sum_filter`: the sums over the buckets add up.
-/

set_option autoImplicit false

namespace Foundation

variable {α β M : Type}

theorem countP_eq_one {p : α → Bool} {l : List α} (hl : l.Nodup) {a : α} (ha : a ∈ l)
    (hp : p a = true) (hunique : ∀ b ∈ l, p b = true → b = a) : l.countP p = 1 := by
  induction l with
  | nil => exact absurd ha List.not_mem_nil
  | cons b l ih =>
    obtain ⟨hb, hl⟩ := List.nodup_cons.1 hl
    have hrest : ∀ c ∈ l, p c = true → c = a := fun c hc => hunique c (List.mem_cons_of_mem b hc)
    by_cases hpb : p b = true
    · have hba := hunique b List.mem_cons_self hpb
      rw [List.countP_cons_of_pos hpb, List.countP_eq_zero.2 fun c hc hpc =>
        hb (hba.trans (hrest c hc hpc).symm ▸ hc)]
    · rw [List.countP_cons_of_neg hpb]
      have hne : a ≠ b := fun hab => hpb (hab ▸ hp)
      exact ih hl ((List.mem_cons.1 ha).resolve_left hne) hrest

/-- One more item is held by every bucket that covers it. -/
theorem sum_map_add_ite [AddCommMonoid M] (buckets : List β) (q : β → Bool) (f : β → M) (x : M) :
    (buckets.map fun b => (if q b = true then x else 0) + f b).sum =
      buckets.countP q • x + (buckets.map f).sum := by
  induction buckets with
  | nil => simp
  | cons b buckets ih =>
    rw [List.map_cons, List.sum_cons, ih, List.countP_cons, List.map_cons, List.sum_cons, add_nsmul]
    split_ifs
    · rw [one_nsmul]
      abel
    · rw [zero_nsmul]
      abel

/-- **Buckets add up** when they cover each item of a collection once, and no other item. -/
theorem sum_map_sum_filter [AddCommMonoid M] {buckets : List β} {items : List α}
    {covers : β → α → Bool} {p : α → Bool} (f : α → M)
    (h : ∀ a ∈ items, (buckets.countP fun b => covers b a) = if p a = true then 1 else 0) :
    (buckets.map fun b => ((items.filter (covers b)).map f).sum).sum =
      ((items.filter p).map f).sum := by
  induction items with
  | nil => simp
  | cons a items ih =>
    have ih := ih fun b hb => h b (List.mem_cons_of_mem a hb)
    have ha := h a List.mem_cons_self
    have hcons : ∀ q : α → Bool, (((a :: items).filter q).map f).sum =
        (if q a = true then f a else 0) + ((items.filter q).map f).sum := by
      intro q
      rw [List.filter_cons]
      split_ifs
      · rw [List.map_cons, List.sum_cons]
      · rw [zero_add]
    simp only [hcons]
    rw [sum_map_add_ite buckets (fun b => covers b a), ih, ha]
    split_ifs
    · rw [one_nsmul]
    · rw [zero_nsmul]

end Foundation
