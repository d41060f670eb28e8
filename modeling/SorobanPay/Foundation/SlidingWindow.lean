import Mathlib.Data.List.Induction
import Mathlib.Tactic.Common

/-!
# Sliding windows

A limiter admits an event if fewer than `cap` of those admitted before it are recent, that is,
within a window of width `W` that ends now. Then no window of this width has more than `cap` of
them, wherever it begins and whichever of its ends it contains. For the decision the limiter may
forget what is not recent, since it never gets recent again.

## Main definitions

* `recent`: the times in the window that ends now.
* `Spaced`: each time finds fewer than `cap` recent ones before it.
* `Retains`: what a limiter remembers is enough from now on.

## Main results

* `Spaced.countP_le`: no window has more than `cap` times.
* `countP_le_of_pairwise`: `k` gaps in a row have at most `k` times that are a gap apart.
* `Retains.concat`, `Retains.recent_eq`: a limiter may forget.
-/

set_option autoImplicit false

namespace Foundation

variable {W cap now now' : ℕ} {ts kept : List ℕ}

/-- The times in the window of width `W` that ends now. -/
def recent (W now : ℕ) (ts : List ℕ) : List ℕ := ts.filter fun t => now < t + W

theorem recent_append (W now : ℕ) (ts ts' : List ℕ) :
    recent W now (ts ++ ts') = recent W now ts ++ recent W now ts' :=
  List.filter_append ..

/-- What is recent later has been recent before. -/
theorem recent_recent (h : now ≤ now') : recent W now' (recent W now ts) = recent W now' ts := by
  rw [recent, recent, List.filter_filter]
  refine List.filter_congr fun t _ => ?_
  have himp : now' < t + W → now < t + W := Nat.lt_of_le_of_lt h
  by_cases hlater : now' < t + W
  · simp [hlater, himp hlater]
  · simp [hlater]

/-! ### Windows -/

/-- Each time finds fewer than `cap` recent ones before it. -/
def Spaced (W cap : ℕ) (ts : List ℕ) : Prop :=
  ∀ pre t post, ts = pre ++ t :: post → (recent W t pre).length < cap

theorem spaced_nil : Spaced W cap [] := fun _ _ _ h => by simp at h

theorem spaced_append_singleton :
    Spaced W cap (ts ++ [now]) ↔ Spaced W cap ts ∧ (recent W now ts).length < cap := by
  constructor
  · intro h
    refine ⟨fun pre t post hts => h pre t (post ++ [now]) ?_, h ts now [] rfl⟩
    rw [hts, List.append_assoc, List.cons_append]
  · rintro ⟨hts, hnow⟩ pre t post heq
    rcases List.eq_nil_or_concat post with rfl | ⟨post, last, rfl⟩
    · obtain ⟨rfl, hlast⟩ := List.append_inj' heq rfl
      obtain rfl := List.singleton_inj.1 hlast
      exact hnow
    · have hsplit : ts ++ [now] = (pre ++ t :: post) ++ [last] := by
        rw [heq, List.concat_eq_append, List.append_assoc, List.cons_append]
      exact hts pre t post (List.append_inj' hsplit rfl).1

/-- **No window has more than `cap` times**, if the times in the window are recent from the last of
them. -/
theorem Spaced.countP_le (h : Spaced W cap ts) {inside : ℕ → Bool}
    (hinside : ∀ s t, inside s = true → inside t = true → t < s + W) :
    ts.countP inside ≤ cap := by
  induction ts using List.reverseRecOn with
  | nil => exact Nat.zero_le _
  | append_singleton ts t ih =>
    obtain ⟨hts, hlt⟩ := spaced_append_singleton.1 h
    rw [List.countP_append, List.countP_singleton]
    split_ifs with ht
    · have hle : ts.countP inside ≤ (recent W t ts).length := by
        rw [recent, ← List.countP_eq_length_filter]
        exact List.countP_mono_left fun s _ hs => decide_eq_true (hinside s t hs ht)
      omega
    · exact ih hts

/-! ### Gaps -/

/-- Times that are a gap apart, all within `k` gaps in a row, are at most `k`. -/
theorem length_le_of_pairwise {gap : ℕ} (start k : ℕ)
    (h : ts.Pairwise fun t t' => t + gap ≤ t')
    (hts : ∀ t ∈ ts, start ≤ t ∧ t < start + k * gap) : ts.length ≤ k := by
  induction ts generalizing start k with
  | nil => exact Nat.zero_le _
  | cons t ts ih =>
    obtain ⟨hgap, hrest⟩ := List.pairwise_cons.1 h
    obtain ⟨hstart, hlast⟩ := hts t List.mem_cons_self
    rcases k with _ | k
    · omega
    · refine Nat.succ_le_succ (ih (start + gap) k hrest fun t' ht' => ?_)
      have hlater := hgap t' ht'
      have hend := (hts t' (List.mem_cons_of_mem _ ht')).2
      rw [Nat.succ_mul] at hend
      omega

/-- **`k` gaps in a row** have at most `k` of the times that are a gap apart. -/
theorem countP_le_of_pairwise {gap : ℕ} (h : ts.Pairwise fun t t' => t + gap ≤ t')
    (start k : ℕ) : ts.countP (fun t => start ≤ t ∧ t < start + k * gap) ≤ k := by
  rw [List.countP_eq_length_filter]
  refine length_le_of_pairwise start k (h.filter _) fun t ht => ?_
  simpa using (List.mem_filter.1 ht).2

/-! ### Forgetting -/

/-- From now on the same times are recent among those that are kept as among all. -/
def Retains (W now : ℕ) (kept ts : List ℕ) : Prop :=
  ∀ now', now ≤ now' → recent W now' kept = recent W now' ts

namespace Retains

theorem refl (W now : ℕ) (ts : List ℕ) : Retains W now ts ts := fun _ _ => rfl

theorem mono (h : Retains W now kept ts) (hle : now ≤ now') : Retains W now' kept ts :=
  fun later hlater => h later (Nat.le_trans hle hlater)

theorem recent_eq (h : Retains W now kept ts) : recent W now kept = recent W now ts :=
  h now (Nat.le_refl now)

/-- When a time is admitted, those that are not recent may be forgotten. -/
theorem concat (h : Retains W now kept ts) :
    Retains W now (recent W now kept ++ [now]) (ts ++ [now]) := by
  intro later hlater
  rw [recent_append, recent_append, recent_recent hlater, h later hlater]

end Retains

end Foundation
