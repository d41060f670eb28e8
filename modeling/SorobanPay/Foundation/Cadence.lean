import Mathlib.Tactic.Ring

/-!
# Times that come with a period, each a little late

Something is due, is done at some time from then on but within a bounded delay, and is due again one
period after it was done. Nothing is made up for: every delay moves all later times. So the times
fall behind a strict schedule by at most one delay each, and never get ahead of it.

## Main definitions

* `Cadence`: times that are each at most `delay` after they are due.
* `dueAfter`: when the next one is due.

## Main results

* `Cadence.dueAfter_bounds`: how far the schedule has moved.
* `Cadence.getElem_bounds`: when the `k`-th time comes.
-/

set_option autoImplicit false

namespace Foundation

/-- Each time is due one period after the one before it, the first one at `due`, and comes at most
`delay` after it is due. -/
def Cadence (period delay : ℕ) : ℕ → List ℕ → Prop
  | _, [] => True
  | due, t :: ts => due ≤ t ∧ t ≤ due + delay ∧ Cadence period delay (t + period) ts

/-- When the next time is due after some of them. -/
def dueAfter (period : ℕ) : ℕ → List ℕ → ℕ
  | due, [] => due
  | _, t :: ts => dueAfter period (t + period) ts

namespace Cadence

variable {period delay due t : ℕ} {ts ts' : List ℕ}

instance decidable : (due : ℕ) → (ts : List ℕ) → Decidable (Cadence period delay due ts)
  | _, [] => inferInstanceAs (Decidable True)
  | due, t :: ts =>
    have := decidable (t + period) ts
    inferInstanceAs (Decidable (due ≤ t ∧ t ≤ due + delay ∧ Cadence period delay (t + period) ts))

/-- **How far the schedule has moved**: by one period for each time, and at most one delay more. -/
theorem dueAfter_bounds (h : Cadence period delay due ts) :
    due + ts.length * period ≤ dueAfter period due ts ∧
      dueAfter period due ts ≤ due + ts.length * (period + delay) := by
  induction ts generalizing due with
  | nil => simp [dueAfter]
  | cons t ts ih =>
    obtain ⟨hdue, hdelay, hts⟩ := h
    obtain ⟨hlow, hhigh⟩ := ih hts
    simp only [dueAfter, List.length_cons, Nat.add_mul, Nat.one_mul] at hlow hhigh ⊢
    omega

theorem append_iff : Cadence period delay due (ts ++ ts') ↔
    Cadence period delay due ts ∧ Cadence period delay (dueAfter period due ts) ts' := by
  induction ts generalizing due with
  | nil => simp [Cadence, dueAfter]
  | cons t ts ih => simp only [List.cons_append, Cadence, dueAfter, ih, and_assoc]

/-- **When the `k`-th time comes**: not ahead of the strict schedule, and behind it by at most one
delay for each time up to it. -/
theorem getElem_bounds (h : Cadence period delay due ts) {k : ℕ} (hk : k < ts.length) :
    due + k * period ≤ ts[k] ∧ ts[k] ≤ due + k * (period + delay) + delay := by
  have hsplit : ts = ts.take k ++ ts[k] :: ts.drop (k + 1) := by simp
  rw [hsplit, append_iff] at h
  obtain ⟨hearlier, hdue, hdelay, -⟩ := h
  obtain ⟨hlow, hhigh⟩ := hearlier.dueAfter_bounds
  rw [List.length_take_of_le hk.le] at hlow hhigh
  exact ⟨hlow.trans hdue, hdelay.trans (Nat.add_le_add_right hhigh _)⟩

/-- Two times in a row are a period apart, and at most one delay more. -/
theorem isChain (h : Cadence period delay due ts) :
    ts.IsChain fun t t' => t + period ≤ t' ∧ t' ≤ t + period + delay := by
  induction ts generalizing due with
  | nil => exact .nil
  | cons t ts ih =>
    obtain ⟨-, -, hts⟩ := h
    cases ts with
    | nil => exact .singleton t
    | cons t' ts => exact .cons_cons ⟨hts.1, hts.2.1⟩ (ih hts)

end Cadence

end Foundation
