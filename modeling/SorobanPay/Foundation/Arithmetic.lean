import Mathlib.Algebra.Order.Ring.Int
import Mathlib.Tactic.Common
import Mathlib.Tactic.Positivity
import Mathlib.Tactic.Linarith

/-!
# Checked machine arithmetic

A program compiled with overflow checks stops when a result does not fit its type. `asUnsigned w`
and `asSigned w` are the check: the number itself when it fits a `w`-bit unsigned, respectively
two's-complement signed, word, and nothing otherwise.

The second part is the arithmetic of proportional shares: a rate of `b` parts in `n` of a
non-negative amount, with the division rounding towards zero.

## Main definitions

* `asUnsigned`, `asSigned`: numbers that fit a machine word.

## Main results

* `asUnsigned_eq_some_iff`, `asSigned_eq_some_iff`: what the checks let through.
* `tdiv_share_eq_ediv`, `tdiv_share_nonneg`, `tdiv_share_lt`: a share is a floor, is not
  negative and is less than the whole.
-/

set_option autoImplicit false

namespace Foundation

/-- A number that fits an unsigned word of `w` bits. -/
def asUnsigned (w n : ℕ) : Option ℕ := if n < 2 ^ w then some n else none

/-- A number that fits a signed word of `w` bits. -/
def asSigned (w : ℕ) (z : ℤ) : Option ℤ :=
  if -2 ^ (w - 1) ≤ z ∧ z < 2 ^ (w - 1) then some z else none

@[simp] theorem asUnsigned_eq_some_iff {w n m : ℕ} :
    asUnsigned w n = some m ↔ n < 2 ^ w ∧ n = m := by
  simp [asUnsigned]

@[simp] theorem asUnsigned_eq_none_iff {w n : ℕ} : asUnsigned w n = none ↔ 2 ^ w ≤ n := by
  simp [asUnsigned]

@[simp] theorem asSigned_eq_some_iff {w : ℕ} {z y : ℤ} :
    asSigned w z = some y ↔ (-2 ^ (w - 1) ≤ z ∧ z < 2 ^ (w - 1)) ∧ z = y := by
  simp [asSigned]

/-! ### Proportional shares -/

section Share

variable {a b n : ℤ}

/-- For non-negative operands division towards zero is the floor. -/
theorem tdiv_share_eq_ediv (ha : 0 ≤ a) (hb : 0 ≤ b) : (a * b).tdiv n = a * b / n :=
  Int.tdiv_eq_ediv_of_nonneg (mul_nonneg ha hb)

theorem tdiv_share_nonneg (ha : 0 ≤ a) (hb : 0 ≤ b) (hn : 0 < n) : 0 ≤ (a * b).tdiv n := by
  rw [tdiv_share_eq_ediv ha hb]
  exact Int.ediv_nonneg (mul_nonneg ha hb) hn.le

/-- A share at a rate below one is less than the whole. -/
theorem tdiv_share_lt (ha : 0 < a) (hb : 0 ≤ b) (hbn : b < n) : (a * b).tdiv n < a := by
  rw [tdiv_share_eq_ediv ha.le hb]
  exact Int.ediv_lt_of_lt_mul (hb.trans_lt hbn) (mul_lt_mul_of_pos_left hbn ha)

end Share

end Foundation
