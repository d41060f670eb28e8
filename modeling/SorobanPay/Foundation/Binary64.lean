import Mathlib.Algebra.Order.Round
import Mathlib.Data.Int.Log
import Mathlib.Data.Rat.Floor
import Mathlib.Tactic.FieldSimp
import Mathlib.Tactic.NormNum
import Mathlib.Tactic.Ring

/-!
# Rational numbers in double precision

A rational number is rounded to 53 significant bits, to the nearest number that has so many, and
halfway to the one whose last bit is even. Below the least exponent the last place stays the same,
and from `2 ^ 1024` on the number is infinite.

## Main definitions

* `IsBinary64`: the finite numbers in double precision.
* `Binary64`, `Binary64.ofRat`: what a rational number becomes.

## Main results

* `Binary64.ofRat_eq_finite`: what is kept.
* `IsBinary64.tdiv`: the whole part of a number in double precision is one.
-/

set_option autoImplicit false

namespace Foundation

/-- The number is a significand of 53 bits times a power of two. -/
def IsBinary64 (q : ℚ) : Prop :=
  ∃ m e : ℤ, |m| < 2 ^ 53 ∧ -1074 ≤ e ∧ e ≤ 971 ∧ q = m * 2 ^ e

/-- The nearest integer, halfway the even one. -/
def roundEven (q : ℚ) : ℤ :=
  if 2 * (q - ⌊q⌋) < 1 ∨ 2 * (q - ⌊q⌋) = 1 ∧ ⌊q⌋ % 2 = 0 then ⌊q⌋ else ⌊q⌋ + 1

/-- The exponent of the last place. -/
def lastPlaceExponent (q : ℚ) : ℤ := max (-1074) (Int.log 2 |q| - 52)

/-- The number rounded to its last place. -/
def roundBinary (q : ℚ) : ℚ :=
  roundEven (q / 2 ^ lastPlaceExponent q) * 2 ^ lastPlaceExponent q

/-- The numbers in double precision. -/
inductive Binary64
  | finite (q : ℚ)
  | posInfinity
  | negInfinity
  | nan
  deriving DecidableEq

/-- The number that is nearest to a rational number. -/
def Binary64.ofRat (q : ℚ) : Binary64 :=
  if |roundBinary q| < 2 ^ 1024 then .finite (roundBinary q)
  else if 0 ≤ q then .posInfinity
  else .negInfinity

variable {q : ℚ}

theorem roundEven_intCast (n : ℤ) : roundEven n = n := by
  rw [roundEven, Int.floor_intCast, sub_self, mul_zero, if_pos (.inl one_pos)]

/-- The last place is no higher than that of any significand for the number. -/
theorem lastPlaceExponent_le {m e : ℤ} (hm : |m| < 2 ^ 53) (he : -1074 ≤ e) (hne : m ≠ 0) :
    lastPlaceExponent (m * 2 ^ e) ≤ e := by
  have hpow : (0 : ℚ) < 2 ^ e := zpow_pos two_pos e
  have habs : |(m * 2 ^ e : ℚ)| < 2 ^ (53 + e) := by
    rw [abs_mul, abs_of_pos hpow, zpow_add₀ two_ne_zero]
    exact mul_lt_mul_of_pos_right (by exact_mod_cast hm) hpow
  have hpos : 0 < |(m * 2 ^ e : ℚ)| :=
    abs_pos.2 (mul_ne_zero (by exact_mod_cast hne) hpow.ne')
  have hlog : Int.log 2 |(m * 2 ^ e : ℚ)| < 53 + e :=
    (Int.lt_zpow_iff_log_lt one_lt_two hpos).1 (by exact_mod_cast habs)
  rw [lastPlaceExponent]
  omega

theorem roundBinary_eq_self (h : IsBinary64 q) : roundBinary q = q := by
  obtain ⟨m, e, hm, hlow, -, rfl⟩ := h
  rcases eq_or_ne m 0 with rfl | hne
  · have hzero := roundEven_intCast 0
    rw [Int.cast_zero] at hzero
    rw [Int.cast_zero, zero_mul, roundBinary, zero_div, hzero, Int.cast_zero, zero_mul]
  have hle := lastPlaceExponent_le hm hlow hne
  rw [roundBinary]
  generalize lastPlaceExponent (m * 2 ^ e) = k at *
  -- the significand over the lower last place is an integer
  have hdiv : (m * 2 ^ e : ℚ) / 2 ^ k = ((m * 2 ^ (e - k).toNat : ℤ) : ℚ) := by
    rw [mul_div_assoc, ← zpow_sub₀ two_ne_zero]
    push_cast
    rw [← zpow_natCast, Int.toNat_of_nonneg (by omega)]
  rw [hdiv, roundEven_intCast, ← hdiv, div_mul_cancel₀ _ (zpow_ne_zero k two_ne_zero)]

/-- **What is kept** is what has a significand of 53 bits. -/
theorem Binary64.ofRat_eq_finite (h : IsBinary64 q) : ofRat q = .finite q := by
  have hround := roundBinary_eq_self h
  obtain ⟨m, e, hm, -, hhigh, rfl⟩ := h
  have hpow : (0 : ℚ) < 2 ^ e := zpow_pos two_pos e
  have hlt : |(m * 2 ^ e : ℚ)| < 2 ^ 1024 := by
    calc |(m * 2 ^ e : ℚ)| = |(m : ℚ)| * 2 ^ e := by rw [abs_mul, abs_of_pos hpow]
      _ < 2 ^ 53 * 2 ^ e := mul_lt_mul_of_pos_right (by exact_mod_cast hm) hpow
      _ ≤ 2 ^ 53 * 2 ^ (971 : ℤ) :=
        mul_le_mul_of_nonneg_left (zpow_le_zpow_right₀ one_le_two hhigh) (by positivity)
      _ = 2 ^ 1024 := by rw [zpow_ofNat, ← pow_add]
  rw [ofRat, hround, if_pos hlt]

theorem isBinary64_intCast {m : ℤ} (hm : |m| < 2 ^ 53) : IsBinary64 m :=
  ⟨m, 0, hm, by decide, by decide, by simp⟩

/-- **The whole part** of a number in double precision is a number in double precision. -/
theorem IsBinary64.tdiv {a b : ℤ} (hb : 0 < b) (h : IsBinary64 (a / b)) :
    IsBinary64 (a.tdiv b) := by
  have hne : (b : ℚ) ≠ 0 := by exact_mod_cast hb.ne'
  obtain ⟨m, e, hm, hlow, hhigh, heq⟩ := h
  rw [div_eq_iff hne] at heq
  rcases le_or_gt 0 e with he | he
  · lift e to ℕ using he
    have hmul : a = m * 2 ^ e * b := by exact_mod_cast heq
    refine ⟨m, e, hm, hlow, hhigh, ?_⟩
    rw [hmul, Int.mul_tdiv_cancel _ hb.ne']
    push_cast
    rfl
  · obtain ⟨k, rfl⟩ : ∃ k : ℕ, e = -k := ⟨(-e).toNat, by omega⟩
    have hmul : 2 ^ k * a = b * m := by
      have hpow : (2 : ℚ) ^ k ≠ 0 := pow_ne_zero k two_ne_zero
      rw [zpow_neg, zpow_natCast] at heq
      field_simp at heq
      have hcast : (2 ^ k * a : ℚ) = b * m := by linarith
      exact_mod_cast hcast
    have htdiv : a.tdiv b = m.tdiv (2 ^ k) := by
      rw [← Int.mul_tdiv_mul_of_pos (a := 2 ^ k) a b (by positivity), hmul, mul_comm (2 ^ k) b,
        Int.mul_tdiv_mul_of_pos m (2 ^ k) hb]
    rw [htdiv]
    refine isBinary64_intCast (lt_of_le_of_lt ?_ hm)
    rw [Int.abs_eq_natAbs, Int.abs_eq_natAbs]
    exact_mod_cast Int.natAbs_tdiv_le_natAbs m (2 ^ k)

end Foundation
