import Mathlib.Algebra.Field.Rat
import Mathlib.Data.List.DropRight
import Mathlib.Tactic.FieldSimp
import Mathlib.Tactic.Ring

/-!
# Decimal numerals

A numeral is an optional minus sign, one or more digits, a point, and one or more digits. It stands
for a rational number. Zeros at the end of the fraction may be left out, and zeros may be put in
front of it as long as it keeps its length.

## Main definitions

* `decimal?`: the number that a text stands for, if it is a numeral.

## Main results

* `unsignedDecimal?_append`: what is a numeral.
* `decimalPlaces_rdropWhile`: zeros at the end.
-/

set_option autoImplicit false

namespace Foundation

/-- The number that the digits before and after a point stand for. -/
def decimalPlaces (whole frac : List Char) : ℚ :=
  Nat.ofDigitChars 10 whole 0 + Nat.ofDigitChars 10 frac 0 / 10 ^ frac.length

/-- The number that a numeral without a sign stands for. -/
def unsignedDecimal? (cs : List Char) : Option ℚ :=
  match cs.span Char.isDigit with
  | (whole, '.' :: frac) =>
    if whole ≠ [] ∧ frac ≠ [] ∧ frac.all Char.isDigit = true then some (decimalPlaces whole frac)
    else none
  | _ => none

/-- The number that a numeral stands for. -/
def decimal? (text : String) : Option ℚ :=
  match text.toList with
  | '-' :: cs => (unsignedDecimal? cs).map fun q => -q
  | cs => unsignedDecimal? cs

variable {whole frac cs : List Char}

/-- A numeral without a sign. -/
theorem unsignedDecimal?_append (hwhole : ∀ c ∈ whole, c.isDigit = true) :
    unsignedDecimal? (whole ++ '.' :: frac) =
      if whole ≠ [] ∧ frac ≠ [] ∧ frac.all Char.isDigit = true then
        some (decimalPlaces whole frac)
      else none := by
  have hspan : (whole ++ '.' :: frac).span Char.isDigit = (whole, '.' :: frac) := by
    rw [List.span_eq_takeWhile_dropWhile, List.takeWhile_append_of_pos hwhole,
      List.dropWhile_append_of_pos hwhole]
    simp [Char.isDigit]
  rw [unsignedDecimal?, hspan]
  rfl

/-! ### Zeros -/

theorem ofDigitChars_append_zeros (cs : List Char) (k : ℕ) :
    Nat.ofDigitChars 10 (cs ++ List.replicate k '0') 0 = Nat.ofDigitChars 10 cs 0 * 10 ^ k := by
  induction k with
  | zero => simp
  | succ k ih =>
    rw [List.replicate_succ', ← List.append_assoc, Nat.ofDigitChars_append, ih]
    simp [Nat.ofDigitChars_eq_foldl, pow_succ]
    ring

theorem ofDigitChars_zeros_append (cs : List Char) (k : ℕ) :
    Nat.ofDigitChars 10 (List.replicate k '0' ++ cs) 0 = Nat.ofDigitChars 10 cs 0 := by
  have hzeros := ofDigitChars_append_zeros [] k
  rw [List.nil_append] at hzeros
  rw [Nat.ofDigitChars_append, hzeros]
  simp

/-- What is left of a list without the zeros at its end. -/
theorem exists_eq_rdropWhile_append (cs : List Char) :
    ∃ k, cs = cs.rdropWhile (· = '0') ++ List.replicate k '0' := by
  induction cs using List.reverseRecOn with
  | nil => exact ⟨0, rfl⟩
  | append_singleton cs c ih =>
    by_cases hc : c = '0'
    · obtain ⟨k, hk⟩ := ih
      refine ⟨k + 1, ?_⟩
      rw [List.rdropWhile_concat_pos _ _ _ (by simpa using hc), List.replicate_succ',
        ← List.append_assoc, ← hk, hc]
    · exact ⟨0, by rw [List.rdropWhile_concat_neg _ _ _ (by simpa using hc)]; simp⟩

/-- **Zeros at the end** of the fraction may be left out. -/
theorem decimalPlaces_rdropWhile (whole frac : List Char) :
    decimalPlaces whole (frac.rdropWhile (· = '0')) = decimalPlaces whole frac := by
  obtain ⟨k, hk⟩ := exists_eq_rdropWhile_append frac
  have hpow : (10 : ℚ) ^ k ≠ 0 := pow_ne_zero k (by norm_num)
  generalize frac.rdropWhile (· = '0') = left at hk
  subst hk
  unfold decimalPlaces
  rw [ofDigitChars_append_zeros, List.length_append, List.length_replicate, pow_add]
  push_cast
  rw [mul_div_mul_right _ _ hpow]

end Foundation
