import Mathlib.Algebra.Group.Int.Defs
import Mathlib.Algebra.Group.Nat.Defs
import Mathlib.Data.Nat.Size
import Mathlib.Tactic.Common

/-!
# Integers as binary floating-point numbers

An integer is rounded to a number of significant bits, to the nearest integer that has so many, and
halfway to the one whose last bit is even. With 53 bits, and with infinity from `2 ^ 1024` on, this
is what becomes of an integer as a number in double precision.

## Main definitions

* `Representable`: the numbers with so many significant bits.
* `roundBits`: rounding.
* `Double`, `Double.ofInt`: the numbers in double precision that integers become.

## Main results

* `roundBits_eq_self_iff`: what is kept by rounding.
* `dist_roundBits_le`: nothing representable is nearer.
* `Double.toInt_ofInt_iff`: what is kept in double precision.
-/

set_option autoImplicit false

namespace Foundation

/-- The number has at most `p` significant bits. -/
def Representable (p n : ℕ) : Prop := ∃ q k, q < 2 ^ p ∧ n = q * 2 ^ k

/-- The unit in the last place of a number with `p` significant bits. -/
def lastPlace (p n : ℕ) : ℕ := 2 ^ (n.size - p)

/-- The number rounded to `p` significant bits, halfway to the even last bit. -/
def roundBits (p n : ℕ) : ℕ :=
  let q := n / lastPlace p n
  let r := n % lastPlace p n
  if 2 * r < lastPlace p n ∨ 2 * r = lastPlace p n ∧ q % 2 = 0 then q * lastPlace p n
  else (q + 1) * lastPlace p n

variable {p n m : ℕ}

theorem lastPlace_pos (p n : ℕ) : 0 < lastPlace p n := Nat.two_pow_pos _

/-- The quotient by the last place has at most `p` bits. -/
theorem div_lastPlace_lt (p n : ℕ) : n / lastPlace p n < 2 ^ p := by
  rw [Nat.div_lt_iff_lt_mul (lastPlace_pos p n), lastPlace, ← Nat.pow_add]
  exact Nat.lt_of_lt_of_le (Nat.lt_size_self n) (Nat.pow_le_pow_right (by omega) (by omega))

/-- A representable number that is not too small is a multiple of the last place. -/
theorem lastPlace_dvd (hp : 0 < p) (hm : Representable p m)
    (hle : lastPlace p n * 2 ^ (p - 1) ≤ m) : lastPlace p n ∣ m := by
  obtain ⟨q, k, hq, rfl⟩ := hm
  have hlt : 2 ^ (n.size - p + (p - 1)) < 2 ^ (p + k) := by
    calc 2 ^ (n.size - p + (p - 1)) = lastPlace p n * 2 ^ (p - 1) := Nat.pow_add ..
      _ ≤ q * 2 ^ k := hle
      _ < 2 ^ p * 2 ^ k := Nat.mul_lt_mul_of_pos_right hq (Nat.two_pow_pos k)
      _ = 2 ^ (p + k) := (Nat.pow_add ..).symm
  have hexp := (Nat.pow_lt_pow_iff_right (by decide)).1 hlt
  have hk : n.size - p ≤ k := by omega
  exact Nat.dvd_trans (Nat.pow_dvd_pow 2 hk) (Nat.dvd_mul_left _ _)

/-- A number with more than `p` bits has its first bit at the place of the `p`th from the last. -/
theorem lastPlace_mul_le (hp : 0 < p) (h : p < n.size) : lastPlace p n * 2 ^ (p - 1) ≤ n := by
  rw [lastPlace, ← Nat.pow_add]
  exact Nat.lt_size.1 (by omega)

theorem lastPlace_eq_one (h : n.size ≤ p) : lastPlace p n = 1 := by
  rw [lastPlace, Nat.sub_eq_zero_of_le h, Nat.pow_zero]

/-- The last place is a whole part of a representable number. -/
theorem mod_lastPlace (hp : 0 < p) (hn : Representable p n) : n % lastPlace p n = 0 := by
  rcases Nat.lt_or_ge p n.size with h | h
  · exact Nat.mod_eq_zero_of_dvd (lastPlace_dvd hp hn (lastPlace_mul_le hp h))
  · rw [lastPlace_eq_one h, Nat.mod_one]

theorem representable_roundBits (hp : 0 < p) (n : ℕ) : Representable p (roundBits p n) := by
  have hdiv := div_lastPlace_lt p n
  rw [roundBits]
  split_ifs
  · exact ⟨_, _, hdiv, rfl⟩
  · rcases Nat.lt_or_eq_of_le (Nat.succ_le_of_lt hdiv) with hlt | heq
    · exact ⟨_, _, hlt, rfl⟩
    · -- the quotient is rounded up to a power of two
      refine ⟨1, p + (n.size - p), Nat.one_lt_two_pow (by omega), ?_⟩
      rw [Nat.succ_eq_add_one] at heq
      rw [heq, lastPlace, ← Nat.pow_add, Nat.one_mul]

/-- **What is kept by rounding**: the numbers with at most `p` significant bits. -/
theorem roundBits_eq_self_iff (hp : 0 < p) : roundBits p n = n ↔ Representable p n := by
  constructor
  · intro h
    exact h ▸ representable_roundBits hp n
  · intro h
    have hmod := mod_lastPlace hp h
    have hpos := lastPlace_pos p n
    rw [roundBits]
    rw [if_pos (.inl (by omega))]
    exact Nat.div_mul_cancel (Nat.dvd_of_mod_eq_zero hmod)

/-- The rounded number is no farther than the multiples of the last place. -/
theorem dist_roundBits_le_of_dvd (hdvd : lastPlace p n ∣ m) :
    ((n : ℤ) - roundBits p n).natAbs ≤ ((n : ℤ) - m).natAbs := by
  obtain ⟨j, rfl⟩ := hdvd
  have hpos := lastPlace_pos p n
  have hn := Nat.div_add_mod n (lastPlace p n)
  have hmod := Nat.mod_lt n hpos
  rw [roundBits]
  generalize hu : lastPlace p n = u at *
  generalize hq : n / u = q at *
  generalize hr : n % u = r at *
  rcases Nat.lt_or_ge q j with hj | hj
  · have hmul : u * (q + 1) ≤ u * j := Nat.mul_le_mul_left u hj
    rw [Nat.mul_succ] at hmul
    have hcomm : (q + 1) * u = u * q + u := by rw [Nat.mul_comm, Nat.mul_succ]
    have hcomm' : q * u = u * q := Nat.mul_comm _ _
    split_ifs <;> omega
  · have hmul : u * j ≤ u * q := Nat.mul_le_mul_left u hj
    have hcomm : (q + 1) * u = u * q + u := by rw [Nat.mul_comm, Nat.mul_succ]
    have hcomm' : q * u = u * q := Nat.mul_comm _ _
    split_ifs <;> omega

/-- **Rounding is to the nearest.** No representable number is nearer. -/
theorem dist_roundBits_le (hp : 0 < p) (hm : Representable p m) :
    ((n : ℤ) - roundBits p n).natAbs ≤ ((n : ℤ) - m).natAbs := by
  rcases Nat.lt_or_ge p n.size with h | h
  · rcases Nat.lt_or_ge m (lastPlace p n * 2 ^ (p - 1)) with hlt | hle
    · -- a smaller number is farther than the power of two between
      have hbound := lastPlace_mul_le hp h
      have hpower := dist_roundBits_le_of_dvd (p := p) (n := n)
        (Nat.dvd_mul_right (lastPlace p n) (2 ^ (p - 1)))
      omega
    · exact dist_roundBits_le_of_dvd (lastPlace_dvd hp hm hle)
  · exact dist_roundBits_le_of_dvd (by rw [lastPlace_eq_one h]; exact Nat.one_dvd m)

theorem le_roundBits (hp : 0 < p) (hm : Representable p m) (h : m ≤ n) : m ≤ roundBits p n := by
  have hdist := dist_roundBits_le (n := n) hp hm
  omega

theorem lt_pow_of_lt_pow (h : n < 2 ^ p) (hle : p ≤ m) : n < 2 ^ m :=
  Nat.lt_of_lt_of_le h (Nat.pow_le_pow_right (by decide) hle)

theorem representable_of_lt (h : n < 2 ^ p) : Representable p n := ⟨n, 0, h, by simp⟩

/-- An odd number with more bits is not representable. -/
theorem not_representable_of_odd (hle : 2 ^ p ≤ n) (hodd : n % 2 = 1) : ¬ Representable p n := by
  rintro ⟨q, k, hq, rfl⟩
  cases k with
  | zero => exact absurd hle (by simpa using hq)
  | succ k =>
    rw [Nat.pow_succ, ← Nat.mul_assoc, Nat.mul_mod_left] at hodd
    cases hodd

/-! ### Double precision -/

/-- The numbers in double precision that integers become. -/
inductive Double
  | finite (n : ℤ)
  | posInfinity
  | negInfinity
  deriving DecidableEq, Repr

namespace Double

/-- The number that is nearest to an integer. -/
def ofInt (n : ℤ) : Double :=
  if roundBits 53 n.natAbs < 2 ^ 1024 then .finite (n.sign * roundBits 53 n.natAbs)
  else if 0 ≤ n then .posInfinity
  else .negInfinity

/-- The number is at least an integer. -/
def atLeast (k : ℤ) : Double → Bool
  | .finite n => k ≤ n
  | .posInfinity => true
  | .negInfinity => false

/-- The number is at most an integer. -/
def atMost (k : ℤ) : Double → Bool
  | .finite n => n ≤ k
  | .posInfinity => false
  | .negInfinity => true

/-- The integer that the number is. -/
def toInt : Double → Option ℤ
  | .finite n => some n
  | .posInfinity | .negInfinity => none

theorem ofInt_of_lt {n : ℤ} (h : n.natAbs < 2 ^ 53) : ofInt n = .finite n := by
  have hround := (roundBits_eq_self_iff (by decide)).2 (representable_of_lt h)
  have hlt : n.natAbs < 2 ^ 1024 := lt_pow_of_lt_pow h (by decide)
  rw [ofInt, hround, if_pos hlt, Int.sign_mul_natAbs]

/-- A number that is not small stays so, with its sign. -/
theorem ofInt_of_ge {n : ℤ} (h : 2 ^ 53 ≤ n) :
    ofInt n = .posInfinity ∨ ∃ v, 2 ^ 53 ≤ v ∧ ofInt n = .finite v := by
  have hround := le_roundBits (n := n.natAbs) (by decide)
    (⟨1, 53, by decide, by decide⟩ : Representable 53 (2 ^ 53)) (by omega)
  rw [ofInt, Int.sign_eq_one_of_pos (by omega)]
  split_ifs with hlt hn
  · exact .inr ⟨_, by omega, rfl⟩
  · exact .inl rfl
  · omega

theorem ofInt_of_le {n : ℤ} (h : n ≤ -2 ^ 53) :
    ofInt n = .negInfinity ∨ ∃ v, v ≤ -2 ^ 53 ∧ ofInt n = .finite v := by
  have hround := le_roundBits (n := n.natAbs) (by decide)
    (⟨1, 53, by decide, by decide⟩ : Representable 53 (2 ^ 53)) (by omega)
  rw [ofInt, Int.sign_eq_neg_one_of_neg (by omega)]
  split_ifs with hlt hn
  · exact .inr ⟨_, by omega, rfl⟩
  · omega
  · exact .inl rfl

/-- A small bound holds of the number if it holds of the integer. -/
theorem atMost_ofInt {k n : ℤ} (hk : k.natAbs < 2 ^ 53) : (ofInt n).atMost k = decide (n ≤ k) := by
  rcases Nat.lt_or_ge n.natAbs (2 ^ 53) with h | h
  · rw [ofInt_of_lt h, atMost]
  · rcases Int.le_total 0 n with hn | hn
    · rcases ofInt_of_ge (show 2 ^ 53 ≤ n by omega) with heq | ⟨v, hv, heq⟩ <;> rw [heq, atMost]
      · exact (decide_eq_false (by omega)).symm
      · exact decide_eq_decide.2 (by omega)
    · rcases ofInt_of_le (show n ≤ -2 ^ 53 by omega) with heq | ⟨v, hv, heq⟩ <;> rw [heq, atMost]
      · exact (decide_eq_true (by omega)).symm
      · exact decide_eq_decide.2 (by omega)

theorem atLeast_ofInt {k n : ℤ} (hk : k.natAbs < 2 ^ 53) :
    (ofInt n).atLeast k = decide (k ≤ n) := by
  rcases Nat.lt_or_ge n.natAbs (2 ^ 53) with h | h
  · rw [ofInt_of_lt h, atLeast]
  · rcases Int.le_total 0 n with hn | hn
    · rcases ofInt_of_ge (show 2 ^ 53 ≤ n by omega) with heq | ⟨v, hv, heq⟩ <;> rw [heq, atLeast]
      · exact (decide_eq_true (by omega)).symm
      · exact decide_eq_decide.2 (by omega)
    · rcases ofInt_of_le (show n ≤ -2 ^ 53 by omega) with heq | ⟨v, hv, heq⟩ <;> rw [heq, atLeast]
      · exact (decide_eq_false (by omega)).symm
      · exact decide_eq_decide.2 (by omega)

/-- **What is kept in double precision**: the numbers with at most 53 significant bits. -/
theorem toInt_ofInt_iff {n : ℤ} (h : n.natAbs < 2 ^ 1024) :
    (ofInt n).toInt = some n ↔ Representable 53 n.natAbs := by
  rw [← roundBits_eq_self_iff (by decide), ofInt]
  constructor
  · intro heq
    split_ifs at heq with hlt hn
    · rw [toInt, Option.some.injEq] at heq
      obtain hneg | rfl | hpos := Int.lt_trichotomy n 0
      · rw [Int.sign_eq_neg_one_of_neg hneg] at heq
        omega
      · exact (roundBits_eq_self_iff (by decide)).2 (representable_of_lt (Nat.two_pow_pos 53))
      · rw [Int.sign_eq_one_of_pos hpos] at heq
        omega
    · cases heq
    · cases heq
  · intro heq
    rw [heq, if_pos h, Int.sign_mul_natAbs, toInt]

end Double

end Foundation
