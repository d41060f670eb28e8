import SorobanPay.Foundation.Decimals
import SorobanPay.Frontend.NativeValues

/-!
# Human-readable amounts

The raw amount of a payment counts units of which ten million are one token. The export of reports
and the export of payments each have a `toHumanAmount` that writes it as a decimal numeral. The one
in `routes/payments.ts` takes the sign off first. The one in `routes/reports.ts` does not, so that
the remainder has a sign of its own.

## Main definitions

* `fracStr`: the digits after the point.
* `reportsToHumanAmount`, `paymentsToHumanAmount`: `toHumanAmount` of the two files.

## Main results

* `decimal?_paymentsToHumanAmount`: the export of payments is exact.
* `toHumanAmount_exact_iff`: when the export of reports is exact too.
-/

set_option autoImplicit false

namespace SorobanPay.HumanAmounts

open Foundation Frontend

/-- `String(fracPart).padStart(7, '0').replace(/0+$/, '') || '0'`. -/
def fracStr (fracPart : ℤ) : List Char :=
  match ((toString fracPart).toList.leftpad 7 '0').rdropWhile (· = '0') with
  | [] => ['0']
  | cs => cs

/-- `toHumanAmount` of `routes/reports.ts`. -/
def reportsToHumanAmount (raw : String) : String :=
  match bigIntOfText raw with
  | some n =>
    let wholePart := n.tdiv 10000000
    let fracPart := n.tmod 10000000
    toString wholePart ++ "." ++ String.ofList (fracStr fracPart)
  | none => raw

/-- `toHumanAmount` of `routes/payments.ts`. -/
def paymentsToHumanAmount (raw : String) : String :=
  match bigIntOfText raw with
  | some n =>
    let isNeg := decide (n < 0)
    let abs := if isNeg then -n else n
    let wholePart := abs.tdiv 10000000
    let fracPart := abs.tmod 10000000
    (if isNeg then "-" else "") ++ toString wholePart ++ "." ++ String.ofList (fracStr fracPart)
  | none => raw

/-- What is no integer is exported as it is. -/
theorem toHumanAmount_of_bigIntOfText_eq_none {raw : String} (h : bigIntOfText raw = none) :
    reportsToHumanAmount raw = raw ∧ paymentsToHumanAmount raw = raw := by
  simp [reportsToHumanAmount, paymentsToHumanAmount, h]

/-! ### The digits after the point -/

theorem fracStr_ne_nil (fracPart : ℤ) : fracStr fracPart ≠ [] := by
  unfold fracStr
  split
  · exact List.cons_ne_nil _ _
  · assumption

/-- Nothing but the zeros at its end is left out of a fraction. -/
theorem mem_fracStr {fracPart : ℤ} {c : Char} (hc : c ≠ '0')
    (h : c ∈ (toString fracPart).toList) : c ∈ fracStr fracPart := by
  have hpadded : c ∈ (toString fracPart).toList.leftpad 7 '0' :=
    List.leftpad_suffix.subset h
  obtain ⟨k, hk⟩ := exists_eq_rdropWhile_append ((toString fracPart).toList.leftpad 7 '0')
  rw [hk, List.mem_append] at hpadded
  have hleft := hpadded.resolve_right fun hzeros => hc (List.eq_of_mem_replicate hzeros)
  unfold fracStr
  split
  case h_1 hnil =>
    rw [hnil] at hleft
    exact absurd hleft (List.not_mem_nil)
  case h_2 => exact hleft

theorem isDigit_of_mem_fracStr {m : ℕ} {c : Char} (h : c ∈ fracStr m) : c.isDigit = true := by
  have hpadded : ∀ c ∈ (toString (m : ℤ)).toList.leftpad 7 '0', c.isDigit = true := by
    intro c hc
    rcases List.mem_append.1 hc with hc | hc
    · rw [List.eq_of_mem_replicate hc]
      decide
    · have htext : (toString (m : ℤ)).toList = Nat.toDigits 10 m := Nat.toList_repr
      rw [htext] at hc
      exact Nat.isDigit_of_mem_toDigits (by decide) (by decide) hc
  unfold fracStr at h
  split at h
  · simp only [List.mem_singleton] at h
    rw [h]
    decide
  · exact hpadded c ((List.rdropWhile_prefix _ _).subset h)

/-- A fraction of less than one token keeps its value. -/
theorem decimalPlaces_fracStr (whole : List Char) {m : ℕ} (hm : m < 10 ^ 7) :
    decimalPlaces whole (fracStr m) = Nat.ofDigitChars 10 whole 0 + (m : ℚ) / 10 ^ 7 := by
  have htext : (toString (m : ℤ)).toList = Nat.toDigits 10 m := Nat.toList_repr
  have hlength : (Nat.toDigits 10 m).length ≤ 7 :=
    (Nat.length_toDigits_le_iff (by decide) (by decide)).2 hm
  have hpadded : decimalPlaces whole ((Nat.toDigits 10 m).leftpad 7 '0') =
      Nat.ofDigitChars 10 whole 0 + (m : ℚ) / 10 ^ 7 := by
    rw [decimalPlaces, List.length_leftpad, max_eq_left hlength, List.leftpad,
      ofDigitChars_zeros_append, Nat.ofDigitChars_ten_toDigits]
  rw [← hpadded, ← decimalPlaces_rdropWhile _ ((Nat.toDigits 10 m).leftpad 7 '0'), fracStr, htext]
  split
  case h_1 hnil =>
    rw [hnil]
    simp [decimalPlaces, Nat.ofDigitChars_eq_foldl]
  case h_2 => rfl

/-! ### Amounts -/

/-- The numeral of an amount without a sign. -/
def unsignedAmount (m : ℕ) : List Char :=
  Nat.toDigits 10 (m / 10 ^ 7) ++ '.' :: fracStr ((m % 10 ^ 7 : ℕ) : ℤ)

theorem unsignedDecimal?_unsignedAmount (m : ℕ) :
    unsignedDecimal? (unsignedAmount m) = some ((m : ℚ) / 10 ^ 7) := by
  have hparts : ((m / 10 ^ 7 : ℕ) : ℚ) + ((m % 10 ^ 7 : ℕ) : ℚ) / 10 ^ 7 = (m : ℚ) / 10 ^ 7 := by
    have hdiv : ((m % 10 ^ 7 + 10 ^ 7 * (m / 10 ^ 7) : ℕ) : ℚ) = m := by rw [Nat.mod_add_div]
    rw [← hdiv]
    push_cast
    field_simp
    ring
  rw [unsignedAmount, unsignedDecimal?_append fun c hc =>
      Nat.isDigit_of_mem_toDigits (by decide) (by decide) hc,
    if_pos ⟨Nat.toDigits_ne_nil, fracStr_ne_nil _,
      List.all_eq_true.2 fun c hc => isDigit_of_mem_fracStr hc⟩,
    decimalPlaces_fracStr _ (Nat.mod_lt _ (by decide)), Nat.ofDigitChars_ten_toDigits, hparts]

/-- The first character of an amount without a sign is no sign. -/
theorem decimal?_of_toList_eq {text : String} {m : ℕ} (h : text.toList = unsignedAmount m) :
    decimal? text = some ((m : ℚ) / 10 ^ 7) := by
  have hfirst : ∀ cs, unsignedAmount m ≠ '-' :: cs := by
    intro cs hcs
    obtain ⟨c, rest, hdigits⟩ : ∃ c rest, Nat.toDigits 10 (m / 10 ^ 7) = c :: rest :=
      List.exists_cons_of_ne_nil Nat.toDigits_ne_nil
    have hc : c.isDigit = true :=
      Nat.isDigit_of_mem_toDigits (by decide) (by decide) (hdigits ▸ List.mem_cons_self)
    rw [unsignedAmount, hdigits, List.cons_append, List.cons.injEq] at hcs
    rw [hcs.1] at hc
    exact absurd hc (by decide)
  rw [decimal?, h, ← unsignedDecimal?_unsignedAmount]
  split
  · rename_i cs hcs
    exact absurd hcs (hfirst cs)
  · rfl

theorem decimal?_of_toList_eq_neg {text : String} {m : ℕ}
    (h : text.toList = '-' :: unsignedAmount m) : decimal? text = some (-((m : ℚ) / 10 ^ 7)) := by
  simp only [decimal?, h, unsignedDecimal?_unsignedAmount, Option.map_some]

theorem toList_toString_natCast (m : ℕ) : (toString (m : ℤ)).toList = Nat.toDigits 10 m :=
  Nat.toList_repr

theorem toList_toString_neg {m : ℕ} (hm : 0 < m) :
    (toString (-(m : ℤ))).toList = '-' :: Nat.toDigits 10 m := by
  obtain ⟨k, rfl⟩ := Nat.exists_eq_succ_of_ne_zero hm.ne'
  rw [show toString (-((k + 1 : ℕ) : ℤ)) = "-" ++ (k + 1).repr from rfl, String.toList_append,
    Nat.toList_repr]
  rfl

/-- The export of payments writes the sign, and then the amount without it. -/
theorem toList_paymentsToHumanAmount (n : ℤ) :
    (paymentsToHumanAmount (toString n)).toList =
      (if n < 0 then ['-'] else []) ++ unsignedAmount n.natAbs := by
  have habs : (if n < 0 then -n else n) = (n.natAbs : ℤ) := by
    split_ifs <;> omega
  have hdiv : (n.natAbs : ℤ).tdiv 10000000 = ((n.natAbs / 10 ^ 7 : ℕ) : ℤ) := rfl
  have hmod : (n.natAbs : ℤ).tmod 10000000 = ((n.natAbs % 10 ^ 7 : ℕ) : ℤ) := rfl
  simp only [paymentsToHumanAmount, bigIntOfText_toString, decide_eq_true_eq, habs, hdiv, hmod,
    String.toList_append, String.toList_ofList, toList_toString_natCast, unsignedAmount]
  split_ifs <;> simp

/-- **The export of payments is exact.** -/
theorem decimal?_paymentsToHumanAmount (n : ℤ) :
    decimal? (paymentsToHumanAmount (toString n)) = some ((n : ℚ) / 10 ^ 7) := by
  have htext := toList_paymentsToHumanAmount n
  by_cases hn : n < 0
  · have hcast : ((n.natAbs : ℕ) : ℚ) = -(n : ℚ) := by
      rw [Nat.cast_natAbs, abs_of_neg hn, Int.cast_neg]
    rw [if_pos hn] at htext
    rw [decimal?_of_toList_eq_neg htext, hcast, neg_div, neg_neg]
  · have hcast : ((n.natAbs : ℕ) : ℚ) = (n : ℚ) := by
      rw [Nat.cast_natAbs, abs_of_nonneg (not_lt.1 hn)]
    rw [if_neg hn] at htext
    rw [decimal?_of_toList_eq htext, hcast]

/-- Without a sign in the remainder, the export of reports writes what the export of payments
does. -/
theorem reportsToHumanAmount_eq {n : ℤ} (h : 0 ≤ n ∨ (10 ^ 7 : ℤ) ∣ n) :
    reportsToHumanAmount (toString n) = paymentsToHumanAmount (toString n) := by
  by_cases hn : n < 0
  · obtain ⟨k, rfl⟩ := h.resolve_left (not_le.2 hn)
    obtain ⟨j, rfl⟩ : ∃ j : ℕ, k = -(j : ℤ) := ⟨k.natAbs, by omega⟩
    have hj : 0 < j := by omega
    refine String.toList_injective ?_
    rw [toList_paymentsToHumanAmount, if_pos hn]
    have hdiv : ((10 : ℤ) ^ 7 * -(j : ℤ)).tdiv 10000000 = -(j : ℤ) :=
      Int.mul_tdiv_cancel_left _ (by decide)
    have hmod : ((10 : ℤ) ^ 7 * -(j : ℤ)).tmod 10000000 = ((0 : ℕ) : ℤ) :=
      Int.mul_tmod_right _ _
    have hnat : ((10 : ℤ) ^ 7 * -(j : ℤ)).natAbs = 10 ^ 7 * j := by omega
    simp only [reportsToHumanAmount, bigIntOfText_toString, hdiv, hmod, String.toList_append,
      toList_toString_neg hj, String.toList_ofList, hnat, unsignedAmount,
      Nat.mul_div_cancel_left j (show 0 < 10 ^ 7 by decide), Nat.mul_mod_right]
    simp
  · simp only [reportsToHumanAmount, paymentsToHumanAmount, bigIntOfText_toString, hn, decide_false,
      Bool.false_eq_true, if_false, String.empty_append]

/-- A remainder with a sign makes no numeral. -/
theorem decimal?_reportsToHumanAmount_of_neg {n : ℤ} (hn : n < 0) (hdvd : ¬(10 ^ 7 : ℤ) ∣ n) :
    decimal? (reportsToHumanAmount (toString n)) = none := by
  have hmod : n.tmod 10000000 < 0 := by
    have hle : n.tmod 10000000 ≤ 0 := by
      have := Int.tmod_nonneg 10000000 (show 0 ≤ -n by omega)
      rw [Int.neg_tmod] at this
      omega
    exact lt_of_le_of_ne hle fun h => hdvd (Int.dvd_of_tmod_eq_zero h)
  have hsign : '-' ∈ fracStr (n.tmod 10000000) := by
    obtain ⟨j, hj⟩ : ∃ j : ℕ, n.tmod 10000000 = -(j : ℤ) := ⟨(n.tmod 10000000).natAbs, by omega⟩
    refine mem_fracStr (by decide) ?_
    rw [hj, toList_toString_neg (by omega)]
    exact List.mem_cons_self
  have hnone : ∀ whole : List Char, (∀ c ∈ whole, c.isDigit = true) →
      unsignedDecimal? (whole ++ '.' :: fracStr (n.tmod 10000000)) = none := by
    intro whole hwhole
    rw [unsignedDecimal?_append hwhole, if_neg]
    rintro ⟨-, -, hdigits⟩
    exact absurd (List.all_eq_true.1 hdigits '-' hsign) (by decide)
  obtain ⟨j, hj⟩ : ∃ j : ℕ, n.tdiv 10000000 = -(j : ℤ) := by
    refine ⟨(n.tdiv 10000000).natAbs, ?_⟩
    have := Int.tdiv_nonneg (show 0 ≤ -n by omega) (show (0 : ℤ) ≤ 10000000 by decide)
    rw [Int.neg_tdiv] at this
    omega
  have hdigits : ∀ c ∈ Nat.toDigits 10 j, c.isDigit = true := fun c hc =>
    Nat.isDigit_of_mem_toDigits (by decide) (by decide) hc
  simp only [decimal?, reportsToHumanAmount, bigIntOfText_toString, hj, String.toList_append,
    String.toList_ofList]
  rcases Nat.eq_zero_or_pos j with rfl | hpos
  · exact hnone ['0'] (List.forall_mem_singleton.2 rfl)
  · rw [toList_toString_neg hpos]
    change (unsignedDecimal? ((Nat.toDigits 10 j ++ ['.']) ++ _)).map _ = none
    rw [List.append_assoc, List.singleton_append, hnone _ hdigits]
    rfl

/-- **Exported amounts** are the exact numerals of the raw ones, the same in both exports, unless
the amount is negative and no whole number of tokens. -/
theorem toHumanAmount_exact_iff (n : ℤ) :
    (decimal? (reportsToHumanAmount (toString n)) = some ((n : ℚ) / 10 ^ 7) ∧
        decimal? (paymentsToHumanAmount (toString n)) = some ((n : ℚ) / 10 ^ 7) ∧
        reportsToHumanAmount (toString n) = paymentsToHumanAmount (toString n)) ↔
      0 ≤ n ∨ (10 ^ 7 : ℤ) ∣ n := by
  refine ⟨fun ⟨hreports, _, _⟩ => ?_, fun h => ?_⟩
  · by_contra hnot
    rw [not_or, not_le] at hnot
    rw [decimal?_reportsToHumanAmount_of_neg hnot.1 hnot.2] at hreports
    exact absurd hreports (by simp)
  · have heq := reportsToHumanAmount_eq h
    exact ⟨heq ▸ decimal?_paymentsToHumanAmount n, decimal?_paymentsToHumanAmount n, heq⟩

/-- One and a half tokens below zero. -/
theorem reportsToHumanAmount_neg_one_and_a_half :
    reportsToHumanAmount (toString (-15000000 : ℤ)) = "-1.-5" ∧
      paymentsToHumanAmount (toString (-15000000 : ℤ)) = "-1.5" ∧
      decimal? (reportsToHumanAmount (toString (-15000000 : ℤ))) ≠
        some (((-15000000 : ℤ) : ℚ) / 10 ^ 7) := by
  refine ⟨by decide, by decide, ?_⟩
  rw [decimal?_reportsToHumanAmount_of_neg (by decide) (by decide)]
  simp

end SorobanPay.HumanAmounts
