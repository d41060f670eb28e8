import SorobanPay.Foundation.Decimals
import SorobanPay.Frontend.NativeValues

/-!
# Token amounts as text

`lib/token_decimals.ts` shows a raw amount with the decimals of its token and reads it back from
what a user types. `formatTokenAmount` divides by a power of ten, pads the remainder and may cut
off zeros at the end. `parseTokenAmount` splits at the point, with `"0"` for a part that is missing.

## Main definitions

* `formatTokenAmount`, `parseTokenAmount`: the two directions.
* `IsNumeral`: a decimal numeral.
* `RoundTrips`, `ParsesRight`: what the two are for.

## Main results

* `trimTrailingZeros_append`: what is left of a fraction.
* `parsesRight_iff`: when a text is read right.
* `tokenAmounts_iff`: when amounts survive.
-/

set_option autoImplicit false

namespace SorobanPay.TokenDecimals

open Foundation WebhookNotifier Frontend

/-! ### Formatting and parsing -/

/-- `getDecimalMultiplier`. -/
def getDecimalMultiplier (decimals : ℤ) : ℤ := 10 ^ decimals.toNat

/-- The options of `formatTokenAmount`. -/
structure DisplayOptions where
  padZeros : Bool := true
  trimTrailing : Bool := false

/-- A match of `\.?0+$` begins here. -/
def endsInZeros : List Char → Bool
  | [] => false
  | '.' :: cs => cs ≠ [] && cs.all (· = '0')
  | cs => cs.all (· = '0')

/-- `replace(/\.?0+$/, "")`, which removes the first match. -/
def trimTrailingZeros : List Char → List Char
  | [] => []
  | c :: cs => if endsInZeros (c :: cs) then [] else c :: trimTrailingZeros cs

/-- `formatTokenAmount`. -/
def formatTokenAmount (amount decimals : ℤ) (options : DisplayOptions) : Except String String :=
  if decimals < 0 then .error ("Invalid decimals: " ++ toString decimals)
  else if decimals = 0 then .ok (toString amount)
  else
    let multiplier := getDecimalMultiplier decimals
    let whole := amount.tdiv multiplier
    let frac := amount.tmod multiplier
    let fracStr := (toString frac).toList.leftpad decimals.toNat '0'
    let result := (toString whole).toList ++ '.' :: fracStr
    .ok (String.ofList (if options.trimTrailing then trimTrailingZeros result else result))

/-- `/^[0-9]*\.?[0-9]*$/`. -/
def isAmountText (cs : List Char) : Bool :=
  match cs.dropWhile Char.isDigit with
  | [] => true
  | '.' :: frac => frac.all Char.isDigit
  | _ => false

/-- `[wholeStr = "0", fracStr = "0"] = trimmed.split(".")`. -/
def splitAmount (cs : List Char) : List Char × List Char :=
  match cs.splitOn '.' with
  | [] => (['0'], ['0'])
  | [wholeStr] => (wholeStr, ['0'])
  | wholeStr :: fracStr :: _ => (wholeStr, fracStr)

/-- `parseTokenAmount`. -/
def parseTokenAmount (amountStr : String) (decimals : ℤ) : Option ℤ :=
  let trimmed := trim amountStr.toList
  if trimmed = [] ∨ isAmountText trimmed = false then none
  else
    let (wholeStr, fracStr) := splitAmount trimmed
    if decimals < (fracStr.length : ℤ) then none
    else do
      let whole ← bigIntOfText (String.ofList (if wholeStr = [] then ['0'] else wholeStr))
      let fracPadded := fracStr.rightpad decimals.toNat '0'
      let frac ← bigIntOfText (String.ofList fracPadded)
      return whole * getDecimalMultiplier decimals + frac

/-! ### Numerals -/

/-- The text is a decimal numeral with these digits before and after the point. The point may be
left out if no digit comes after it. -/
structure IsNumeral (text whole frac : List Char) : Prop where
  wholeDigits : ∀ c ∈ whole, c.isDigit = true
  fracDigits : ∀ c ∈ frac, c.isDigit = true
  digit : whole ≠ [] ∨ frac ≠ []
  shape : text = whole ++ '.' :: frac ∨ (text = whole ∧ frac = [])

/-- A text is read as a number if it is a numeral with no more digits after the point than the
token has, and the number is its value. -/
def ParsesRight (text : String) (d : ℕ) : Prop :=
  (parseTokenAmount text d ≠ none ↔
      ∃ whole frac, IsNumeral (trim text.toList) whole frac ∧ frac.length ≤ d) ∧
    ∀ whole frac, IsNumeral (trim text.toList) whole frac → frac.length ≤ d →
      ∀ n, parseTokenAmount text d = some n → (n : ℚ) = decimalPlaces whole frac * 10 ^ d

/-- The amount is read back from its text. -/
def RoundTrips (n d : ℕ) (options : DisplayOptions) : Prop :=
  ∃ text, formatTokenAmount n d options = .ok text ∧ parseTokenAmount text d = some (n : ℤ)

variable {whole frac cs : List Char} {text : String} {d n : ℕ}

theorem notMem_of_isDigit (h : ∀ c ∈ cs, c.isDigit = true) : '.' ∉ cs :=
  fun hc => absurd (h '.' hc) (by decide)

theorem IsNumeral.of_digits (h : ∀ c ∈ cs, c.isDigit = true) (hcs : cs ≠ []) :
    IsNumeral cs cs [] :=
  ⟨h, List.forall_mem_nil _, .inl hcs, .inr ⟨rfl, rfl⟩⟩

/-- A numeral of digits has nothing after the point. -/
theorem IsNumeral.eq_of_digits (h : ∀ c ∈ cs, c.isDigit = true) (hcs : IsNumeral cs whole frac) :
    whole = cs ∧ frac = [] := by
  rcases hcs.shape with htext | ⟨htext, hfrac⟩
  · exact absurd (by rw [htext]; simp) (notMem_of_isDigit h)
  · exact ⟨htext.symm, hfrac⟩

/-- The parts of a numeral are what stands before and after its point. -/
theorem IsNumeral.eq_of_point {whole' frac' : List Char}
    (hwhole : ∀ c ∈ whole', c.isDigit = true) (hfrac : ∀ c ∈ frac', c.isDigit = true)
    (h : IsNumeral (whole' ++ '.' :: frac') whole frac) : whole = whole' ∧ frac = frac' := by
  rcases h.shape with htext | ⟨htext, -⟩
  · have hsplit := congrArg (List.splitOn '.') htext
    rw [List.splitOn_append_cons_self_of_not_mem (notMem_of_isDigit hwhole),
      List.splitOn_append_cons_self_of_not_mem (notMem_of_isDigit h.wholeDigits),
      List.splitOn_eq_singleton (notMem_of_isDigit hfrac),
      List.splitOn_eq_singleton (notMem_of_isDigit h.fracDigits)] at hsplit
    simp only [List.cons.injEq, and_true] at hsplit
    exact ⟨hsplit.1.symm, hsplit.2.symm⟩
  · exact absurd (by simp [← htext]) (notMem_of_isDigit h.wholeDigits)

/-! ### What is parsed -/

/-- What the form of an amount allows. -/
theorem isAmountText_iff :
    isAmountText cs = true ↔ (∀ c ∈ cs, c.isDigit = true) ∨
      ∃ whole frac, cs = whole ++ '.' :: frac ∧ (∀ c ∈ whole, c.isDigit = true) ∧
        ∀ c ∈ frac, c.isDigit = true := by
  constructor
  · intro h
    have hsplit := List.takeWhile_append_dropWhile (p := Char.isDigit) (l := cs)
    have hwhole : ∀ c ∈ cs.takeWhile Char.isDigit, c.isDigit = true := fun c hc =>
      List.all_eq_true.1 List.all_takeWhile c hc
    unfold isAmountText at h
    split at h
    · rename_i hnil
      rw [hnil, List.append_nil] at hsplit
      exact .inl (hsplit ▸ hwhole)
    · rename_i frac hpoint
      rw [hpoint] at hsplit
      exact .inr ⟨_, frac, hsplit.symm, hwhole, List.all_eq_true.1 h⟩
    · exact absurd h Bool.false_ne_true
  · rintro (h | ⟨whole, frac, rfl, hwhole, hfrac⟩)
    · rw [isAmountText, List.dropWhile_eq_nil_iff.2 h]
    · have hdrop : (whole ++ '.' :: frac).dropWhile Char.isDigit = '.' :: frac := by
        rw [List.dropWhile_append_of_pos hwhole]
        simp [Char.isDigit]
      rw [isAmountText, hdrop]
      exact List.all_eq_true.2 hfrac

/-- `BigInt` of digits, of which there may be none. -/
theorem bigIntOfText_of_isDigit (h : ∀ c ∈ cs, c.isDigit = true) :
    bigIntOfText (String.ofList cs) = some (Nat.ofDigitChars 10 cs 0 : ℤ) := by
  rw [bigIntOfText, String.toList_ofList, trim_eq_self fun c hc => isTrimmed_of_isDigit (h c hc)]
  rcases eq_or_ne cs [] with rfl | hcs
  · rfl
  · exact bigIntOfChars_of_isDigit hcs h

variable (hwhole : ∀ c ∈ whole, c.isDigit = true) (hfrac : ∀ c ∈ frac, c.isDigit = true)

include hwhole in
/-- A text without a point has the fraction `"0"`. -/
theorem parseTokenAmount_whole (htext : trim text.toList = whole) (hne : whole ≠ []) :
    parseTokenAmount text d =
      if d = 0 then none else some (Nat.ofDigitChars 10 whole 0 * 10 ^ d : ℤ) := by
  have hform : isAmountText whole = true := isAmountText_iff.2 (.inl hwhole)
  have hsplit : splitAmount whole = (whole, ['0']) := by
    rw [splitAmount, List.splitOn_eq_singleton (notMem_of_isDigit hwhole)]
  have hzeros : ∀ c ∈ ['0'].rightpad d '0', c.isDigit = true := by
    intro c hc
    have hzero : c = '0' := by
      rcases List.mem_append.1 hc with hc | hc
      · exact List.mem_singleton.1 hc
      · exact List.eq_of_mem_replicate hc
    rw [hzero]
    decide
  have hvalue : Nat.ofDigitChars 10 (['0'].rightpad d '0') 0 = 0 := by
    rw [List.rightpad, ofDigitChars_append_zeros]
    simp [Nat.ofDigitChars_eq_foldl]
  simp only [parseTokenAmount, htext, hform, hsplit, hne, if_false, Bool.true_eq_false, or_self,
    List.length_singleton, bigIntOfText_of_isDigit hwhole, Int.toNat_natCast,
    bigIntOfText_of_isDigit hzeros, hvalue, getDecimalMultiplier, Nat.cast_lt, Nat.lt_one_iff,
    Option.bind_eq_bind, Option.bind_some, Option.pure_def, Nat.cast_zero, add_zero]

include hwhole hfrac in
/-- A text with a point is split there. -/
theorem parseTokenAmount_point (htext : trim text.toList = whole ++ '.' :: frac) :
    parseTokenAmount text d = if d < frac.length then none
      else some (Nat.ofDigitChars 10 whole 0 * 10 ^ d +
        Nat.ofDigitChars 10 frac 0 * 10 ^ (d - frac.length) : ℤ) := by
  have hform : isAmountText (whole ++ '.' :: frac) = true :=
    isAmountText_iff.2 (.inr ⟨whole, frac, rfl, hwhole, hfrac⟩)
  have hsplit : splitAmount (whole ++ '.' :: frac) = (whole, frac) := by
    rw [splitAmount, List.splitOn_append_cons_self_of_not_mem (notMem_of_isDigit hwhole),
      List.splitOn_eq_singleton (notMem_of_isDigit hfrac)]
  have hpadded : ∀ c ∈ frac.rightpad d '0', c.isDigit = true := by
    intro c hc
    rcases List.mem_append.1 hc with hc | hc
    · exact hfrac c hc
    · rw [List.eq_of_mem_replicate hc]
      decide
  -- without a digit before the point, the whole part is `"0"`
  have hdefault : bigIntOfText (String.ofList (if whole = [] then ['0'] else whole)) =
      some (Nat.ofDigitChars 10 whole 0 : ℤ) := by
    split_ifs with hnil
    · rw [hnil]
      rfl
    · exact bigIntOfText_of_isDigit hwhole
  have hne : whole ++ '.' :: frac ≠ [] := by simp
  simp only [parseTokenAmount, htext, hform, hsplit, hne, Bool.true_eq_false, or_self, if_false,
    hdefault, Int.toNat_natCast, bigIntOfText_of_isDigit hpadded, getDecimalMultiplier,
    Nat.cast_lt, Option.bind_eq_bind, Option.bind_some, Option.pure_def]
  rw [List.rightpad, ofDigitChars_append_zeros]
  push_cast
  rfl

/-- Another text is no amount. -/
theorem parseTokenAmount_eq_none
    (h : trim text.toList = [] ∨ isAmountText (trim text.toList) = false) :
    parseTokenAmount text d = none := by
  rw [parseTokenAmount]
  exact if_pos h

/-- The number with these digits, in the smallest unit. -/
theorem decimalPlaces_mul_pow (whole : List Char) (h : frac.length ≤ d) :
    decimalPlaces whole frac * 10 ^ d =
      ((Nat.ofDigitChars 10 whole 0 * 10 ^ d +
        Nat.ofDigitChars 10 frac 0 * 10 ^ (d - frac.length) : ℤ) : ℚ) := by
  have hpow : (10 : ℚ) ^ d = 10 ^ frac.length * 10 ^ (d - frac.length) := by
    rw [← pow_add, Nat.add_sub_cancel' h]
  have hne : (10 : ℚ) ^ frac.length ≠ 0 := pow_ne_zero _ (by norm_num)
  rw [decimalPlaces, add_mul, hpow]
  push_cast
  rw [hpow]
  field_simp

/-! ### When a text is read right -/

include hwhole in
theorem parsesRight_whole (htext : trim text.toList = whole) (hne : whole ≠ []) :
    ParsesRight text d ↔ d ≠ 0 := by
  have hparse := parseTokenAmount_whole (d := d) hwhole htext hne
  have hnumeral : IsNumeral whole whole [] := .of_digits hwhole hne
  rw [ParsesRight, htext, hparse]
  constructor
  · rintro ⟨h, -⟩ rfl
    exact h.2 ⟨whole, [], hnumeral, le_rfl⟩ rfl
  · intro hd
    rw [if_neg hd]
    refine ⟨⟨fun _ => ⟨whole, [], hnumeral, Nat.zero_le d⟩, fun _ => Option.some_ne_none _⟩, ?_⟩
    intro whole' frac' h' hlength n hn
    obtain ⟨rfl, rfl⟩ := h'.eq_of_digits hwhole
    rw [decimalPlaces_mul_pow _ hlength, ← Option.some.inj hn]
    simp [Nat.ofDigitChars_eq_foldl]

include hwhole hfrac in
theorem parsesRight_point (htext : trim text.toList = whole ++ '.' :: frac) :
    ParsesRight text d ↔ whole ≠ [] ∨ frac ≠ [] := by
  have hparse := parseTokenAmount_point (d := d) hwhole hfrac htext
  rw [ParsesRight, htext, hparse]
  constructor
  · rintro ⟨h, -⟩
    by_contra hnot
    rw [not_or, not_not, not_not] at hnot
    obtain ⟨rfl, rfl⟩ := hnot
    obtain ⟨whole', frac', h', -⟩ := h.1 (by simp)
    obtain ⟨rfl, rfl⟩ := h'.eq_of_point hwhole hfrac
    exact h'.digit.elim (fun hne => hne rfl) fun hne => hne rfl
  · intro hdigit
    have hnumeral : IsNumeral (whole ++ '.' :: frac) whole frac :=
      ⟨hwhole, hfrac, hdigit, .inl rfl⟩
    constructor
    · constructor
      · intro hsome
        refine ⟨whole, frac, hnumeral, not_lt.1 fun hlt => ?_⟩
        rw [if_pos hlt] at hsome
        exact hsome rfl
      · rintro ⟨whole', frac', h', hlength⟩
        obtain ⟨rfl, rfl⟩ := h'.eq_of_point hwhole hfrac
        rw [if_neg (not_lt.2 hlength)]
        exact Option.some_ne_none _
    · intro whole' frac' h' hlength n hn
      obtain ⟨rfl, rfl⟩ := h'.eq_of_point hwhole hfrac
      rw [if_neg (not_lt.2 hlength)] at hn
      rw [decimalPlaces_mul_pow _ hlength, ← Option.some.inj hn]

/-- **Texts.** A text is read right unless it is a point alone, or digits alone for a token
without decimals. -/
theorem parsesRight_iff (text : String) (d : ℕ) :
    ParsesRight text d ↔ trim text.toList ≠ ['.'] ∧
      ¬ (d = 0 ∧ trim text.toList ≠ [] ∧ ∀ c ∈ trim text.toList, c.isDigit = true) := by
  by_cases hform : isAmountText (trim text.toList) = true
  · rcases isAmountText_iff.1 hform with hdigits | ⟨whole, frac, htext, hwhole, hfrac⟩
    · have hpoint : trim text.toList ≠ ['.'] := fun h =>
        notMem_of_isDigit hdigits (h ▸ List.mem_singleton_self '.')
      by_cases hnil : trim text.toList = []
      · have hnone : ∀ whole frac, ¬ IsNumeral (trim text.toList) whole frac := by
          intro whole frac h
          obtain ⟨rfl, rfl⟩ := h.eq_of_digits hdigits
          exact h.digit.elim (fun hne => hne hnil) fun hne => hne rfl
        refine iff_of_true ⟨?_, fun whole frac h => absurd h (hnone whole frac)⟩
          ⟨hpoint, fun h => h.2.1 hnil⟩
        rw [parseTokenAmount_eq_none (.inl hnil)]
        exact iff_of_false (fun h => h rfl) fun ⟨whole, frac, h, _⟩ => hnone whole frac h
      · rw [parsesRight_whole hdigits rfl hnil]
        constructor
        · exact fun hd => ⟨hpoint, fun h => hd h.1⟩
        · exact fun h hd => h.2 ⟨hd, hnil, hdigits⟩
    · have hdot : ¬ ∀ c ∈ trim text.toList, c.isDigit = true := fun h =>
        notMem_of_isDigit h (by rw [htext]; simp)
      rw [parsesRight_point hwhole hfrac htext, htext]
      constructor
      · intro hdigit
        refine ⟨fun h => ?_, fun h => hdot (htext ▸ h.2.2)⟩
        rcases whole with _ | ⟨c, whole⟩
        · exact hdigit.elim (fun hne => hne rfl) fun hne => hne (by simpa using h)
        · simp at h
      · rintro ⟨h, -⟩
        by_contra hnot
        rw [not_or, not_not, not_not] at hnot
        exact h (by rw [hnot.1, hnot.2]; rfl)
  · have hnone : ∀ whole frac, ¬ IsNumeral (trim text.toList) whole frac := by
      refine fun whole frac h => hform (isAmountText_iff.2 ?_)
      rcases h.shape with htext | ⟨htext, -⟩
      · exact .inr ⟨whole, frac, htext, h.wholeDigits, h.fracDigits⟩
      · exact .inl (htext ▸ h.wholeDigits)
    rw [Bool.not_eq_true] at hform
    refine iff_of_true ⟨?_, fun whole frac h => absurd h (hnone whole frac)⟩ ⟨?_, ?_⟩
    · rw [parseTokenAmount_eq_none (.inr hform)]
      exact iff_of_false (fun h => h rfl) fun ⟨whole, frac, h, _⟩ => hnone whole frac h
    · intro h
      rw [h] at hform
      exact absurd hform (by decide)
    · rintro ⟨-, -, hdigits⟩
      rw [isAmountText_iff.2 (.inl hdigits)] at hform
      cases hform

/-! ### Zeros at the end -/

theorem rdropWhile_cons (c : Char) (cs : List Char) :
    (c :: cs).rdropWhile (· = '0') =
      if (c :: cs).all (· = '0') then [] else c :: cs.rdropWhile (· = '0') := by
  split_ifs with h
  · exact List.rdropWhile_eq_nil_iff.2 (List.all_eq_true.1 h)
  · rw [List.rdropWhile, List.reverse_cons, List.dropWhile_append]
    by_cases hcs : cs.reverse.dropWhile (· = '0') = []
    · have hc : c ≠ '0' := by
        rintro rfl
        refine h ?_
        have hzeros : ∀ c ∈ cs, decide (c = '0') = true := fun c hc =>
          List.dropWhile_eq_nil_iff.1 hcs c (List.mem_reverse.2 hc)
        exact List.all_eq_true.2 (List.forall_mem_cons.2 ⟨rfl, hzeros⟩)
      rw [hcs, List.isEmpty_nil, if_pos rfl, List.rdropWhile, hcs]
      simp [hc]
    · rw [if_neg (by simpa using hcs), List.reverse_append, List.rdropWhile]
      rfl

variable (cs) in
theorem endsInZeros_cons {c : Char} (hc : c ≠ '.') :
    endsInZeros (c :: cs) = (c :: cs).all (· = '0') := by
  unfold endsInZeros
  split
  · rename_i heq
    cases heq
  · rename_i heq
    exact absurd (List.cons.inj heq).1 hc
  · rfl

/-- Without a point, the zeros at the end are removed. -/
theorem trimTrailingZeros_of_isDigit (h : ∀ c ∈ cs, c.isDigit = true) :
    trimTrailingZeros cs = cs.rdropWhile (· = '0') := by
  induction cs with
  | nil => rfl
  | cons c cs ih =>
    have hc : c ≠ '.' := fun hdot => notMem_of_isDigit h (hdot ▸ List.mem_cons_self)
    have hends := endsInZeros_cons cs hc
    rw [trimTrailingZeros, hends, ih fun c hc => h c (List.mem_cons_of_mem _ hc), rdropWhile_cons]

include hwhole hfrac in
/-- The point is removed with the zeros if no other digit comes after it. -/
theorem trimTrailingZeros_append (hne : frac ≠ []) :
    trimTrailingZeros (whole ++ '.' :: frac) = whole ++
      if frac.rdropWhile (· = '0') = [] then [] else '.' :: frac.rdropWhile (· = '0') := by
  induction whole with
  | nil =>
    have hends : endsInZeros ('.' :: frac) = decide (frac.rdropWhile (· = '0') = []) := by
      rw [endsInZeros, decide_eq_true hne, Bool.true_and, Bool.eq_iff_iff, List.all_eq_true,
        decide_eq_true_iff, List.rdropWhile_eq_nil_iff]
    rw [List.nil_append, List.nil_append, trimTrailingZeros, hends,
      trimTrailingZeros_of_isDigit hfrac]
    simp only [decide_eq_true_iff]
  | cons c whole ih =>
    have hc : c ≠ '.' := fun hdot => notMem_of_isDigit hwhole (hdot ▸ List.mem_cons_self)
    have hends : endsInZeros (c :: (whole ++ '.' :: frac)) = false := by
      rw [endsInZeros_cons _ hc]
      simp
    rw [List.cons_append, trimTrailingZeros, hends, if_neg Bool.false_ne_true,
      ih fun c hc => hwhole c (List.mem_cons_of_mem _ hc), List.cons_append]

/-! ### The round trip -/

/-- The digits before the point. -/
def wholeText (n d : ℕ) : List Char := Nat.toDigits 10 (n / 10 ^ d)

/-- The digits after the point. -/
def fracText (n d : ℕ) : List Char := (Nat.toDigits 10 (n % 10 ^ d)).leftpad d '0'

theorem isDigit_wholeText {c : Char} (h : c ∈ wholeText n d) : c.isDigit = true :=
  Nat.isDigit_of_mem_toDigits (by decide) (by decide) h

theorem isDigit_fracText {c : Char} (h : c ∈ fracText n d) : c.isDigit = true := by
  rcases List.mem_append.1 h with hc | hc
  · rw [List.eq_of_mem_replicate hc]
    decide
  · exact Nat.isDigit_of_mem_toDigits (by decide) (by decide) hc

theorem length_fracText (hd : d ≠ 0) : (fracText n d).length = d := by
  have hlength : (Nat.toDigits 10 (n % 10 ^ d)).length ≤ d :=
    (Nat.length_toDigits_le_iff (by decide) (Nat.pos_of_ne_zero hd)).2
      (Nat.mod_lt _ (pow_pos (by decide) d))
  rw [fracText, List.length_leftpad, max_eq_left hlength]

/-- The digits stand for the amount. -/
theorem decimalPlaces_text (hd : d ≠ 0) :
    decimalPlaces (wholeText n d) (fracText n d) * 10 ^ d = n := by
  have hparts : 10 ^ d * (n / 10 ^ d) + n % 10 ^ d = n := Nat.div_add_mod n (10 ^ d)
  have hpow : (10 : ℚ) ^ d ≠ 0 := pow_ne_zero d (by norm_num)
  rw [decimalPlaces, length_fracText hd, fracText, List.leftpad, ofDigitChars_zeros_append,
    wholeText, Nat.ofDigitChars_ten_toDigits, Nat.ofDigitChars_ten_toDigits, add_mul,
    div_mul_cancel₀ _ hpow, mul_comm]
  exact_mod_cast hparts

/-- What is formatted. -/
theorem formatTokenAmount_natCast (hd : d ≠ 0) (options : DisplayOptions) :
    formatTokenAmount n d options = .ok (String.ofList
      (if options.trimTrailing then trimTrailingZeros (wholeText n d ++ '.' :: fracText n d)
        else wholeText n d ++ '.' :: fracText n d)) := by
  have hmultiplier : getDecimalMultiplier d = ((10 ^ d : ℕ) : ℤ) := by
    rw [getDecimalMultiplier, Int.toNat_natCast]
    push_cast
    rfl
  have hwholeText : (toString ((n : ℤ).tdiv (10 ^ d : ℕ))).toList = wholeText n d := Nat.toList_repr
  have hfracText : (toString ((n : ℤ).tmod (10 ^ d : ℕ))).toList.leftpad d '0' = fracText n d :=
    congrArg (List.leftpad d '0') Nat.toList_repr
  rw [formatTokenAmount, if_neg (not_lt.2 (Int.natCast_nonneg d)),
    if_neg (Int.natCast_ne_zero.2 hd)]
  simp only [hmultiplier, hwholeText, Int.toNat_natCast, hfracText]

/-- With or without its zeros at the end, the text is a numeral for the same number. -/
theorem exists_isNumeral (hd : d ≠ 0) (options : DisplayOptions) :
    ∃ text frac, formatTokenAmount n d options = .ok text ∧ trim text.toList = text.toList ∧
      IsNumeral text.toList (wholeText n d) frac ∧ frac.length ≤ d ∧
      decimalPlaces (wholeText n d) frac * 10 ^ d = n := by
  have hwhole : ∀ c ∈ wholeText n d, c.isDigit = true := fun c => isDigit_wholeText
  have hfrac : ∀ c ∈ fracText n d, c.isDigit = true := fun c => isDigit_fracText
  have hne : fracText n d ≠ [] := by
    refine List.ne_nil_of_length_pos ?_
    rw [length_fracText hd]
    exact Nat.pos_of_ne_zero hd
  have hblank : ∀ {cs frac : List Char}, IsNumeral cs (wholeText n d) frac → trim cs = cs := by
    refine fun {cs frac} h => trim_eq_self fun c hc => ?_
    rcases h.shape with rfl | ⟨rfl, -⟩
    · rcases List.mem_append.1 hc with hc | hc
      · exact isTrimmed_of_isDigit (hwhole c hc)
      · rcases List.mem_cons.1 hc with rfl | hc
        · decide
        · exact isTrimmed_of_isDigit (h.fracDigits c hc)
    · exact isTrimmed_of_isDigit (hwhole c hc)
  rw [formatTokenAmount_natCast hd]
  rcases options with ⟨padZeros, _ | _⟩
  · have hnumeral : IsNumeral (wholeText n d ++ '.' :: fracText n d) (wholeText n d)
        (fracText n d) := ⟨hwhole, hfrac, .inl Nat.toDigits_ne_nil, .inl rfl⟩
    exact ⟨_, fracText n d, rfl, by simpa using hblank hnumeral, by simpa using hnumeral,
      (length_fracText hd).le, decimalPlaces_text hd⟩
  · have hleft : ∀ c ∈ (fracText n d).rdropWhile (· = '0'), c.isDigit = true := fun c hc =>
      hfrac c ((List.rdropWhile_prefix _ _).subset hc)
    have hnumeral : IsNumeral (trimTrailingZeros (wholeText n d ++ '.' :: fracText n d))
        (wholeText n d) ((fracText n d).rdropWhile (· = '0')) := by
      refine ⟨hwhole, hleft, .inl Nat.toDigits_ne_nil, ?_⟩
      rw [trimTrailingZeros_append hwhole hfrac hne]
      split_ifs with hnil
      · exact .inr ⟨List.append_nil _, hnil⟩
      · exact .inl rfl
    refine ⟨_, (fracText n d).rdropWhile (· = '0'), rfl, by simpa using hblank hnumeral,
      by simpa using hnumeral, ?_, ?_⟩
    · exact ((List.rdropWhile_prefix _ _).length_le).trans (length_fracText hd).le
    · rw [decimalPlaces_rdropWhile, decimalPlaces_text hd]

/-- **Amounts.** An amount is read back from its text if the token has decimals. -/
theorem roundTrips_iff (n d : ℕ) (options : DisplayOptions) : RoundTrips n d options ↔ d ≠ 0 := by
  constructor
  · rintro ⟨text, hformat, hparse⟩ rfl
    obtain rfl : toString (n : ℤ) = text := Except.ok.inj hformat
    have hdigits : ∀ c ∈ Nat.toDigits 10 n, c.isDigit = true := fun c hc =>
      Nat.isDigit_of_mem_toDigits (by decide) (by decide) hc
    have htext : trim (toString (n : ℤ)).toList = Nat.toDigits 10 n := by
      rw [show (toString (n : ℤ)).toList = Nat.toDigits 10 n from Nat.toList_repr]
      exact trim_eq_self fun c hc => isTrimmed_of_isDigit (hdigits c hc)
    rw [parseTokenAmount_whole hdigits htext Nat.toDigits_ne_nil, if_pos rfl] at hparse
    cases hparse
  · intro hd
    obtain ⟨text, frac, hformat, htrim, hnumeral, hlength, hvalue⟩ :=
      exists_isNumeral (n := n) hd options
    rw [← htrim] at hnumeral
    have hright : ParsesRight text d := by
      refine (parsesRight_iff text d).2 ⟨fun hpoint => ?_, fun h => hd h.1⟩
      obtain ⟨c, whole, hwhole⟩ : ∃ c whole, wholeText n d = c :: whole :=
        List.exists_cons_of_ne_nil Nat.toDigits_ne_nil
      -- a point alone has no digit before it
      rw [hpoint] at hnumeral
      rcases hnumeral.shape with h | ⟨h, -⟩
      · rw [hwhole] at h
        simp at h
      · exact notMem_of_isDigit hnumeral.wholeDigits (h ▸ List.mem_singleton_self '.')
    obtain ⟨m, hm⟩ := Option.ne_none_iff_exists'.1 (hright.1.2 ⟨_, frac, hnumeral, hlength⟩)
    have hcast : (m : ℚ) = n := (hright.2 _ frac hnumeral hlength m hm).trans hvalue
    exact ⟨text, hformat, hm.trans (congrArg some (by exact_mod_cast hcast))⟩

/-- **Token amounts** survive display and input for every token with decimals, and texts are read
right with two exceptions: a point alone, and, for a token without decimals, digits alone. -/
theorem tokenAmounts_iff (n d : ℕ) (options : DisplayOptions) (text : String) :
    (RoundTrips n d options ↔ d ≠ 0) ∧
      (ParsesRight text d ↔ trim text.toList ≠ ['.'] ∧
        ¬ (d = 0 ∧ trim text.toList ≠ [] ∧ ∀ c ∈ trim text.toList, c.isDigit = true)) :=
  ⟨roundTrips_iff n d options, parsesRight_iff text d⟩

/-- One unit of a token without decimals is not read back, and a point alone is read as zero. -/
theorem not_tokenAmounts_sample :
    (formatTokenAmount 1 0 {} = .ok "1" ∧ parseTokenAmount "1" 0 = none ∧ ¬ RoundTrips 1 0 {}) ∧
      parseTokenAmount "." 7 = some 0 ∧ ¬ ParsesRight "." 7 := by
  refine ⟨⟨rfl, by decide, ?_⟩, by decide, ?_⟩
  · rintro ⟨text, hformat, hparse⟩
    obtain rfl : toString (1 : ℤ) = text := Except.ok.inj hformat
    exact absurd hparse (by decide)
  · rintro ⟨h, -⟩
    obtain ⟨whole, frac, hnumeral, -⟩ := h.1 (by decide)
    have hpoint : trim ".".toList = [] ++ '.' :: [] := by decide
    rw [hpoint] at hnumeral
    obtain ⟨rfl, rfl⟩ := hnumeral.eq_of_point (List.forall_mem_nil _) (List.forall_mem_nil _)
    exact hnumeral.digit.elim (fun hne => hne rfl) fun hne => hne rfl

end SorobanPay.TokenDecimals
