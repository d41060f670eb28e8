import SorobanPay.Backend.HumanAmounts
import SorobanPay.Foundation.Binary64
import SorobanPay.Foundation.GroupedNumerals
import SorobanPay.Frontend.TokenDecimals

/-!
# Token amounts in a locale

`lib/token_format.ts` shows a raw amount with the separators of a locale. The amount becomes a
number in double precision, through a text with a point for tokens with decimals, and
`Intl.NumberFormat` prints the number. In standard notation, zeros at the end that a point stands
before are then removed, and the point with them if no digit is left.

## Main definitions

* `formatTokenLocale`: the text that is shown.
* `KeepsNumber`: the text stands for the amount.
* `Survives`: the amounts that keep their number.

## Main results

* `bigintToNumber_eq`: the number that is printed.
* `exists_read_clean`: what is left of its text.
* `keepsNumber_iff`: which amounts keep their number.
-/

set_option autoImplicit false

namespace SorobanPay.TokenFormat

open Foundation TokenDecimals

/-! ### Formatting -/

/-- The option `notation`. -/
inductive NotationStyle
  | standard
  | compact
  deriving DecidableEq

/-- The locale `"en-US"`. -/
def enUS : Separators where
  group := ','
  decimal := '.'
  group_ne_decimal := by decide
  group_isDigit := rfl
  decimal_isDigit := rfl
  group_ne_minus := by decide
  decimal_ne_minus := by decide

/-- `TokenFormatOptions`. The maximum is the token's decimals if it is not given. -/
structure TokenFormatOptions where
  locale : Separators := enUS
  maximumFractionDigits : Option ℤ := none
  minimumFractionDigits : ℤ := 0
  notationStyle : NotationStyle := .standard
  trimTrailing : Bool := true

/-- What the platform prints other than numbers in standard notation: compact notation, and
`toFixed`, which may throw. -/
structure Platform where
  compact : Separators → ℤ → ℤ → Binary64 → List Char
  toFixed : Binary64 → ℤ → Except String (List Char)

/-- `parseFloat` on a text without blanks in front and without an exponent. What comes after the
number is not read. -/
def parseFloat (cs : List Char) : Binary64 :=
  let unsigned := if cs.head? = some '-' then cs.tail else cs
  let whole := unsigned.takeWhile Char.isDigit
  let rest := unsigned.dropWhile Char.isDigit
  let frac := if rest.head? = some '.' then rest.tail.takeWhile Char.isDigit else []
  if whole = [] ∧ frac = [] then .nan
  else .ofRat ((if cs.head? = some '-' then -1 else 1) * decimalPlaces whole frac)

/-- `bigintToNumber`. -/
def bigintToNumber (amount decimals : ℤ) : Binary64 :=
  if decimals = 0 then .ofRat amount
  else
    let multiplier := getDecimalMultiplier decimals
    let whole := amount.tdiv multiplier
    let frac := amount.tmod multiplier
    let fracStr := (toString frac).toList.leftpad decimals.toNat '0'
    parseFloat ((toString whole).toList ++ '.' :: fracStr)

/-- The digits after the decimal separator without zeros at the end, but `least` of them. -/
def fractionDigits (least : ℕ) (frac : List Char) : List Char :=
  frac.take least ++ (frac.drop least).rdropWhile (· = '0')

/-- A number in standard notation, rounded to `most` digits and halfway away from zero. -/
def standardText (l : Separators) (most least : ℕ) : Binary64 → List Char
  | .finite q =>
    let n := ⌊|q| * 10 ^ most + 1 / 2⌋.toNat
    (if q < 0 then ['-'] else []) ++ groupThrees l.group (wholeText n most) ++
      l.fraction (fractionDigits least (fracText n most))
  | .posInfinity => ['∞']
  | .negInfinity => ['-', '∞']
  | .nan => ['N', 'a', 'N']

/-- `new Intl.NumberFormat(locale, options).format`. It throws if the bounds on the digits are out
of order. -/
def intlFormat (platform : Platform) (l : Separators) (style : NotationStyle) (most least : ℤ)
    (x : Binary64) : Except Unit (List Char) :=
  if 0 ≤ least ∧ least ≤ most then
    .ok (match style with
      | .standard => standardText l most.toNat least.toNat x
      | .compact => platform.compact l most least x)
  else .error ()

/-- `replace(/(\.\d*?)0+$/, "$1")`, which begins at the first point that only digits follow. -/
def stripZeros : List Char → List Char
  | [] => []
  | c :: cs =>
    if c = '.' ∧ cs.all Char.isDigit = true ∧ cs.getLast? = some '0' then
      c :: cs.rdropWhile (· = '0')
    else c :: stripZeros cs

/-- `replace(/\.$/, "")`. -/
def dropPoint (cs : List Char) : List Char := if cs.getLast? = some '.' then cs.dropLast else cs

/-- `formatTokenLocale`. -/
def formatTokenLocale (platform : Platform) (amount decimals : ℤ) (options : TokenFormatOptions) :
    Except String String :=
  let most := options.maximumFractionDigits.getD decimals
  let least := options.minimumFractionDigits
  if decimals < 0 then .error ("formatTokenLocale: invalid decimals " ++ toString decimals)
  else
    let numeric := bigintToNumber amount decimals
    match intlFormat platform options.locale options.notationStyle (min most 20) least numeric with
    | .ok formatted =>
      .ok (String.ofList
        (if options.notationStyle = .standard ∧ options.trimTrailing = true ∧ least = 0 then
          dropPoint (stripZeros formatted)
        else formatted))
    | .error _ => do
      let str ← platform.toFixed numeric most
      return String.ofList
        (if options.trimTrailing = true ∧ least = 0 then dropPoint (stripZeros str) else str)

/-- The text shown with the default options stands for the amount in the locale. -/
def KeepsNumber (platform : Platform) (l : Separators) (amount decimals : ℤ) : Prop :=
  ∃ text, formatTokenLocale platform amount decimals { locale := l } = .ok text ∧
    l.read text.toList = some ((amount : ℚ) / 10 ^ decimals)

/-- The amounts that keep their number. A negative one is a whole number of tokens, no more than
20 digits are needed after the decimal separator, and, where points separate the groups, the
amount is not a whole number of tokens that has a point in its text and ends in a zero. -/
structure Survives (l : Separators) (amount decimals : ℤ) : Prop where
  decimals_nonneg : 0 ≤ decimals
  whole_of_neg : amount < 0 → 10 ^ decimals.toNat ∣ amount
  places : 10 ^ decimals.toNat ∣ amount * 10 ^ 20
  points : l.group = '.' →
    ∀ w : ℤ, amount = 10 ^ decimals.toNat * w → 1000 ≤ |w| → ¬ 10 ∣ w

variable {l : Separators} {cs whole frac : List Char} {n d D : ℕ} {amount : ℤ}

/-! ### The number that is printed -/

/-- What `parseFloat` reads. -/
theorem parseFloat_append (hwhole : ∀ c ∈ whole, c.isDigit = true) (hne : whole ≠ [])
    (negative : Bool) (rest : List Char) :
    parseFloat ((if negative then ['-'] else []) ++ whole ++ '.' :: rest) =
      .ofRat ((if negative then -1 else 1) *
        decimalPlaces whole (rest.takeWhile Char.isDigit)) := by
  have htake : (whole ++ '.' :: rest).takeWhile Char.isDigit = whole := by
    rw [List.takeWhile_append_of_pos hwhole]
    simp [Char.isDigit]
  have hdrop : (whole ++ '.' :: rest).dropWhile Char.isDigit = '.' :: rest := by
    rw [List.dropWhile_append_of_pos hwhole]
    simp [Char.isDigit]
  cases negative with
  | true =>
    rw [if_pos rfl, if_pos rfl, List.append_assoc, List.singleton_append]
    simp [parseFloat, htake, hdrop, hne]
  | false =>
    obtain ⟨c, cs, rfl⟩ := List.exists_cons_of_ne_nil hne
    have hminus : c ≠ '-' := fun h => absurd (hwhole c List.mem_cons_self) (by rw [h]; decide)
    rw [List.cons_append] at htake hdrop
    simp [parseFloat, htake, hdrop, hminus]

theorem decimalPlaces_zeros (whole : List Char) (k : ℕ) :
    decimalPlaces whole (List.replicate k '0') = Nat.ofDigitChars 10 whole 0 := by
  have hzeros := ofDigitChars_append_zeros [] k
  rw [List.nil_append] at hzeros
  rw [decimalPlaces, hzeros]
  simp [Nat.ofDigitChars_eq_foldl]

/-- The digits stand for the number, for tokens without decimals too. -/
theorem decimalPlaces_wholeText (n d : ℕ) :
    decimalPlaces (wholeText n d) (fracText n d) = n / 10 ^ d := by
  rcases eq_or_ne d 0 with rfl | hd
  · have hzero : Nat.ofDigitChars 10 ['0'] 0 = 0 := by decide
    simp [decimalPlaces, wholeText, fracText, Nat.mod_one, hzero, Nat.ofDigitChars_ten_toDigits]
  · rw [eq_div_iff (pow_ne_zero d (by norm_num)), decimalPlaces_text hd]

/-- A negative remainder has no digit but zeros in front of its sign. -/
theorem exists_takeWhile_leftpad (m d : ℕ) :
    ∃ k, ((toString (-(m : ℤ))).toList.leftpad d '0').takeWhile Char.isDigit =
      List.replicate k '0' := by
  have hzeros : ∀ k, ∀ c ∈ List.replicate k '0', c.isDigit = true := fun k c hc => by
    rw [List.eq_of_mem_replicate hc]
    decide
  rcases Nat.eq_zero_or_pos m with rfl | hm
  · have hzero : (toString (-((0 : ℕ) : ℤ))).toList = List.replicate 1 '0' := by decide
    rw [hzero, List.leftpad, List.replicate_append_replicate,
      List.takeWhile_eq_self_iff.2 (hzeros _)]
    exact ⟨_, rfl⟩
  · rw [HumanAmounts.toList_toString_neg hm, List.leftpad, List.takeWhile_append_of_pos (hzeros _),
      List.takeWhile_cons_of_neg (by decide), List.append_nil]
    exact ⟨_, rfl⟩

/-- If only zeros are read after the point, the whole part is left. -/
theorem parseFloat_neg (w : ℕ) {rest : List Char} {k : ℕ}
    (h : rest.takeWhile Char.isDigit = List.replicate k '0') :
    parseFloat ((toString (-(w : ℤ))).toList ++ '.' :: rest) = .ofRat ((-(w : ℤ) : ℤ) : ℚ) := by
  have hdigits : ∀ c ∈ Nat.toDigits 10 w, c.isDigit = true := fun c hc =>
    Nat.isDigit_of_mem_toDigits (by decide) (by decide) hc
  have hparse := fun negative => parseFloat_append hdigits Nat.toDigits_ne_nil negative rest
  simp only [h, decimalPlaces_zeros, Nat.ofDigitChars_ten_toDigits] at hparse
  rcases Nat.eq_zero_or_pos w with rfl | hw
  · have hzero : (toString (-((0 : ℕ) : ℤ))).toList = Nat.toDigits 10 0 := by decide
    rw [hzero]
    simpa using hparse false
  · rw [HumanAmounts.toList_toString_neg hw]
    simpa using hparse true

theorem neg_natCast_tdiv (a d : ℕ) : (-(a : ℤ)).tdiv (10 ^ d) = -((a / 10 ^ d : ℕ) : ℤ) := by
  rw [Int.neg_tdiv, Int.ofNat_tdiv]
  push_cast
  rfl

theorem getDecimalMultiplier_natCast (d : ℕ) : getDecimalMultiplier d = ((10 ^ d : ℕ) : ℤ) := by
  rw [getDecimalMultiplier, Int.toNat_natCast]
  push_cast
  rfl

/-- **The number that is printed** is the amount in tokens. Of a negative amount only the whole
tokens are left, since `parseFloat` does not read past the sign of the remainder. -/
theorem bigintToNumber_eq (h : IsBinary64 ((amount : ℚ) / 10 ^ d)) :
    bigintToNumber amount d =
      .finite (if amount < 0 then (amount.tdiv (10 ^ d) : ℤ) else (amount : ℚ) / 10 ^ d) := by
  have hpow : (0 : ℤ) < (10 ^ d : ℕ) := by exact_mod_cast Nat.pow_pos (by decide)
  have hcast : ((10 ^ d : ℕ) : ℤ) = 10 ^ d := by push_cast; rfl
  rcases eq_or_ne d 0 with rfl | hd
  · rw [pow_zero, div_one] at h
    simp [bigintToNumber, Binary64.ofRat_eq_finite h]
  have hne : ((d : ℕ) : ℤ) ≠ 0 := Int.natCast_ne_zero.2 hd
  rw [bigintToNumber, if_neg hne]
  simp only [getDecimalMultiplier_natCast, Int.toNat_natCast]
  rcases lt_or_ge amount 0 with hneg | hpos
  · have hwhole : IsBinary64 (amount.tdiv (10 ^ d) : ℤ) := by
      rw [← hcast]
      refine IsBinary64.tdiv hpow ?_
      exact_mod_cast h
    obtain ⟨m, rfl⟩ : ∃ m : ℕ, amount = -m := ⟨amount.natAbs, by omega⟩
    obtain ⟨k, hk⟩ := exists_takeWhile_leftpad (m % 10 ^ d) d
    have htmod : (-(m : ℤ)).tmod (10 ^ d : ℕ) = -((m % 10 ^ d : ℕ) : ℤ) := by
      rw [Int.neg_tmod, Int.ofNat_tmod]
    rw [if_pos hneg, ← Binary64.ofRat_eq_finite hwhole, htmod, hcast, neg_natCast_tdiv]
    exact parseFloat_neg (m / 10 ^ d) hk
  · obtain ⟨m, rfl⟩ := Int.eq_ofNat_of_zero_le hpos
    have hdigits : ∀ c ∈ wholeText m d, c.isDigit = true := fun c => isDigit_wholeText
    have hparse := parseFloat_append hdigits Nat.toDigits_ne_nil false (fracText m d)
    rw [List.takeWhile_eq_self_iff.2 fun c hc => isDigit_fracText hc, decimalPlaces_wholeText]
      at hparse
    have hwholeText : (toString ((m : ℤ).tdiv (10 ^ d : ℕ))).toList = wholeText m d :=
      Nat.toList_repr
    have hfracText : (toString ((m : ℤ).tmod (10 ^ d : ℕ))).toList.leftpad d '0' = fracText m d :=
      congrArg (List.leftpad d '0') Nat.toList_repr
    rw [if_neg (not_lt.2 hpos), ← Binary64.ofRat_eq_finite h, hwholeText, hfracText]
    simpa using hparse

/-! ### What is removed -/

/-- Without a zero at the end nothing is removed. -/
theorem stripZeros_of_getLast? (h : cs.getLast? ≠ some '0') : stripZeros cs = cs := by
  induction cs with
  | nil => rfl
  | cons c cs ih =>
    have hcs : cs.getLast? ≠ some '0' := fun hlast => h (by rw [List.getLast?_cons, hlast]; rfl)
    rw [stripZeros, if_neg fun hzero => hcs hzero.2.2, ih hcs]

/-- Without a point nothing is removed. -/
theorem stripZeros_of_notMem (h : '.' ∉ cs) : stripZeros cs = cs := by
  induction cs with
  | nil => rfl
  | cons c cs ih =>
    rw [List.mem_cons, not_or] at h
    rw [stripZeros, if_neg fun hpoint => h.1 hpoint.1.symm, ih h.2]

/-- The zeros at the end of the digits after a point are removed. -/
theorem stripZeros_append (front : List Char) (h : ∀ c ∈ cs, c.isDigit = true) :
    stripZeros (front ++ '.' :: cs) = front ++ '.' :: cs.rdropWhile (· = '0') := by
  induction front with
  | nil =>
    rw [List.nil_append, List.nil_append, stripZeros]
    split_ifs with hzero
    · rfl
    · have hlast : cs.getLast? ≠ some '0' := fun hlast =>
        hzero ⟨rfl, List.all_eq_true.2 h, hlast⟩
      have hself : cs.rdropWhile (· = '0') = cs := by
        refine List.rdropWhile_eq_self_iff.2 fun hne hc => hlast ?_
        rw [List.getLast?_eq_some_getLast hne, of_decide_eq_true hc]
      rw [stripZeros_of_getLast? hlast, hself]
  | cons c front ih =>
    have hall : (front ++ '.' :: cs).all Char.isDigit = false := by simp [Char.isDigit]
    rw [List.cons_append, stripZeros, if_neg fun hpoint => by simp [hall] at hpoint, ih,
      List.cons_append]

theorem dropPoint_of_getLast? (h : cs.getLast? ≠ some '.') : dropPoint cs = cs := if_neg h

/-- A point is removed if no digit comes after it. -/
theorem dropPoint_append (front : List Char) (h : ∀ c ∈ cs, c.isDigit = true) :
    dropPoint (front ++ '.' :: cs) = front ++ if cs = [] then [] else '.' :: cs := by
  rcases eq_or_ne cs [] with rfl | hne
  · simp [dropPoint]
  · have hlast : (front ++ '.' :: cs).getLast? ≠ some '.' := by
      rw [List.getLast?_append_cons, List.getLast?_cons_of_ne_nil hne]
      exact fun heq => notMem_of_isDigit h (List.mem_of_getLast? heq)
    rw [dropPoint_of_getLast? hlast, if_neg hne]

/-- The text of `n / 10 ^ D` in standard notation with at most `D` digits after the decimal
separator. -/
def numeralText (l : Separators) (negative : Bool) (n D : ℕ) : List Char :=
  (if negative then ['-'] else []) ++ groupThrees l.group (wholeText n D) ++
    l.fraction ((fracText n D).rdropWhile (· = '0'))

theorem isDigit_rdropWhile_fracText :
    ∀ c ∈ (fracText n D).rdropWhile (· = '0'), c.isDigit = true :=
  fun _ hc => isDigit_fracText ((List.rdropWhile_prefix _ _).subset hc)

/-- The number has no digits after the decimal separator if it is an integer. -/
theorem rdropWhile_fracText_eq_nil_iff :
    (fracText n D).rdropWhile (· = '0') = [] ↔ 10 ^ D ∣ n := by
  constructor
  · intro h
    have hvalue := decimalPlaces_rdropWhile (wholeText n D) (fracText n D)
    rw [h, decimalPlaces_wholeText, eq_div_iff (pow_ne_zero D (by norm_num))] at hvalue
    simp only [decimalPlaces, wholeText, Nat.ofDigitChars_ten_toDigits, List.length_nil,
      pow_zero, div_one, Nat.ofDigitChars_nil, Nat.cast_zero, add_zero] at hvalue
    exact ⟨n / 10 ^ D, by rw [mul_comm]; exact_mod_cast hvalue.symm⟩
  · intro h
    rw [fracText, Nat.mod_eq_zero_of_dvd h, List.rdropWhile_eq_nil_iff]
    intro c hc
    rcases List.mem_append.1 hc with hc | hc
    · exact decide_eq_true (List.eq_of_mem_replicate hc)
    · exact decide_eq_true (List.mem_singleton.1 hc)

theorem group_notMem (h : ∀ c ∈ cs, c.isDigit = true) : l.group ∉ cs := fun hc => by
  have hdigit := h _ hc
  rw [l.group_isDigit] at hdigit
  cases hdigit

/-- The text stands for the number. -/
theorem read_numeralText (l : Separators) (negative : Bool) (n D : ℕ) :
    l.read (numeralText l negative n D) =
      some ((if negative then -1 else 1) * ((n : ℚ) / 10 ^ D)) := by
  have hdigits : ∀ c ∈ wholeText n D, c.isDigit = true := fun c => isDigit_wholeText
  have hfilter := filter_groupThrees (group_notMem (l := l) hdigits)
  have hgrouped : ∀ c ∈ groupThrees l.group (wholeText n D), c.isDigit = true ∨ c = l.group :=
    fun c hc => (mem_of_mem_groupThrees (group_notMem hdigits) hc).imp_left (hdigits c)
  rw [numeralText, Separators.read_append hgrouped _ isDigit_rdropWhile_fracText, hfilter,
    decimalPlaces_rdropWhile, decimalPlaces_wholeText]
  rw [hfilter]
  exact Nat.toDigits_ne_nil

/-- Nothing is removed from a number with a fraction, or if no point separates its groups. -/
theorem clean_numeralText (negative : Bool)
    (h : 10 ^ D ∣ n → l.group = '.' → (wholeText n D).length ≤ 3) :
    dropPoint (stripZeros (numeralText l negative n D)) = numeralText l negative n D := by
  by_cases hdvd : 10 ^ D ∣ n
  · have hpoint : '.' ∉ numeralText l negative n D := by
      rw [numeralText, rdropWhile_fracText_eq_nil_iff.2 hdvd, Separators.fraction, if_pos rfl,
        List.append_nil, List.mem_append, not_or]
      refine ⟨by cases negative <;> simp, fun hmem => ?_⟩
      have hdigits : '.' ∉ wholeText n D := notMem_of_isDigit fun c => isDigit_wholeText
      rcases mem_of_mem_groupThrees (group_notMem fun c => isDigit_wholeText) hmem with hc | hc
      · exact hdigits hc
      · rw [groupThrees_of_length_le (h hdvd hc.symm)] at hmem
        exact hdigits hmem
    rw [stripZeros_of_notMem hpoint,
      dropPoint_of_getLast? fun hlast => hpoint (List.mem_of_getLast? hlast)]
  · have hne := mt rdropWhile_fracText_eq_nil_iff.1 hdvd
    have hlast : (numeralText l negative n D).getLast? =
        some (((fracText n D).rdropWhile (· = '0')).getLast hne) := by
      rw [numeralText, Separators.fraction, if_neg hne, List.getLast?_append_cons,
        List.getLast?_cons_of_ne_nil hne, List.getLast?_eq_some_getLast hne]
    have hzero := List.rdropWhile_last_not _ _ hne
    have hdigit := isDigit_rdropWhile_fracText _ (List.getLast_mem hne)
    rw [stripZeros_of_getLast?, dropPoint_of_getLast?]
    · rw [hlast]
      intro heq
      rw [Option.some.inj heq] at hdigit
      cases hdigit
    · rw [hlast]
      exact fun heq => hzero (decide_eq_true (Option.some.inj heq))

/-- The digits of a multiple of ten end in a zero. -/
theorem getLast?_toDigits {w : ℕ} (hw : 10 ≤ w) (h : 10 ∣ w) :
    (Nat.toDigits 10 w).getLast? = some '0' := by
  rw [Nat.toDigits_of_base_le (by decide) hw, Nat.mod_eq_zero_of_dvd h, List.getLast?_concat]
  rfl

/-- Where points separate the groups, the zeros at the end of an integer are removed if it has a
point. -/
theorem exists_read_thousands (hgroup : l.group = '.') (hdvd : 10 ^ D ∣ n)
    (hlen : 3 < (wholeText n D).length) (negative : Bool) :
    ∃ r k : ℕ, l.read (dropPoint (stripZeros (numeralText l negative n D))) =
        some ((if negative then -1 else 1) * (r : ℚ)) ∧
      n / 10 ^ D = r * 10 ^ k ∧ (k = 0 ↔ ¬ 10 ∣ n / 10 ^ D) := by
  obtain ⟨front, last, hsplit, hlast⟩ : ∃ front last, wholeText n D = front ++ last ∧
      last.length = 3 :=
    ⟨_, _, (List.take_append_drop ((wholeText n D).length - 3) _).symm, by
      rw [List.length_drop]
      omega⟩
  have hfront : front ≠ [] := by
    rintro rfl
    rw [hsplit, List.nil_append] at hlen
    omega
  have hdigits : ∀ c ∈ front ++ last, c.isDigit = true := hsplit ▸ fun c => isDigit_wholeText
  have hdigitsFront : ∀ c ∈ front, c.isDigit = true := fun c hc =>
    hdigits c (List.mem_append_left _ hc)
  obtain ⟨k, hk⟩ := exists_eq_rdropWhile_append last
  generalize hleft : last.rdropWhile (· = '0') = left at hk
  have hdigitsLast : ∀ c ∈ last, c.isDigit = true := fun c hc =>
    hdigits c (List.mem_append_right _ hc)
  have hdigitsLeft : ∀ c ∈ left, c.isDigit = true := fun c hc =>
    hdigitsLast c (hk ▸ List.mem_append_left _ hc)
  have hclean : dropPoint (stripZeros (numeralText l negative n D)) =
      (if negative then ['-'] else []) ++
        (groupThrees '.' front ++ if left = [] then [] else '.' :: left) ++ l.fraction [] := by
    rw [numeralText, rdropWhile_fracText_eq_nil_iff.2 hdvd, hsplit, hgroup,
      groupThrees_append hfront hlast, Separators.fraction, if_pos rfl, List.append_nil,
      List.append_nil, ← List.append_assoc, ← List.append_assoc, stripZeros_append _ hdigitsLast,
      hleft, dropPoint_append _ hdigitsLeft]
  have hfilter : (groupThrees '.' front ++ if left = [] then [] else '.' :: left).filter
      (· ≠ l.group) = front ++ left := by
    have hself : left.filter (· ≠ '.') = left := List.filter_eq_self.2 fun c hc =>
      decide_eq_true fun heq => notMem_of_isDigit hdigitsLeft (heq ▸ hc)
    rw [hgroup, List.filter_append, filter_groupThrees (notMem_of_isDigit hdigitsFront)]
    split_ifs with hnil
    · rw [hnil, List.filter_nil]
    · rw [List.filter_cons_of_neg (by simp), hself]
  have hvalue := ofDigitChars_append_zeros (front ++ left) k
  rw [List.append_assoc, ← hk, ← hsplit, wholeText, Nat.ofDigitChars_ten_toDigits] at hvalue
  refine ⟨Nat.ofDigitChars 10 (front ++ left) 0, k, ?_, hvalue, ?_⟩
  · rw [hclean, Separators.read_append _ _ (List.forall_mem_nil _), hfilter]
    · simp [decimalPlaces]
    · intro c hc
      rcases List.mem_append.1 hc with hc | hc
      · rw [← hgroup] at hc
        exact (mem_of_mem_groupThrees (group_notMem hdigitsFront) hc).imp_left (hdigitsFront c)
      · split_ifs at hc
        · cases hc
        · exact (List.mem_cons.1 hc).elim (fun heq => .inr (heq.trans hgroup.symm)) fun hc =>
            .inl (hdigitsLeft c hc)
    · rw [hfilter]
      simp [hfront]
  · constructor
    · rintro rfl h
      -- the last digit is a zero, which would have been removed
      have hbound : 10 ≤ n / 10 ^ D := by
        by_contra hlt
        have hle := (Nat.length_toDigits_le_iff (by decide) (by decide : 0 < 3)).2
          (show n / 10 ^ D < 10 ^ 3 by omega)
        exact absurd hlen (not_lt.2 hle)
      have hzero := getLast?_toDigits hbound h
      have hne : last ≠ [] := List.ne_nil_of_length_pos (by omega)
      rw [List.replicate_zero, List.append_nil] at hk
      rw [← wholeText, hsplit, List.getLast?_append_of_ne_nil _ hne,
        List.getLast?_eq_some_getLast hne] at hzero
      rw [← hk] at hleft
      exact List.rdropWhile_eq_self_iff.1 hleft hne (decide_eq_true (Option.some.inj hzero))
    · intro h
      by_contra hk0
      exact h (hvalue ▸ (dvd_pow_self 10 hk0).mul_left _)

/-- **What is left of the text** stands for the number, unless points separate the groups and the
number is an integer that has a point in its text and ends in a zero. -/
theorem exists_read_clean (l : Separators) (negative : Bool) (n D : ℕ) :
    ∃ r : ℚ, l.read (dropPoint (stripZeros (numeralText l negative n D))) =
        some ((if negative then -1 else 1) * r) ∧
      (r = n / 10 ^ D ∨ ∃ m : ℕ, r = m) ∧
      (r = n / 10 ^ D ↔ (l.group = '.' → ∀ w, n = 10 ^ D * w → 1000 ≤ w → ¬ 10 ∣ w)) := by
  have hpow : 0 < 10 ^ D := Nat.pow_pos (by decide)
  by_cases h : 10 ^ D ∣ n → l.group = '.' → (wholeText n D).length ≤ 3
  · refine ⟨n / 10 ^ D, ?_, .inl rfl, iff_of_true rfl fun hgroup w hw hle => ?_⟩
    · rw [clean_numeralText negative h, read_numeralText]
    · have hlen := h ⟨w, hw⟩ hgroup
      rw [wholeText, hw, Nat.mul_div_cancel_left w hpow,
        Nat.length_toDigits_le_iff (by decide) (by decide)] at hlen
      omega
  · simp only [not_forall, not_le] at h
    obtain ⟨hdvd, hgroup, hlen⟩ := h
    obtain ⟨r, k, hread, hvalue, hk⟩ := exists_read_thousands hgroup hdvd hlen negative
    obtain ⟨w, rfl⟩ := hdvd
    have hw : 1000 ≤ w := by
      rw [wholeText, Nat.mul_div_cancel_left w hpow] at hlen
      by_contra hlt
      have hle := (Nat.length_toDigits_le_iff (by decide) (by decide : 0 < 3)).2
        (show w < 10 ^ 3 by omega)
      exact absurd hlen (not_lt.2 hle)
    have hcast : ((10 ^ D * w : ℕ) : ℚ) / 10 ^ D = w := by
      push_cast
      exact mul_div_cancel_left₀ _ (pow_ne_zero D (by norm_num))
    rw [Nat.mul_div_cancel_left w hpow] at hvalue hk
    refine ⟨r, hread, .inr ⟨r, rfl⟩, ?_⟩
    rw [hcast, Nat.cast_inj]
    constructor
    · rintro rfl - w' hw' - hten
      rw [← Nat.eq_of_mul_eq_mul_left hpow hw'] at hten
      -- if a zero was removed, less is left
      have hk0 : k ≠ 0 := fun hk0 => hk.1 hk0 hten
      have hlt : r * 1 < r * 10 ^ k :=
        Nat.mul_lt_mul_of_pos_left (Nat.one_lt_pow hk0 (by decide)) (by omega)
      omega
    · intro hpoints
      rw [hk.2 (hpoints hgroup w rfl hw), pow_zero, mul_one] at hvalue
      exact hvalue.symm

/-! ### Which amounts keep their number -/

/-- What is shown with the default options. -/
theorem formatTokenLocale_eq (platform : Platform) (l : Separators) (amount : ℤ) (d : ℕ) {q : ℚ}
    (h : bigintToNumber amount d = .finite q) :
    formatTokenLocale platform amount d { locale := l } =
      .ok (String.ofList (dropPoint (stripZeros (numeralText l (decide (q < 0))
        ⌊|q| * 10 ^ min d 20 + 1 / 2⌋.toNat (min d 20))))) := by
  have hmost : (min (d : ℤ) 20).toNat = min d 20 := by omega
  have hrange : (0 : ℤ) ≤ min (d : ℤ) 20 := by omega
  rw [formatTokenLocale, if_neg (not_lt.2 (Int.natCast_nonneg d))]
  simp [h, intlFormat, hrange, standardText, numeralText, hmost, fractionDigits]

/-- The digits that are printed are exact if no more are needed. -/
theorem round_eq {x : ℚ} {D j : ℕ} (h : x * 10 ^ D = j) :
    ((⌊x * 10 ^ D + 1 / 2⌋.toNat : ℕ) : ℚ) / 10 ^ D = x := by
  have hfloor : ⌊(j : ℚ) + 1 / 2⌋ = j := by
    rw [Int.floor_eq_iff]
    constructor <;> push_cast <;> linarith
  rw [h, hfloor, Int.toNat_natCast, div_eq_iff (pow_ne_zero D (by norm_num)), h]

/-- An amount that needs no more than 20 digits is printed exactly. -/
theorem exists_mul_pow {a d : ℕ} (h : 10 ^ d ∣ a * 10 ^ 20) :
    ∃ j : ℕ, (a / 10 ^ d : ℚ) * 10 ^ min d 20 = j := by
  have hpow : (10 : ℚ) ^ d ≠ 0 := pow_ne_zero d (by norm_num)
  rcases Nat.le_total d 20 with hd | hd
  · exact ⟨a, by rw [min_eq_left hd, div_mul_cancel₀ _ hpow]⟩
  · obtain ⟨j, hj⟩ := h
    refine ⟨j, ?_⟩
    rw [min_eq_right hd, div_mul_eq_mul_div, div_eq_iff hpow, mul_comm (j : ℚ)]
    exact_mod_cast hj

/-- What has at most 20 digits after the decimal separator. -/
theorem dvd_of_eq {a d n D : ℕ} {r : ℚ} (hD : D ≤ 20) (hr : r = n / 10 ^ D ∨ ∃ m : ℕ, r = m)
    (h : r = a / 10 ^ d) : 10 ^ d ∣ a * 10 ^ 20 := by
  have hpow : ∀ k : ℕ, (10 : ℚ) ^ k ≠ 0 := fun k => pow_ne_zero k (by norm_num)
  obtain ⟨j, hj⟩ : ∃ j : ℕ, r * 10 ^ 20 = j := by
    rcases hr with rfl | ⟨m, rfl⟩
    · refine ⟨n * 10 ^ (20 - D), ?_⟩
      rw [div_mul_eq_mul_div, div_eq_iff (hpow D)]
      push_cast
      rw [mul_assoc, ← pow_add, Nat.sub_add_cancel hD]
    · exact ⟨m * 10 ^ 20, by push_cast; rfl⟩
  refine ⟨j, ?_⟩
  rw [h, div_mul_eq_mul_div, div_eq_iff (hpow d), mul_comm (j : ℚ)] at hj
  exact_mod_cast hj

/-- An amount without its sign is read back exactly if it needs no more than 20 digits and nothing
is removed from its text. -/
theorem eq_value_iff {a d n : ℕ} {r : ℚ}
    (hn : n = ⌊(a / 10 ^ d : ℚ) * 10 ^ min d 20 + 1 / 2⌋.toNat)
    (hr : r = n / 10 ^ min d 20 ∨ ∃ m : ℕ, r = m)
    (hpoints : r = n / 10 ^ min d 20 ↔
      (l.group = '.' → ∀ w, n = 10 ^ min d 20 * w → 1000 ≤ w → ¬ 10 ∣ w)) :
    r = a / 10 ^ d ↔ 10 ^ d ∣ a * 10 ^ 20 ∧
      (l.group = '.' → ∀ w, a = 10 ^ d * w → 1000 ≤ w → ¬ 10 ∣ w) := by
  have hpow : ∀ k : ℕ, (10 : ℚ) ^ k ≠ 0 := fun k => pow_ne_zero k (by norm_num)
  have hplaces : 10 ^ d ∣ a * 10 ^ 20 → (n : ℚ) / 10 ^ min d 20 = a / 10 ^ d := by
    intro h
    obtain ⟨j, hj⟩ := exists_mul_pow h
    rw [hn, round_eq hj]
  -- the printed number is the same integer as the amount
  have hwhole : 10 ^ d ∣ a * 10 ^ 20 → ∀ w : ℕ, n = 10 ^ min d 20 * w ↔ a = 10 ^ d * w := by
    intro h w
    have heq := hplaces h
    rw [div_eq_div_iff (hpow _) (hpow _)] at heq
    have hnat : n * 10 ^ d = a * 10 ^ min d 20 := by exact_mod_cast heq
    have hpos : ∀ k, 0 < 10 ^ k := fun k => Nat.pow_pos (by decide)
    constructor
    · rintro rfl
      refine Nat.eq_of_mul_eq_mul_right (hpos (min d 20)) ?_
      rw [← hnat]
      ring
    · rintro rfl
      refine Nat.eq_of_mul_eq_mul_right (hpos d) ?_
      rw [hnat]
      ring
  constructor
  · intro h
    have hdvd := dvd_of_eq (Nat.min_le_right d 20) hr h
    refine ⟨hdvd, fun hgroup w hw => ?_⟩
    exact hpoints.1 (h.trans (hplaces hdvd).symm) hgroup w ((hwhole hdvd w).2 hw)
  · rintro ⟨hdvd, h⟩
    rw [← hplaces hdvd]
    exact hpoints.2 fun hgroup w hw => h hgroup w ((hwhole hdvd w).1 hw)

/-- The condition on the amount without its sign. -/
theorem survives_iff {d : ℕ} : Survives l amount d ↔ (amount < 0 → 10 ^ d ∣ amount.natAbs) ∧
    10 ^ d ∣ amount.natAbs * 10 ^ 20 ∧
      (l.group = '.' → ∀ w, amount.natAbs = 10 ^ d * w → 1000 ≤ w → ¬ 10 ∣ w) := by
  have hpow : ((10 : ℤ) ^ d).natAbs = 10 ^ d := by rw [Int.natAbs_pow]; rfl
  have hdvd : (10 : ℤ) ^ d ∣ amount ↔ 10 ^ d ∣ amount.natAbs := by
    rw [← Int.natAbs_dvd_natAbs, hpow]
  have hplaces : (10 : ℤ) ^ d ∣ amount * 10 ^ 20 ↔ 10 ^ d ∣ amount.natAbs * 10 ^ 20 := by
    rw [← Int.natAbs_dvd_natAbs, hpow, Int.natAbs_mul]
    rfl
  constructor
  · rintro ⟨-, hneg, hlength, hpoints⟩
    rw [Int.toNat_natCast] at hneg hlength hpoints
    refine ⟨fun h => hdvd.1 (hneg h), hplaces.1 hlength, fun hgroup w hw hle hten => ?_⟩
    have hsign : amount = 10 ^ d * (amount.sign * w) := by
      conv_lhs => rw [← Int.sign_mul_natAbs amount, hw]
      push_cast
      ring
    have habs : |amount.sign * (w : ℤ)| = w := by
      have hne : amount ≠ 0 := by
        rintro rfl
        have hzero : 10 ^ d * w = 0 := hw.symm
        simp at hzero
        omega
      rw [abs_mul, Nat.abs_cast, Int.abs_sign_of_ne_zero hne, one_mul]
    refine hpoints hgroup _ hsign (by rw [habs]; exact_mod_cast hle) ?_
    exact (Int.natCast_dvd_natCast.2 hten).mul_left _
  · rintro ⟨hneg, hlength, hpoints⟩
    rw [← hplaces] at hlength
    refine ⟨Int.natCast_nonneg d, ?_, ?_, fun hgroup w hw hle hten => ?_⟩
    · rw [Int.toNat_natCast]
      exact fun h => hdvd.2 (hneg h)
    · rwa [Int.toNat_natCast]
    · rw [Int.toNat_natCast] at hw
      refine hpoints hgroup w.natAbs (by rw [hw, Int.natAbs_mul, hpow]) ?_ ?_
      · rw [Int.abs_eq_natAbs] at hle
        exact_mod_cast hle
      · exact Int.natAbs_dvd_natAbs.2 hten

/-- **The number is kept** exactly by the amounts that survive: of those that are numbers in double
precision, the text stands for no other. -/
theorem keepsNumber_iff (platform : Platform) (l : Separators) (amount decimals : ℤ)
    (h : IsBinary64 ((amount : ℚ) / 10 ^ decimals)) :
    KeepsNumber platform l amount decimals ↔ Survives l amount decimals := by
  rcases lt_or_ge decimals 0 with hneg | hnonneg
  · refine iff_of_false ?_ fun hsurvives => absurd hsurvives.decimals_nonneg (not_le.2 hneg)
    rintro ⟨text, hformat, -⟩
    rw [formatTokenLocale, if_pos hneg] at hformat
    cases hformat
  lift decimals to ℕ using hnonneg with d
  rw [zpow_natCast] at h
  have hnumber := bigintToNumber_eq h
  have hkeeps : ∀ {q : ℚ}, bigintToNumber amount d = .finite q →
      (KeepsNumber platform l amount d ↔ l.read (dropPoint (stripZeros (numeralText l
        (decide (q < 0)) ⌊|q| * 10 ^ min d 20 + 1 / 2⌋.toNat (min d 20)))) =
          some ((amount : ℚ) / 10 ^ d)) := by
    intro q hq
    rw [KeepsNumber, formatTokenLocale_eq platform l amount d hq, zpow_natCast]
    constructor
    · rintro ⟨text, htext, hread⟩
      rwa [← Except.ok.inj htext, String.toList_ofList] at hread
    · exact fun hread => ⟨_, rfl, by rwa [String.toList_ofList]⟩
  rw [hkeeps hnumber, survives_iff]
  have hpow : (10 : ℚ) ^ d ≠ 0 := pow_ne_zero d (by norm_num)
  rcases lt_or_ge amount 0 with hneg | hpos
  · obtain ⟨a, rfl⟩ : ∃ a : ℕ, amount = -a := ⟨amount.natAbs, by omega⟩
    rw [if_pos hneg, Int.natAbs_neg, Int.natAbs_natCast]
    rw [neg_natCast_tdiv]
    have habs : |((-((a / 10 ^ d : ℕ) : ℤ) : ℤ) : ℚ)| = (a / 10 ^ d : ℕ) := by
      rw [Int.cast_neg, abs_neg, Int.cast_natCast, Nat.abs_cast]
    by_cases hdvd : 10 ^ d ∣ a
    · have hvalue : ((a / 10 ^ d : ℕ) : ℚ) = a / 10 ^ d := by
        rw [eq_div_iff hpow]
        exact_mod_cast Nat.div_mul_cancel hdvd
      have hsign : ((-((a / 10 ^ d : ℕ) : ℤ) : ℤ) : ℚ) < 0 := by
        have hle := Nat.div_pos (Nat.le_of_dvd (by omega) hdvd) (Nat.pow_pos (by decide))
        exact_mod_cast neg_lt_zero.2 (Int.natCast_pos.2 hle)
      obtain ⟨r, hread, hr, hpoints⟩ := exists_read_clean l true
        ⌊(a / 10 ^ d : ℚ) * 10 ^ min d 20 + 1 / 2⌋.toNat (min d 20)
      rw [habs, hvalue, decide_eq_true hsign, hread, if_pos rfl, Option.some.injEq,
        and_iff_right fun _ => hdvd, ← eq_value_iff rfl hr hpoints, neg_one_mul]
      push_cast
      rw [neg_div, neg_inj]
    · refine iff_of_false ?_ fun hsurvives => hdvd (hsurvives.1 hneg)
      rw [habs]
      generalize decide (((-((a / 10 ^ d : ℕ) : ℤ) : ℤ) : ℚ) < 0) = negative
      obtain ⟨r, hread, hr, -⟩ := exists_read_clean l negative
        ⌊((a / 10 ^ d : ℕ) : ℚ) * 10 ^ min d 20 + 1 / 2⌋.toNat (min d 20)
      -- an integer is printed, and the amount is not one
      have hnat : ∃ m : ℕ, r = m := by
        refine hr.elim (fun heq => ⟨a / 10 ^ d, ?_⟩) id
        rw [heq, round_eq (j := a / 10 ^ d * 10 ^ min d 20) (by push_cast; rfl)]
      obtain ⟨m, rfl⟩ := hnat
      rw [hread, Option.some.injEq]
      intro heq
      have hsquare : (m : ℚ) = a / 10 ^ d := by
        have hten : |(10 : ℚ) ^ d| = 10 ^ d := abs_of_pos (pow_pos (by norm_num) d)
        have hsign : |(if negative then -1 else 1 : ℚ)| = 1 := by cases negative <;> simp
        have hmagnitude := congrArg abs heq
        rw [abs_mul, hsign, one_mul, Nat.abs_cast, abs_div, hten, Int.cast_neg, abs_neg,
          Int.cast_natCast, Nat.abs_cast] at hmagnitude
        exact hmagnitude
      rw [eq_div_iff hpow] at hsquare
      exact hdvd ⟨m, by rw [mul_comm]; exact_mod_cast hsquare.symm⟩
  · obtain ⟨a, rfl⟩ := Int.eq_ofNat_of_zero_le hpos
    have habs : |((a : ℤ) : ℚ) / 10 ^ d| = a / 10 ^ d := by
      rw [Int.cast_natCast, abs_of_nonneg (by positivity)]
    have hsign : ¬ ((a : ℤ) : ℚ) / 10 ^ d < 0 := by
      rw [Int.cast_natCast]
      exact not_lt.2 (by positivity)
    obtain ⟨r, hread, hr, hpoints⟩ := exists_read_clean l false
      ⌊(a / 10 ^ d : ℚ) * 10 ^ min d 20 + 1 / 2⌋.toNat (min d 20)
    rw [if_neg (not_lt.2 hpos), habs, decide_eq_false hsign, hread, Int.natAbs_natCast,
      and_iff_right fun hneg => absurd hneg (not_lt.2 hpos), ← eq_value_iff rfl hr hpoints,
      Option.some.injEq]
    simp

/-- A locale with points between the groups. -/
def germany : Separators where
  group := '.'
  decimal := ','
  group_ne_decimal := by decide
  group_isDigit := rfl
  decimal_isDigit := rfl
  group_ne_minus := by decide
  decimal_ne_minus := by decide

/-- A platform without compact notation. -/
def plainPlatform : Platform := ⟨fun _ _ _ _ => [], fun _ _ => .error "toFixed"⟩

/-- One and a half tokens of 6 decimals are shown as `"1,5"`. -/
theorem keepsNumber_iff_sample : KeepsNumber plainPlatform germany 1500000 6 := by
  have hrepr : IsBinary64 (((1500000 : ℤ) : ℚ) / 10 ^ (6 : ℤ)) :=
    ⟨3, -1, by decide, by decide, by decide, by norm_num⟩
  refine (keepsNumber_iff plainPlatform germany 1500000 6 hrepr).2 ⟨by decide, by decide, ?_, ?_⟩
  · exact (by decide : (10 : ℤ) ^ 6 ∣ 1500000 * 10 ^ 20)
  · rintro - w hw hle -
    rw [show ((6 : ℤ).toNat) = 6 from rfl] at hw
    omega

/-- The texts `"1"` and `"-1"` are read in every locale. -/
theorem read_one (l : Separators) (negative : Bool) :
    l.read ((if negative then ['-'] else []) ++ ['1']) = some (if negative then -1 else 1) := by
  have hne : '1' ≠ l.group := by
    intro h
    have hgroup := l.group_isDigit
    rw [← h] at hgroup
    exact absurd hgroup (by decide)
  have hfilter : ['1'].filter (· ≠ l.group) = ['1'] := by simp [hne]
  have hdigit : ∀ c ∈ ['1'], c.isDigit = true ∨ c = l.group :=
    List.forall_mem_singleton.2 (.inl (by decide))
  have hkept : ['1'].filter (· ≠ l.group) ≠ [] := by
    rw [hfilter]
    exact List.cons_ne_nil _ _
  have hnone : ∀ c ∈ ([] : List Char), c.isDigit = true := nofun
  have hread := Separators.read_append hdigit hkept hnone negative
  rw [hfilter, Separators.fraction, if_pos rfl, List.append_nil] at hread
  have hvalue : decimalPlaces ['1'] [] = 1 := by
    rw [decimalPlaces, show Nat.ofDigitChars 10 ['1'] 0 = 1 by decide]
    simp
  rw [hread, hvalue, mul_one]

/-- A thousand units are shown as `"1"` where points separate the groups, and minus one and a half
tokens of 7 decimals as `"-1"`. -/
theorem not_keepsNumber_sample :
    (IsBinary64 (((1000 : ℤ) : ℚ) / 10 ^ (0 : ℤ)) ∧
      formatTokenLocale plainPlatform 1000 0 { locale := germany } = .ok "1" ∧
      ¬ KeepsNumber plainPlatform germany 1000 0) ∧
    IsBinary64 (((-15000000 : ℤ) : ℚ) / 10 ^ (7 : ℤ)) ∧
      formatTokenLocale plainPlatform (-15000000) 7 { locale := enUS } = .ok "-1" ∧
      ¬ KeepsNumber plainPlatform enUS (-15000000) 7 := by
  have hthousand : IsBinary64 (((1000 : ℤ) : ℚ) / 10 ^ 0) :=
    ⟨1000, 0, by decide, by decide, by decide, by norm_num⟩
  have hnegative : IsBinary64 (((-15000000 : ℤ) : ℚ) / 10 ^ 7) :=
    ⟨-3, -1, by decide, by decide, by decide, by norm_num⟩
  have hformat : formatTokenLocale plainPlatform 1000 0 { locale := germany } = .ok "1" := by
    have hfloor : ⌊|((1000 : ℤ) : ℚ) / 10 ^ 0| * 10 ^ min 0 20 + 1 / 2⌋ = 1000 := by
      rw [Int.floor_eq_iff]
      norm_num
    have hnumber := formatTokenLocale_eq plainPlatform germany 1000 0 (bigintToNumber_eq hthousand)
    rw [if_neg (by decide), hfloor, decide_eq_false (by norm_num)] at hnumber
    exact hnumber.trans (by decide)
  have hformat' : formatTokenLocale plainPlatform (-15000000) 7 { locale := enUS } = .ok "-1" := by
    have hfloor : ⌊|(((-15000000 : ℤ).tdiv (10 ^ 7) : ℤ) : ℚ)| * 10 ^ min 7 20 + 1 / 2⌋ =
        10000000 := by
      rw [show (-15000000 : ℤ).tdiv (10 ^ 7) = -1 by decide, Int.floor_eq_iff]
      norm_num
    have hnumber := formatTokenLocale_eq plainPlatform enUS (-15000000) 7
      (bigintToNumber_eq hnegative)
    rw [if_pos (by decide), hfloor, decide_eq_true (by decide)] at hnumber
    exact hnumber.trans (by decide)
  refine ⟨⟨hthousand, hformat, ?_⟩, hnegative, hformat', ?_⟩
  · rintro ⟨text, htext, hread⟩
    rw [hformat] at htext
    rw [← Except.ok.inj htext] at hread
    have hone : germany.read "1".toList = some 1 := read_one germany false
    rw [hone] at hread
    norm_num at hread
  · rintro ⟨text, htext, hread⟩
    rw [hformat'] at htext
    rw [← Except.ok.inj htext] at hread
    have hone : enUS.read "-1".toList = some (-1) := read_one enUS true
    rw [hone] at hread
    norm_num at hread

end SorobanPay.TokenFormat
