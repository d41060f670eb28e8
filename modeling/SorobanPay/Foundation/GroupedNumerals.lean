import SorobanPay.Foundation.Decimals

/-!
# Numerals with the separators of a locale

The digits before the decimal separator stand in groups of three, from the right, with a separator
between the groups. A reader of the text passes over the separators of the groups wherever they
stand.

## Main definitions

* `Separators`: the two separators.
* `groupThrees`, `Separators.numeral`: the text.
* `Separators.read`: the number that a text stands for.

## Main results

* `Separators.read_append`: what is read.
* `filter_groupThrees`: grouping keeps the digits.
-/

set_option autoImplicit false

namespace Foundation

/-- The separator between groups of three digits and the one before the fraction. -/
structure Separators where
  group : Char
  decimal : Char
  group_ne_decimal : group ≠ decimal
  group_isDigit : group.isDigit = false
  decimal_isDigit : decimal.isDigit = false
  group_ne_minus : group ≠ '-'
  decimal_ne_minus : decimal ≠ '-'

/-- Digits from the last to the first with a separator after every three. -/
def groupReversed (separator : Char) : List Char → List Char
  | [] => []
  | [a] => [a]
  | [a, b] => [a, b]
  | [a, b, c] => [a, b, c]
  | a :: b :: c :: d :: cs => a :: b :: c :: separator :: groupReversed separator (d :: cs)

/-- Digits in groups of three from the right. -/
def groupThrees (separator : Char) (cs : List Char) : List Char :=
  (groupReversed separator cs.reverse).reverse

variable {separator : Char} {cs whole frac : List Char}

theorem filter_groupReversed (h : separator ∉ cs) :
    (groupReversed separator cs).filter (· ≠ separator) = cs := by
  have hself : ∀ {cs : List Char}, separator ∉ cs → cs.filter (· ≠ separator) = cs :=
    fun {cs} hcs => List.filter_eq_self.2 fun c hc =>
      decide_eq_true fun heq => hcs (heq ▸ hc)
  fun_induction groupReversed separator cs with
  | case1 => rfl
  | case2 a => exact hself h
  | case3 a b => exact hself h
  | case4 a b c => exact hself h
  | case5 a b c d cs ih =>
    simp only [List.mem_cons, not_or] at h
    obtain ⟨ha, hb, hc, hd⟩ := h
    have hrest := ih (by simpa only [List.mem_cons, not_or] using hd)
    simpa [groupReversed, Ne.symm ha, Ne.symm hb, Ne.symm hc] using hrest

/-- **Grouping keeps the digits.** -/
theorem filter_groupThrees (h : separator ∉ cs) :
    (groupThrees separator cs).filter (· ≠ separator) = cs := by
  rw [groupThrees, List.filter_reverse, filter_groupReversed (by simpa using h),
    List.reverse_reverse]

theorem mem_of_mem_groupThrees {c : Char} (h : separator ∉ cs)
    (hc : c ∈ groupThrees separator cs) : c ∈ cs ∨ c = separator := by
  rcases eq_or_ne c separator with heq | hne
  · exact .inr heq
  · have hmem : c ∈ (groupThrees separator cs).filter (· ≠ separator) :=
      List.mem_filter.2 ⟨hc, decide_eq_true hne⟩
    rw [filter_groupThrees h] at hmem
    exact .inl hmem

theorem groupThrees_of_length_le (h : cs.length ≤ 3) : groupThrees separator cs = cs := by
  have hgroup : ∀ {cs : List Char}, cs.length ≤ 3 → groupReversed separator cs = cs := by
    intro cs hcs
    rcases cs with _ | ⟨a, _ | ⟨b, _ | ⟨c, _ | ⟨d, cs⟩⟩⟩⟩
    · rfl
    · rfl
    · rfl
    · rfl
    · simp only [List.length_cons] at hcs
      omega
  rw [groupThrees, hgroup (by simpa using h), List.reverse_reverse]

/-- The last three digits are a group. -/
theorem groupThrees_append {front last : List Char} (hfront : front ≠ [])
    (hlast : last.length = 3) :
    groupThrees separator (front ++ last) =
      groupThrees separator front ++ separator :: last := by
  obtain ⟨c, b, a, rfl⟩ := List.length_eq_three.1 hlast
  obtain ⟨d, cs, hd⟩ := List.exists_cons_of_ne_nil (List.reverse_ne_nil_iff.2 hfront)
  have hreverse : (front ++ [c, b, a]).reverse = a :: b :: c :: d :: cs := by simp [hd]
  rw [groupThrees, groupThrees, hreverse, hd, groupReversed]
  simp

namespace Separators

variable (l : Separators)

/-- The decimal separator and the digits after it, if there are any. -/
def fraction (frac : List Char) : List Char := if frac = [] then [] else l.decimal :: frac

/-- The number that a text without a sign stands for. -/
def readUnsigned (cs : List Char) : Option ℚ :=
  let whole := (cs.takeWhile (· ≠ l.decimal)).filter (· ≠ l.group)
  let rest := cs.dropWhile (· ≠ l.decimal)
  if whole ≠ [] ∧ (whole ++ rest.tail).all Char.isDigit = true ∧ rest ≠ [l.decimal] then
    some (decimalPlaces whole rest.tail)
  else none

/-- The number that a text stands for. -/
def read (cs : List Char) : Option ℚ :=
  if cs.head? = some '-' then (l.readUnsigned cs.tail).map fun q => -q else l.readUnsigned cs

variable {l}

theorem isDigit_of_mem_filter (h : ∀ c ∈ cs, c.isDigit = true ∨ c = l.group) :
    ∀ c ∈ cs.filter (· ≠ l.group), c.isDigit = true := by
  intro c hc
  obtain ⟨hmem, hne⟩ := List.mem_filter.1 hc
  exact (h c hmem).resolve_right (of_decide_eq_true hne)

/-- **What is read** before and after the decimal separator. -/
theorem readUnsigned_append (hwhole : ∀ c ∈ whole, c.isDigit = true ∨ c = l.group)
    (hne : whole.filter (· ≠ l.group) ≠ []) (hfrac : ∀ c ∈ frac, c.isDigit = true) :
    l.readUnsigned (whole ++ l.fraction frac) =
      some (decimalPlaces (whole.filter (· ≠ l.group)) frac) := by
  have hdecimal : ∀ c ∈ whole, decide (c ≠ l.decimal) = true := by
    refine fun c hc => decide_eq_true fun heq => ?_
    rcases hwhole c hc with hdigit | hgroup
    · rw [heq, l.decimal_isDigit] at hdigit
      cases hdigit
    · exact l.group_ne_decimal (hgroup.symm.trans heq)
  have hdigits := isDigit_of_mem_filter hwhole
  rcases eq_or_ne frac [] with rfl | hfracne
  · have htake : whole.takeWhile (· ≠ l.decimal) = whole := List.takeWhile_eq_self_iff.2 hdecimal
    have hdrop : whole.dropWhile (· ≠ l.decimal) = [] := List.dropWhile_eq_nil_iff.2 hdecimal
    rw [fraction, if_pos rfl, List.append_nil, readUnsigned, htake, hdrop, List.tail_nil]
    exact if_pos ⟨hne, List.all_eq_true.2 (by simpa using hdigits), by simp⟩
  · have htake : (whole ++ l.decimal :: frac).takeWhile (· ≠ l.decimal) = whole := by
      rw [List.takeWhile_append_of_pos hdecimal]
      simp
    have hdrop : (whole ++ l.decimal :: frac).dropWhile (· ≠ l.decimal) = l.decimal :: frac := by
      rw [List.dropWhile_append_of_pos hdecimal]
      simp
    rw [fraction, if_neg hfracne, readUnsigned, htake, hdrop, List.tail_cons]
    refine if_pos ⟨hne, List.all_eq_true.2 fun c hc => ?_, by simpa using hfracne⟩
    exact (List.mem_append.1 hc).elim (hdigits c) (hfrac c)

/-- **What is read** with a sign. -/
theorem read_append (hwhole : ∀ c ∈ whole, c.isDigit = true ∨ c = l.group)
    (hne : whole.filter (· ≠ l.group) ≠ []) (hfrac : ∀ c ∈ frac, c.isDigit = true)
    (negative : Bool) :
    l.read ((if negative then ['-'] else []) ++ whole ++ l.fraction frac) =
      some ((if negative then -1 else 1) * decimalPlaces (whole.filter (· ≠ l.group)) frac) := by
  have hread := readUnsigned_append hwhole hne hfrac
  cases negative with
  | true => simp [read, hread]
  | false =>
    obtain ⟨c, cs, rfl⟩ := List.exists_cons_of_ne_nil fun h : whole = [] => hne (by rw [h]; rfl)
    have hminus : c ≠ '-' := by
      rintro rfl
      rcases hwhole '-' List.mem_cons_self with hdigit | hgroup
      · exact absurd hdigit (by decide)
      · exact l.group_ne_minus hgroup.symm
    rw [List.cons_append] at hread
    simp [read, hminus, hread]

end Separators

end Foundation
