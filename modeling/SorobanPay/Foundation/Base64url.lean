import Mathlib.Tactic.Common
import SorobanPay.Foundation.Encoding

/-!
# Texts as bytes, and bytes in the alphabet for URLs

The bytes of a text in UTF-8, and the base64 text of bytes in the alphabet for URLs, which is not
padded. The decoders take everything: the one for base64 knows both alphabets and passes over other
characters, the one for UTF-8 puts the replacement character for a byte that begins no character.

## Main definitions

* `base64urlText`, `base64Decode`: bytes as a text, and back.
* `utf8Bytes`, `utf8Text`: a text as bytes, and back.
* `replaceChar`: from one alphabet to the other.

## Main results

* `base64Decode_base64urlText`, `utf8Text_utf8Bytes`: decoding what has been encoded.
* `filter_map_base64Digits`, `base64Decode_map`: texts that are taken to the other alphabet.
-/

set_option autoImplicit false

namespace Foundation

/-! ### Base64 -/

/-- The base64 alphabet for URLs. -/
def base64urlAlphabet : List Char :=
  "ABCDEFGHIJKLMNOPQRSTUVWXYZabcdefghijklmnopqrstuvwxyz0123456789-_".toList

/-- A digit; its argument is below 64. -/
def base64urlDigit (n : ℕ) : Char := base64urlAlphabet.getD n '='

/-- The digits of a byte string, without padding. -/
def base64urlDigits : List UInt8 → List Char
  | [] => []
  | [a] => [base64urlDigit (a.toNat / 4), base64urlDigit (a.toNat % 4 * 16)]
  | [a, b] =>
    [base64urlDigit (a.toNat / 4), base64urlDigit (a.toNat % 4 * 16 + b.toNat / 16),
      base64urlDigit (b.toNat % 16 * 4)]
  | a :: b :: c :: bs =>
    base64urlDigit (a.toNat / 4) :: base64urlDigit (a.toNat % 4 * 16 + b.toNat / 16) ::
      base64urlDigit (b.toNat % 16 * 4 + c.toNat / 64) :: base64urlDigit (c.toNat % 64) ::
        base64urlDigits bs

/-- The base64 text of a byte string in the alphabet for URLs. -/
def base64urlText (bs : List UInt8) : String := String.ofList (base64urlDigits bs)

/-- The value of a digit of either alphabet. -/
def base64Value (c : Char) : Option ℕ :=
  if 'A' ≤ c ∧ c ≤ 'Z' then some (c.toNat - 'A'.toNat)
  else if 'a' ≤ c ∧ c ≤ 'z' then some (c.toNat - 'a'.toNat + 26)
  else if '0' ≤ c ∧ c ≤ '9' then some (c.toNat - '0'.toNat + 52)
  else if c = '+' ∨ c = '-' then some 62
  else if c = '/' ∨ c = '_' then some 63
  else none

/-- The bytes of a list of values. -/
def base64Bytes : List ℕ → List UInt8
  | [] | [_] => []
  | [x, y] => [.ofNat (x * 4 + y / 16)]
  | [x, y, z] => [.ofNat (x * 4 + y / 16), .ofNat (y % 16 * 16 + z / 4)]
  | x :: y :: z :: w :: vs =>
    .ofNat (x * 4 + y / 16) :: .ofNat (y % 16 * 16 + z / 4) :: .ofNat (z % 4 * 64 + w) ::
      base64Bytes vs

/-- The bytes of a base64 text in either alphabet. -/
def base64Decode (text : String) : List UInt8 := base64Bytes (text.toList.filterMap base64Value)

theorem base64Value_base64urlDigit : ∀ n < 64, base64Value (base64urlDigit n) = some n := by
  decide +kernel

theorem ofNat_eq_of_toNat {a : UInt8} {n : ℕ} (h : n = a.toNat) : UInt8.ofNat n = a := by
  rw [h, UInt8.ofNat_toNat]

/-- **Base64.** Decoding the text of a byte string gives the byte string. -/
theorem base64Decode_base64urlText (bs : List UInt8) : base64Decode (base64urlText bs) = bs := by
  rw [base64Decode, base64urlText, String.toList_ofList]
  induction bs using base64urlDigits.induct with
  | case1 => rfl
  | case2 a =>
    have ha := a.toNat_lt
    simp only [base64urlDigits, List.filterMap_cons, List.filterMap_nil,
      base64Value_base64urlDigit (a.toNat / 4) (by omega),
      base64Value_base64urlDigit (a.toNat % 4 * 16) (by omega), base64Bytes]
    rw [ofNat_eq_of_toNat (a := a) (by omega)]
  | case3 a b =>
    have ha := a.toNat_lt
    have hb := b.toNat_lt
    simp only [base64urlDigits, List.filterMap_cons, List.filterMap_nil,
      base64Value_base64urlDigit (a.toNat / 4) (by omega),
      base64Value_base64urlDigit (a.toNat % 4 * 16 + b.toNat / 16) (by omega),
      base64Value_base64urlDigit (b.toNat % 16 * 4) (by omega), base64Bytes]
    rw [ofNat_eq_of_toNat (a := a) (by omega), ofNat_eq_of_toNat (a := b) (by omega)]
  | case4 a b c bs ih =>
    have ha := a.toNat_lt
    have hb := b.toNat_lt
    have hc := c.toNat_lt
    simp only [base64urlDigits, List.filterMap_cons,
      base64Value_base64urlDigit (a.toNat / 4) (by omega),
      base64Value_base64urlDigit (a.toNat % 4 * 16 + b.toNat / 16) (by omega),
      base64Value_base64urlDigit (b.toNat % 16 * 4 + c.toNat / 64) (by omega),
      base64Value_base64urlDigit (c.toNat % 64) (by omega), base64Bytes, ih]
    rw [ofNat_eq_of_toNat (a := a) (by omega), ofNat_eq_of_toNat (a := b) (by omega),
      ofNat_eq_of_toNat (a := c) (by omega)]

/-! ### From one alphabet to the other -/

/-- A character in the place of another. -/
def replaceChar (old new c : Char) : Char := if c = old then new else c

/-- The digit for URLs that stands for a base64 digit is no padding. -/
theorem replaceChar_base64Digit : ∀ n < 64,
    replaceChar '/' '_' (replaceChar '+' '-' (base64Digit n)) = base64urlDigit n ∧
      base64urlDigit n ≠ '=' := by
  decide +kernel

/-- The base64 text becomes the text for URLs if two digits are replaced and the padding is left
out. -/
theorem filter_map_base64Digits (bs : List UInt8) :
    (((base64Digits bs).map (replaceChar '+' '-')).map (replaceChar '/' '_')).filter (· ≠ '=') =
      base64urlDigits bs := by
  have hpad : replaceChar '/' '_' (replaceChar '+' '-' '=') = '=' := by decide
  have hdigit : ∀ n < 64, ∀ cs : List Char,
      (replaceChar '/' '_' (replaceChar '+' '-' (base64Digit n)) :: cs).filter (· ≠ '=') =
        base64urlDigit n :: cs.filter (· ≠ '=') := by
    intro n hn cs
    obtain ⟨heq, hne⟩ := replaceChar_base64Digit n hn
    rw [heq, List.filter_cons_of_pos (by simpa using hne)]
  have hpadding : ∀ cs : List Char, ('=' :: cs).filter (· ≠ '=') = cs.filter (· ≠ '=') :=
    fun cs => List.filter_cons_of_neg (by decide)
  induction bs using base64Digits.induct with
  | case1 => rfl
  | case2 a =>
    have ha := a.toNat_lt
    simp only [base64Digits, base64urlDigits, List.map_cons, List.map_nil, hpad,
      hdigit (a.toNat / 4) (by omega), hdigit (a.toNat % 4 * 16) (by omega), hpadding,
      List.filter_nil]
  | case3 a b =>
    have ha := a.toNat_lt
    have hb := b.toNat_lt
    simp only [base64Digits, base64urlDigits, List.map_cons, List.map_nil, hpad,
      hdigit (a.toNat / 4) (by omega), hdigit (a.toNat % 4 * 16 + b.toNat / 16) (by omega),
      hdigit (b.toNat % 16 * 4) (by omega), hpadding, List.filter_nil]
  | case4 a b c bs ih =>
    have ha := a.toNat_lt
    have hb := b.toNat_lt
    have hc := c.toNat_lt
    simp only [base64Digits, base64urlDigits, List.map_cons,
      hdigit (a.toNat / 4) (by omega), hdigit (a.toNat % 4 * 16 + b.toNat / 16) (by omega),
      hdigit (b.toNat % 16 * 4 + c.toNat / 64) (by omega), hdigit (c.toNat % 64) (by omega), ih]

/-- A text for URLs and the base64 text that it stands for are decoded to the same bytes. -/
theorem base64Decode_map (cs : List Char) :
    base64Decode (String.ofList ((cs.map (replaceChar '-' '+')).map (replaceChar '_' '/'))) =
      base64Decode (String.ofList cs) := by
  have hvalue : ∀ c, base64Value (replaceChar '_' '/' (replaceChar '-' '+' c)) = base64Value c := by
    intro c
    by_cases hminus : c = '-'
    · subst hminus
      decide
    by_cases hlow : c = '_'
    · subst hlow
      decide
    simp [replaceChar, hminus, hlow]
  rw [base64Decode, base64Decode, String.toList_ofList, String.toList_ofList, List.map_map,
    List.filterMap_map]
  exact congrArg (fun f => base64Bytes (cs.filterMap f)) (funext hvalue)

/-- A text for URLs has no character that is not in the alphabet. -/
theorem notMem_base64urlDigits {c : Char} (hc : ∀ n < 64, base64urlDigit n ≠ c)
    (bs : List UInt8) : c ∉ base64urlDigits bs := by
  induction bs using base64urlDigits.induct with
  | case1 => simp [base64urlDigits]
  | case2 a =>
    have ha := a.toNat_lt
    simp only [base64urlDigits, List.mem_cons, List.not_mem_nil, or_false, not_or]
    exact ⟨(hc _ (by omega)).symm, (hc _ (by omega)).symm⟩
  | case3 a b =>
    have ha := a.toNat_lt
    have hb := b.toNat_lt
    simp only [base64urlDigits, List.mem_cons, List.not_mem_nil, or_false, not_or]
    exact ⟨(hc _ (by omega)).symm, (hc _ (by omega)).symm, (hc _ (by omega)).symm⟩
  | case4 a b c' bs ih =>
    have ha := a.toNat_lt
    have hb := b.toNat_lt
    have hc' := c'.toNat_lt
    simp only [base64urlDigits, List.mem_cons, not_or]
    exact ⟨(hc _ (by omega)).symm, (hc _ (by omega)).symm, (hc _ (by omega)).symm,
      (hc _ (by omega)).symm, ih⟩

/-! ### UTF-8 -/

/-- The bytes of a text. -/
def utf8Bytes (text : String) : List UInt8 := text.toList.flatMap String.utf8EncodeChar

/-- The characters of a byte string of which the first `skip` bytes belong to a character that has
been read. -/
def utf8CharsAfter : ℕ → List UInt8 → List Char
  | _, [] => []
  | skip + 1, _ :: bs => utf8CharsAfter skip bs
  | 0, b :: bs =>
    match (b :: bs).toByteArray.utf8DecodeChar? 0 with
    | some c => c :: utf8CharsAfter (c.utf8Size - 1) bs
    | none => Char.ofNat 0xFFFD :: utf8CharsAfter 0 bs

/-- The text of a byte string. -/
def utf8Text (bs : List UInt8) : String := String.ofList (utf8CharsAfter 0 bs)

theorem utf8CharsAfter_append (bs bs' : List UInt8) :
    utf8CharsAfter bs.length (bs ++ bs') = utf8CharsAfter 0 bs' := by
  induction bs with
  | nil => rfl
  | cons b bs ih =>
    rw [List.cons_append, List.length_cons, utf8CharsAfter]
    exact ih

theorem utf8CharsAfter_utf8EncodeChar (c : Char) (bs : List UInt8) :
    utf8CharsAfter 0 (String.utf8EncodeChar c ++ bs) = c :: utf8CharsAfter 0 bs := by
  have hread := ByteArray.utf8DecodeChar?_utf8EncodeChar_append (b := bs.toByteArray) (c := c)
  rw [← List.toByteArray_append] at hread
  have hlength := String.length_utf8EncodeChar c
  have hsize := c.utf8Size_pos
  rcases hencoded : String.utf8EncodeChar c with _ | ⟨b, rest⟩
  · rw [hencoded, List.length_nil] at hlength
    omega
  · rw [hencoded, List.length_cons] at hlength
    rw [hencoded, List.cons_append] at hread
    rw [List.cons_append, utf8CharsAfter, hread]
    have hrest : c.utf8Size - 1 = rest.length := by omega
    simp only [hrest, utf8CharsAfter_append]

/-- **UTF-8.** Decoding the bytes of a text gives the text. -/
theorem utf8Text_utf8Bytes (text : String) : utf8Text (utf8Bytes text) = text := by
  have hchars : ∀ cs : List Char, utf8CharsAfter 0 (cs.flatMap String.utf8EncodeChar) = cs := by
    intro cs
    induction cs with
    | nil => rfl
    | cons c cs ih => rw [List.flatMap_cons, utf8CharsAfter_utf8EncodeChar, ih]
  rw [utf8Text, utf8Bytes, hchars, String.ofList_toList]

end Foundation
