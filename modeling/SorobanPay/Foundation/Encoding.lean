import Mathlib.Data.Int.Notation
import Mathlib.Logic.Function.Basic
import Mathlib.Tactic.Common

/-!
# Text encodings of bytes and numbers

The hexadecimal and base64 renderings of byte strings, and the decimal rendering of integers. Where
a program uses such a text as a key or compares it with another, what matters is that different
values have different texts.

## Main definitions

* `hexText`: two lower-case hexadecimal digits for each byte.
* `base64Text`: four digits of the base64 alphabet for three bytes, padded with `=`.

## Main results

* `hexText_injective`, `base64Text_injective`: different byte strings have different texts.
* `length_hexText`, `length_base64Text`: the lengths of the texts.
* `toString_int_injective`: different integers have different decimal texts.
* `append_colon_toString_inj`: a text and an integer that are joined by a colon.
-/

set_option autoImplicit false

namespace Foundation

/-! ### Hexadecimal -/

/-- The hexadecimal digits of a byte string. -/
def hexDigits : List UInt8 → List Char
  | [] => []
  | b :: bs => (b.toNat / 16).digitChar :: (b.toNat % 16).digitChar :: hexDigits bs

/-- The hexadecimal text of a byte string. -/
def hexText (bs : List UInt8) : String := String.ofList (hexDigits bs)

theorem digitChar_injOn : ∀ m < 16, ∀ n < 16, m.digitChar = n.digitChar → m = n := by decide

theorem hexDigits_injective : Function.Injective hexDigits := by
  intro bs
  induction bs with
  | nil =>
    intro bs' h
    cases bs' with
    | nil => rfl
    | cons => cases h
  | cons b bs ih =>
    intro bs' h
    cases bs' with
    | nil => cases h
    | cons b' bs' =>
      have hb := b.toNat_lt
      have hb' := b'.toNat_lt
      simp only [hexDigits, List.cons.injEq] at h
      have hhigh := digitChar_injOn _ (by omega) _ (by omega) h.1
      have hlow := digitChar_injOn _ (by omega) _ (by omega) h.2.1
      rw [ih h.2.2, UInt8.toNat_inj.1 (show b.toNat = b'.toNat by omega)]

theorem hexText_injective : Function.Injective hexText :=
  fun _ _ h => hexDigits_injective (String.ofList_injective h)

theorem length_hexText (bs : List UInt8) : (hexText bs).length = 2 * bs.length := by
  rw [hexText, String.length_ofList]
  induction bs with
  | nil => rfl
  | cons b bs ih =>
    simp only [hexDigits, List.length_cons, ih]
    omega

/-- What holds of the digits holds of the characters of the text. -/
theorem forall_mem_hexText {p : Char → Prop} (hp : ∀ n < 16, p n.digitChar) (bs : List UInt8) :
    ∀ c ∈ (hexText bs).toList, p c := by
  rw [hexText, String.toList_ofList]
  induction bs with
  | nil => simp [hexDigits]
  | cons b bs ih =>
    have hb := b.toNat_lt
    rw [hexDigits, List.forall_mem_cons, List.forall_mem_cons]
    exact ⟨hp _ (by omega), hp _ (by omega), ih⟩

/-! ### Base64 -/

/-- The base64 alphabet. -/
def base64Alphabet : List Char :=
  "ABCDEFGHIJKLMNOPQRSTUVWXYZabcdefghijklmnopqrstuvwxyz0123456789+/".toList

/-- A base64 digit; its argument is below 64. -/
def base64Digit (n : ℕ) : Char := base64Alphabet.getD n '='

/-- The base64 digits of a byte string, with padding. -/
def base64Digits : List UInt8 → List Char
  | [] => []
  | [a] => [base64Digit (a.toNat / 4), base64Digit (a.toNat % 4 * 16), '=', '=']
  | [a, b] =>
    [base64Digit (a.toNat / 4), base64Digit (a.toNat % 4 * 16 + b.toNat / 16),
      base64Digit (b.toNat % 16 * 4), '=']
  | a :: b :: c :: bs =>
    base64Digit (a.toNat / 4) :: base64Digit (a.toNat % 4 * 16 + b.toNat / 16) ::
      base64Digit (b.toNat % 16 * 4 + c.toNat / 64) :: base64Digit (c.toNat % 64) :: base64Digits bs

/-- The base64 text of a byte string. -/
def base64Text (bs : List UInt8) : String := String.ofList (base64Digits bs)

/-- A digit is read back by its place in the alphabet. -/
theorem idxOf_base64Digit : ∀ n < 64, base64Alphabet.idxOf (base64Digit n) = n := by decide +kernel

theorem base64Digit_injOn (m : ℕ) (hm : m < 64) (n : ℕ) (hn : n < 64)
    (h : base64Digit m = base64Digit n) : m = n := by
  rw [← idxOf_base64Digit m hm, h, idxOf_base64Digit n hn]

theorem base64Digit_ne_pad : ∀ n < 64, base64Digit n ≠ '=' := by decide +kernel

theorem base64Digits_injective : Function.Injective base64Digits := by
  intro bs
  induction bs using base64Digits.induct with
  | case1 =>
    intro bs' h
    rcases bs' with _ | ⟨a', _ | ⟨b', _ | ⟨c', bs'⟩⟩⟩ <;> simp [base64Digits] at h ⊢
  | case2 a =>
    have ha := a.toNat_lt
    intro bs' h
    rcases bs' with _ | ⟨a', _ | ⟨b', _ | ⟨c', bs'⟩⟩⟩ <;>
      simp only [base64Digits, List.cons.injEq, reduceCtorEq, and_true] at h
    · have ha' := a'.toNat_lt
      have hhigh := base64Digit_injOn _ (by omega) _ (by omega) h.1
      have hlow := base64Digit_injOn _ (by omega) _ (by omega) h.2
      rw [UInt8.toNat_inj.1 (show a.toNat = a'.toNat by omega)]
    · have hb' := b'.toNat_lt
      exact (base64Digit_ne_pad _ (by omega) h.2.2.symm).elim
    · have hb' := b'.toNat_lt
      have hc' := c'.toNat_lt
      exact (base64Digit_ne_pad _ (by omega) h.2.2.1.symm).elim
  | case3 a b =>
    have ha := a.toNat_lt
    have hb := b.toNat_lt
    intro bs' h
    rcases bs' with _ | ⟨a', _ | ⟨b', _ | ⟨c', bs'⟩⟩⟩ <;>
      simp only [base64Digits, List.cons.injEq, reduceCtorEq, and_true] at h
    · exact (base64Digit_ne_pad _ (by omega) h.2.2).elim
    · have ha' := a'.toNat_lt
      have hb' := b'.toNat_lt
      have hhigh := base64Digit_injOn _ (by omega) _ (by omega) h.1
      have hmid := base64Digit_injOn _ (by omega) _ (by omega) h.2.1
      have hlow := base64Digit_injOn _ (by omega) _ (by omega) h.2.2
      rw [UInt8.toNat_inj.1 (show a.toNat = a'.toNat by omega),
        UInt8.toNat_inj.1 (show b.toNat = b'.toNat by omega)]
    · have hc' := c'.toNat_lt
      exact (base64Digit_ne_pad _ (by omega) h.2.2.2.1.symm).elim
  | case4 a b c bs ih =>
    have ha := a.toNat_lt
    have hb := b.toNat_lt
    have hc := c.toNat_lt
    intro bs' h
    rcases bs' with _ | ⟨a', _ | ⟨b', _ | ⟨c', bs'⟩⟩⟩ <;>
      simp only [base64Digits, List.cons.injEq, reduceCtorEq] at h
    · exact (base64Digit_ne_pad _ (by omega) h.2.2.1).elim
    · exact (base64Digit_ne_pad _ (by omega) h.2.2.2.1).elim
    · have ha' := a'.toNat_lt
      have hb' := b'.toNat_lt
      have hc' := c'.toNat_lt
      have h₁ := base64Digit_injOn _ (by omega) _ (by omega) h.1
      have h₂ := base64Digit_injOn _ (by omega) _ (by omega) h.2.1
      have h₃ := base64Digit_injOn _ (by omega) _ (by omega) h.2.2.1
      have h₄ := base64Digit_injOn _ (by omega) _ (by omega) h.2.2.2.1
      rw [ih h.2.2.2.2, UInt8.toNat_inj.1 (show a.toNat = a'.toNat by omega),
        UInt8.toNat_inj.1 (show b.toNat = b'.toNat by omega),
        UInt8.toNat_inj.1 (show c.toNat = c'.toNat by omega)]

theorem base64Text_injective : Function.Injective base64Text :=
  fun _ _ h => base64Digits_injective (String.ofList_injective h)

theorem length_base64Text (bs : List UInt8) :
    (base64Text bs).length = 4 * ((bs.length + 2) / 3) := by
  rw [base64Text, String.length_ofList]
  induction bs using base64Digits.induct with
  | case1 | case2 | case3 => simp [base64Digits]
  | case4 a b c bs ih =>
    simp only [base64Digits, List.length_cons, ih]
    omega

/-! ### Decimal -/

theorem repr_eq_repr_iff {m n : ℕ} : m.repr = n.repr ↔ m = n := by
  refine ⟨fun h => ?_, fun h => h ▸ rfl⟩
  have hdigits : Nat.toDigits 10 m = Nat.toDigits 10 n := by
    rw [← Nat.toList_repr, ← Nat.toList_repr, h]
  rw [← Nat.ofDigitChars_ten_toDigits (n := m), hdigits, Nat.ofDigitChars_ten_toDigits]

/-- A decimal text consists of digits. -/
theorem notMem_toList_repr {c : Char} (hc : c.isDigit = false) (n : ℕ) : c ∉ n.repr.toList := by
  intro hmem
  rw [Nat.toList_repr] at hmem
  have hdigit : c.isDigit = true := Nat.isDigit_of_mem_toDigits (by decide) (by decide) hmem
  rw [hc] at hdigit
  exact absurd hdigit (by decide)

/-- Different integers have different decimal texts. -/
theorem toString_int_injective : Function.Injective (toString : ℤ → String) := by
  have hsign : ∀ (m n : ℕ), m.repr ≠ "-" ++ (n + 1).repr := by
    intro m n h
    have hmem : '-' ∈ m.repr.toList := by
      rw [h, String.toList_append]
      exact List.mem_append_left _ (by decide)
    exact notMem_toList_repr (by decide) m hmem
  intro a b h
  cases a with
  | ofNat m =>
    cases b with
    | ofNat n => exact congrArg Int.ofNat (repr_eq_repr_iff.1 h)
    | negSucc n => exact absurd h (hsign m n)
  | negSucc m =>
    cases b with
    | ofNat n => exact absurd h.symm (hsign n m)
    | negSucc n =>
      have hrepr : (m + 1).repr = (n + 1).repr := (String.append_right_inj _).1 h
      exact congrArg Int.negSucc (Nat.succ.inj (repr_eq_repr_iff.1 hrepr))

theorem notMem_toList_toString {c : Char} (hc : c.isDigit = false) (hsign : c ≠ '-') (n : ℤ) :
    c ∉ (toString n).toList := by
  cases n with
  | ofNat m => exact notMem_toList_repr hc m
  | negSucc m =>
    change c ∉ ("-" ++ (m + 1).repr).toList
    rw [String.toList_append, List.mem_append, not_or]
    exact ⟨by simpa using hsign, notMem_toList_repr hc _⟩
/-- Two lists are split at the last place of an element in the same way. -/
theorem append_cons_inj_of_notMem_right {α : Type} {x x' z z' : List α} {a : α} (hz : a ∉ z)
    (hz' : a ∉ z') (h : x ++ a :: z = x' ++ a :: z') : x = x' ∧ z = z' := by
  rcases List.append_eq_append_iff.1 h with ⟨c, rfl, hc⟩ | ⟨c, rfl, hc⟩
  · cases c with
    | nil => exact ⟨(List.append_nil x).symm, (List.cons.inj hc).2⟩
    | cons b c =>
      refine absurd ?_ hz
      rw [(List.cons.inj hc).2]
      exact List.mem_append_right _ List.mem_cons_self
  · cases c with
    | nil => exact ⟨List.append_nil x', (List.cons.inj hc).2.symm⟩
    | cons b c =>
      refine absurd ?_ hz'
      rw [(List.cons.inj hc).2]
      exact List.mem_append_right _ List.mem_cons_self

/-- A text and an integer that are joined by a colon. -/
theorem append_colon_toString_inj {text text' : String} {m n : ℤ}
    (h : text ++ ":" ++ toString m = text' ++ ":" ++ toString n) : text = text' ∧ m = n := by
  have hlists := congrArg String.toList h
  simp only [String.toList_append, List.append_assoc] at hlists
  obtain ⟨htext, hnumber⟩ := append_cons_inj_of_notMem_right
    (notMem_toList_toString (by decide) (by decide) m)
    (notMem_toList_toString (by decide) (by decide) n) hlists
  exact ⟨String.toList_inj.1 htext, toString_int_injective (String.toList_inj.1 hnumber)⟩

end Foundation
