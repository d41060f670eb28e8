import Mathlib.Algebra.Group.Nat.Defs
import Mathlib.Data.List.DropRight
import SorobanPay.Backend.WebhookNotifier
import SorobanPay.Backend.Wire
import SorobanPay.Foundation.Encoding

/-!
# Values on the wire as JavaScript sees them

The frontend decodes topics and data of events with `xdr.ScVal.fromXDR` and `scValToNative` of the
Stellar SDK, and converts what it gets with `String`, `Number` and `BigInt`. `StellarSdk` is what it
relies on in the SDK, and `JsNumber` what it relies on in the numbers of the language, which are
exact up to `2 ^ 53`. What throws has no result.

## Main definitions

* `JsNumber`, `Native`: numbers and values.
* `bigIntOfText`: `BigInt` of a text.
* `Native.toText`: `String` of a value.
* `StellarSdk`: decoding.
* `Fits`, `Received`: an event that the contract can publish, as it is received.

## Main results

* `bigIntOfText_eq_none_of_comma`: a text with a comma is no number.
* `bigIntOfText_toString`: the decimal text of an integer is read back.
* `Received.natives`: the topics and the data of an event, decoded.
-/

set_option autoImplicit false

namespace SorobanPay.Frontend

open Foundation WebhookNotifier

/-! ### Numbers -/

/-- The conversions of numbers: `Number` of a big integer and of a text, `BigInt` of a number
without its fraction, and `String` and `Boolean` of a number. Integers up to `2 ^ 53` are numbers.
-/
structure JsNumber (N : Type) where
  ofBigInt : ℤ → N
  ofText : String → N
  toBigInt : N → Option ℤ
  text : N → String
  truthy : N → Bool
  toBigInt_ofBigInt : ∀ n : ℤ, n.natAbs ≤ 2 ^ 53 → toBigInt (ofBigInt n) = some n
  text_ofBigInt : ∀ n : ℤ, n.natAbs ≤ 2 ^ 53 → text (ofBigInt n) = toString n

/-- The digit that a character is in a base. -/
def digitOf (base : ℕ) (c : Char) : Option ℕ :=
  let d :=
    if '0' ≤ c ∧ c ≤ '9' then c.toNat - '0'.toNat
    else if 'a' ≤ c ∧ c ≤ 'z' then c.toNat - 'a'.toNat + 10
    else if 'A' ≤ c ∧ c ≤ 'Z' then c.toNat - 'A'.toNat + 10
    else base
  if d < base then some d else none

/-- The number that a list of one or more digits stands for. -/
def digitsValue (base : ℕ) (cs : List Char) : Option ℕ :=
  if cs = [] then none
  else (cs.mapM (digitOf base)).map fun ds => ds.foldl (fun n d => base * n + d) 0

/-- `BigInt` of a text that begins and ends with no white space. -/
def bigIntOfChars : List Char → Option ℤ
  | [] => some 0
  | '0' :: 'x' :: cs | '0' :: 'X' :: cs => (digitsValue 16 cs).map (↑)
  | '0' :: 'o' :: cs | '0' :: 'O' :: cs => (digitsValue 8 cs).map (↑)
  | '0' :: 'b' :: cs | '0' :: 'B' :: cs => (digitsValue 2 cs).map (↑)
  | '-' :: cs => (digitsValue 10 cs).map fun n => -n
  | '+' :: cs => (digitsValue 10 cs).map (↑)
  | cs => (digitsValue 10 cs).map (↑)

/-- `BigInt` of a text. -/
def bigIntOfText (text : String) : Option ℤ := bigIntOfChars (trim text.toList)

theorem mem_dropWhile_of_not {α : Type} {p : α → Bool} {l : List α} {a : α} (h : a ∈ l)
    (ha : p a = false) : a ∈ l.dropWhile p := by
  rw [← List.takeWhile_append_dropWhile (p := p) (l := l), List.mem_append] at h
  refine h.resolve_left fun htake => ?_
  rw [List.all_eq_true.1 List.all_takeWhile a htake] at ha
  exact Bool.noConfusion ha

theorem digitsValue_eq_none_of_comma {base : ℕ} {cs : List Char} (h : ',' ∈ cs) :
    digitsValue base cs = none := by
  have hcomma : digitOf base ',' = none := by simp [digitOf]
  have hdigits : cs.mapM (digitOf base) = none := by
    induction cs with
    | nil => simp at h
    | cons c cs ih =>
      rw [List.mapM_cons]
      rcases List.mem_cons.1 h with rfl | h
      · rw [hcomma]
        rfl
      · rw [ih h]
        cases digitOf base c <;> rfl
  rw [digitsValue, hdigits]
  split_ifs <;> rfl

theorem bigIntOfChars_eq_none_of_comma {cs : List Char} (h : ',' ∈ cs) :
    bigIntOfChars cs = none := by
  unfold bigIntOfChars
  split
  · simp at h
  all_goals
    rw [digitsValue_eq_none_of_comma (by simpa using h)]
    rfl

/-- What is no white space is not removed. -/
theorem mem_trim {cs : List Char} {c : Char} (h : c ∈ cs) (hc : isTrimmed c = false) :
    c ∈ trim cs := by
  rw [trim, List.mem_reverse]
  exact mem_dropWhile_of_not (List.mem_reverse.2 (mem_dropWhile_of_not h hc)) hc

/-- What has been trimmed is not trimmed again. -/
theorem trim_trim (cs : List Char) : trim (trim cs) = trim cs := by
  have htrim : ∀ l : List Char, trim l = (l.dropWhile isTrimmed).rdropWhile isTrimmed :=
    fun _ => rfl
  have hdrop : (trim cs).dropWhile isTrimmed = trim cs := by
    rw [htrim, List.dropWhile_eq_self_iff]
    intro hpos
    -- the first character is the first one that was kept
    rw [(List.rdropWhile_prefix isTrimmed (cs.dropWhile isTrimmed)).getElem hpos]
    exact List.dropWhile_get_zero_not isTrimmed cs _
  rw [htrim, hdrop, htrim, List.rdropWhile_idempotent]

/-- A text with a comma is no number. -/
theorem bigIntOfText_eq_none_of_comma {text : String} (h : ',' ∈ text.toList) :
    bigIntOfText text = none :=
  bigIntOfChars_eq_none_of_comma (mem_trim h (by decide))

/-! ### Decimal texts -/

theorem digitOf_of_isDigit {c : Char} (h : c.isDigit = true) :
    digitOf 10 c = some (c.toNat - '0'.toNat) := by
  obtain ⟨hlow, hhigh⟩ := toNat_of_isDigit h
  have hdigit : '0' ≤ c ∧ c ≤ '9' := by
    simpa [Char.le_def, UInt32.le_iff_toNat_le] using And.intro hlow hhigh
  have hlt : c.toNat - '0'.toNat < 10 := by
    change c.toNat - 48 < 10
    omega
  rw [digitOf, if_pos hdigit]
  exact if_pos hlt

theorem digitsValue_of_isDigit {cs : List Char} (hcs : cs ≠ [])
    (h : ∀ c ∈ cs, c.isDigit = true) : digitsValue 10 cs = some (Nat.ofDigitChars 10 cs 0) := by
  have hmap : cs.mapM (digitOf 10) = some (cs.map fun c => c.toNat - '0'.toNat) := by
    clear hcs
    induction cs with
    | nil => rfl
    | cons c cs ih =>
      rw [List.mapM_cons, digitOf_of_isDigit (h c List.mem_cons_self),
        ih fun c' hc' => h c' (List.mem_cons_of_mem _ hc')]
      rfl
  rw [digitsValue, if_neg hcs, hmap, Option.map_some, List.foldl_map, Nat.ofDigitChars_eq_foldl]

/-- `BigInt` of a text of digits. -/
theorem bigIntOfChars_of_isDigit {cs : List Char} (hcs : cs ≠ [])
    (h : ∀ c ∈ cs, c.isDigit = true) :
    bigIntOfChars cs = some (Nat.ofDigitChars 10 cs 0 : ℤ) := by
  have hvalue := digitsValue_of_isDigit hcs h
  unfold bigIntOfChars
  split
  · exact (hcs rfl).elim
  -- the prefixes of other bases, and the signs, are no digits
  all_goals first
    | rw [hvalue]; rfl
    | simp [Char.isDigit] at h

/-- `BigInt` of a text of digits with a minus sign. -/
theorem bigIntOfChars_neg {cs : List Char} (hcs : cs ≠ []) (h : ∀ c ∈ cs, c.isDigit = true) :
    bigIntOfChars ('-' :: cs) = some (-(Nat.ofDigitChars 10 cs 0 : ℤ)) := by
  have hvalue := digitsValue_of_isDigit hcs h
  simp [bigIntOfChars, hvalue]

/-- `BigInt` of the decimal text of an integer. -/
theorem bigIntOfText_toString (n : ℤ) : bigIntOfText (toString n) = some n := by
  have hdigits : ∀ m : ℕ, ∀ c ∈ Nat.toDigits 10 m, c.isDigit = true := fun m c hc =>
    Nat.isDigit_of_mem_toDigits (by decide) (by decide) hc
  have hvalue : ∀ m : ℕ, Nat.ofDigitChars 10 (Nat.toDigits 10 m) 0 = m := fun m =>
    Nat.ofDigitChars_ten_toDigits
  rcases n with m | m
  · have htext : (toString (Int.ofNat m)).toList = Nat.toDigits 10 m := Nat.toList_repr
    rw [bigIntOfText, htext, trim_eq_self fun c hc => isTrimmed_of_isDigit (hdigits m c hc),
      bigIntOfChars_of_isDigit Nat.toDigits_ne_nil (hdigits m), hvalue]
    rfl
  · have htext : (toString (Int.negSucc m)).toList = '-' :: Nat.toDigits 10 (m + 1) := by
      rw [show toString (Int.negSucc m) = "-" ++ (m + 1).repr from rfl, String.toList_append,
        Nat.toList_repr]
      rfl
    have htrim : ∀ c ∈ '-' :: Nat.toDigits 10 (m + 1), isTrimmed c = false :=
      List.forall_mem_cons.2 ⟨by decide, fun c hc => isTrimmed_of_isDigit (hdigits _ c hc)⟩
    rw [bigIntOfText, htext, trim_eq_self htrim,
      bigIntOfChars_neg Nat.toDigits_ne_nil (hdigits _), hvalue]
    rfl

/-! ### Values -/

/-- A value of the language, over its numbers. An object is what `String` makes of it and what can
be iterated in it. -/
inductive Native (N : Type)
  | null
  | undefined
  | boolean (b : Bool)
  | number (n : N)
  | bigint (n : ℤ)
  | string (s : String)
  | array (vs : List (Native N))
  | object (text : Option String) (items : Option (List (Native N)))

namespace Native

variable {N : Type} (J : JsNumber N)

mutual

/-- `String` of a value. -/
def toText : Native N → Option String
  | null => some "null"
  | undefined => some "undefined"
  | boolean b => some (toString b)
  | number n => some (J.text n)
  | bigint n => some (toString n)
  | string s => some s
  | array vs => (elementTexts vs).map (String.intercalate ",")
  | object text _ => text

/-- The texts that the elements of an array are joined from. -/
def elementTexts : List (Native N) → Option (List String)
  | [] => some []
  | null :: vs | undefined :: vs => (elementTexts vs).map ("" :: ·)
  | v :: vs => (toText v).bind fun text => (elementTexts vs).map (text :: ·)

end

theorem length_elementTexts {vs : List (Native N)} {texts : List String}
    (h : elementTexts J vs = some texts) : texts.length = vs.length := by
  induction vs generalizing texts with
  | nil =>
    obtain rfl := Option.some.inj h
    rfl
  | cons v vs ih =>
    have hcons : ∃ text rest, elementTexts J vs = some rest ∧ texts = text :: rest := by
      cases v with
      | null | undefined =>
        simp only [elementTexts] at h
        obtain ⟨rest, hrest, rfl⟩ := Option.map_eq_some_iff.1 h
        exact ⟨_, rest, hrest, rfl⟩
      | _ =>
        simp only [elementTexts] at h
        obtain ⟨text, -, h⟩ := Option.bind_eq_some_iff.1 h
        obtain ⟨rest, hrest, rfl⟩ := Option.map_eq_some_iff.1 h
        exact ⟨text, rest, hrest, rfl⟩
    obtain ⟨text, rest, hrest, rfl⟩ := hcons
    rw [List.length_cons, List.length_cons, ih hrest]

/-- `Boolean` of a value. -/
def truthy : Native N → Bool
  | null | undefined => false
  | boolean b => b
  | number n => J.truthy n
  | bigint n => n ≠ 0
  | string s => s ≠ ""
  | array _ | object .. => true

/-- What is iterated in a value. -/
def items : Native N → Option (List (Native N))
  | string s => some (s.toList.map fun c => string (String.singleton c))
  | array vs => some vs
  | object _ items => items
  | _ => none

/-- The two values that `[a, b]` is bound to. -/
def pair (v : Native N) : Option (Native N × Native N) :=
  v.items.map fun vs => (vs[0]?.getD undefined, vs[1]?.getD undefined)

end Native

/-! ### The SDK -/

/-- What the frontend relies on in the Stellar SDK. -/
structure StellarSdk {N : Type} (J : JsNumber N) where
  fromXDR : String → Option ScVal
  scValToNative : ScVal → Option (Native N)
  addressText : ScAddress → String
  symbol : ∀ s, scValToNative (.symbol s) = some (.string s)
  address : ∀ a, scValToNative (.address a) = some (.string (addressText a))
  i128 : ∀ hi lo, scValToNative (.i128 hi lo) = some (.bigint (ScVal.i128Value hi lo))
  u64 : ∀ n, scValToNative (.u64 n) = some (.bigint n.toNat)
  u32 : ∀ n, scValToNative (.u32 n) = some (.number (J.ofBigInt n.toNat))
  vec : ∀ vs, scValToNative (.vec vs) = (vs.mapM scValToNative).map .array

variable {N Address : Type} {J : JsNumber N} (sdk : StellarSdk J) (W : Wire Address)

/-- `scValToNative(xdr.ScVal.fromXDR(raw, 'base64'))`. -/
def StellarSdk.native (raw : String) : Option (Native N) :=
  (sdk.fromXDR raw).bind sdk.scValToNative

/-- The text of an address of the contract. -/
def StellarSdk.textOf (a : Address) : String := sdk.addressText (W.toScAddress a)

/-! ### Events -/

/-- A number that is an `i128`. -/
def IsI128 (a : ℤ) : Prop := -2 ^ 127 ≤ a ∧ a < 2 ^ 127

/-- The arguments of the emitter of an event are of their types. -/
def Fits : Event Address → Prop
  | .subscribe _ _ _ amount => IsI128 amount
  | .updated _ _ oldAmount newAmount oldInterval newInterval =>
    IsI128 oldAmount ∧ IsI128 newAmount ∧ oldInterval < 2 ^ 64 ∧ newInterval < 2 ^ 64
  | .paymentTransferSuccess _ _ amount => IsI128 amount
  | .paymentTransferFailure _ _ amount overdueSince => IsI128 amount ∧ overdueSince < 2 ^ 64
  | .executed _ _ _ amount nonce => IsI128 amount ∧ nonce < 2 ^ 32
  | .cancel _ _ reason => reason < 2 ^ 32
  | .batchExecuteInitiated _ batchSize => batchSize < 2 ^ 32
  | .contractMigrated _ newVersion => newVersion < 2 ^ 32
  | .subscriptionTransferred .. => True
  | .lowAllowance _ _ _ allowance required => IsI128 allowance ∧ IsI128 required
  | .paused _ _ resumeAt => ∀ t ∈ resumeAt, t < 2 ^ 64
  | .resumed _ _ nextPayment => nextPayment < 2 ^ 64
  | .feeCollected _ _ _ feeAmount => IsI128 feeAmount
  | .insufficientAllowance _ _ allowance required => IsI128 allowance ∧ IsI128 required

/-- Topics and data that are those of an event, in XDR. -/
structure Received (topic : List String) (value : String) (event : Event Address) : Prop where
  topic : topic.map sdk.fromXDR = (event.topics W).map some
  value : sdk.fromXDR value = some event.value

variable {sdk W}

/-- The topics are decoded one by one. -/
theorem Received.map_native {topic : List String} {value : String} {event : Event Address}
    (h : Received sdk W topic value event) :
    topic.map sdk.native = (event.topics W).map sdk.scValToNative := by
  have hmap := congrArg (List.map fun v : Option ScVal => v.bind sdk.scValToNative) h.topic
  rw [List.map_map, List.map_map] at hmap
  exact hmap

theorem Received.native_value {topic : List String} {value : String} {event : Event Address}
    (h : Received sdk W topic value event) : sdk.native value = sdk.scValToNative event.value := by
  rw [StellarSdk.native, h.value, Option.bind_some]

theorem scValToNative_ofI128 {a : ℤ} (ha : IsI128 a) :
    sdk.scValToNative (.ofI128 a) = some (.bigint a) := by
  rw [ScVal.ofI128, sdk.i128, ScVal.i128Value_ofI128 ha.1 ha.2]

theorem scValToNative_u64 {n : ℕ} (hn : n < 2 ^ 64) :
    sdk.scValToNative (.u64 (.ofNat n)) = some (.bigint n) := by
  have hnat : (UInt64.ofNat n).toNat = n := UInt64.toNat_ofNat_of_lt hn
  rw [sdk.u64, hnat]

theorem scValToNative_u32 {n : ℕ} (hn : n < 2 ^ 32) :
    sdk.scValToNative (.u32 (.ofNat n)) = some (.number (J.ofBigInt n)) := by
  have hnat : (UInt32.ofNat n).toNat = n := UInt32.toNat_ofNat_of_lt hn
  rw [sdk.u32, hnat]

theorem scValToNative_pair {v w : ScVal} {a b : Native N} (hv : sdk.scValToNative v = some a)
    (hw : sdk.scValToNative w = some b) :
    sdk.scValToNative (.vec [v, w]) = some (.array [a, b]) := by
  simp [sdk.vec, hv, hw]

theorem isI128_u32 {n : ℕ} (hn : n < 2 ^ 32) : IsI128 n := ⟨by omega, by omega⟩

theorem text_u32 {n : ℕ} (hn : n < 2 ^ 32) : J.text (J.ofBigInt n) = toString (n : ℤ) :=
  J.text_ofBigInt n (by omega)

theorem toBigInt_u32 {n : ℕ} (hn : n < 2 ^ 32) : J.toBigInt (J.ofBigInt n) = some (n : ℤ) :=
  J.toBigInt_ofBigInt n (by omega)

/-! ### A sample -/

/-- Integers as numbers. -/
def sampleNumber : JsNumber ℤ where
  ofBigInt n := n
  ofText text := (bigIntOfText text).getD 0
  toBigInt n := some n
  text := toString
  truthy n := n ≠ 0
  toBigInt_ofBigInt _ _ := rfl
  text_ofBigInt _ _ := rfl

mutual

/-- `scValToNative`, but for the kinds that no event has. -/
def sampleNative : ScVal → Option (Native ℤ)
  | .void => some .null
  | .u32 n => some (.number n.toNat)
  | .u64 n => some (.bigint n.toNat)
  | .i64 n => some (.bigint n.toInt)
  | .i128 hi lo => some (.bigint (ScVal.i128Value hi lo))
  | .symbol s | .string s => some (.string s)
  | .address (.account key) => some (.string ("G" ++ hexText key.val))
  | .address (.contract contractId) => some (.string ("C" ++ hexText contractId.val))
  | .address (.other _) => some (.string "")
  | .vec vs => (sampleNatives vs).map .array
  | .other _ => none

def sampleNatives : List ScVal → Option (List (Native ℤ))
  | [] => some []
  | v :: vs => do
    let w ← sampleNative v
    let ws ← sampleNatives vs
    return w :: ws

end

theorem sampleNatives_eq (vs : List ScVal) : sampleNatives vs = vs.mapM sampleNative := by
  induction vs with
  | nil => rfl
  | cons v vs ih =>
    rw [sampleNatives, ih, List.mapM_cons]

/-- The SDK, where these texts are the XDR of these values. -/
def sampleStellar (texts : List (String × ScVal)) : StellarSdk sampleNumber where
  fromXDR text := (texts.find? fun entry => entry.1 = text).map Prod.snd
  scValToNative := sampleNative
  addressText
    | .account key => "G" ++ hexText key.val
    | .contract contractId => "C" ++ hexText contractId.val
    | .other _ => ""
  symbol _ := rfl
  address a := by cases a <;> rfl
  i128 _ _ := rfl
  u64 _ := rfl
  u32 _ := rfl
  vec vs := by rw [sampleNative, sampleNatives_eq]

/-- The SDK for one event of four topics. -/
abbrev sampleStellarFor (event : Event UInt8) : StellarSdk sampleNumber :=
  sampleStellar (("data", event.value) :: ["0", "1", "2", "3"].zip (event.topics sampleWire))

/-- The topics of an `executed` event are received as these texts. -/
theorem received_sample (s m token : UInt8) (amount : ℤ) (nonce : ℕ) :
    Received (sampleStellarFor (.executed s m token amount nonce)) sampleWire ["0", "1", "2", "3"]
      "data" (.executed s m token amount nonce) := ⟨rfl, rfl⟩

end SorobanPay.Frontend
