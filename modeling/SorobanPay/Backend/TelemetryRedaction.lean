import Mathlib.Data.List.Infix

/-!
# Redaction of telemetry

`redactTelemetryPayload` of `lib/logger.ts` takes secrets out of a payload before it is logged. A
value under a sensitive key is replaced, a text under a key that speaks of an address is shortened,
a text that is a secret seed is cut, and lists and objects are gone through.

A text is the list of its UTF-16 units, and an object the list of its own entries in their order,
each key once. The numbers are left open, since they are not looked at.

## Main definitions

* `Json`: payloads.
* `redactAddress`, `redactSecret`, `redactTelemetryPayload`: redaction.
* `AgreeOutsideSensitive`: payloads that differ under sensitive keys only.
* `Json.stringValues`: the texts in a payload, keys aside.

## Main results

* `redactTelemetryPayload_eq_of_agree`: what is under a sensitive key does not matter.
* `isSeed_of_mem_stringValues`: no seed is left.
* `redactTelemetryPayload_redactTelemetryPayload`: a second redaction changes nothing.
-/

set_option autoImplicit false

namespace SorobanPay.Telemetry

/-! ### Texts -/

/-- A text, in UTF-16 units. -/
abbrev Text := List UInt16

/-- The units of a text without characters of two units. -/
def units (text : String) : Text := text.toList.map fun c => c.toNat.toUInt16

/-- `[A-Z2-7]`. -/
def isBase32 (u : UInt16) : Bool := (65 ≤ u && u ≤ 90) || (50 ≤ u && u ≤ 55)

/-- `/^S[A-Z2-7]{55}$/`, a secret seed. -/
def isSeed : Text → Bool
  | u :: rest => u == 83 && rest.length == 55 && rest.all isBase32
  | [] => false

/-- `redactAddress`. -/
def redactAddress (address : Text) : Text :=
  if address.length ≤ 16 then address
  else address.take 8 ++ units "..." ++ address.drop (address.length - 8)

/-- `redactSecret`. -/
def redactSecret (secret : Text) : Text :=
  if secret = [] then secret
  else if isSeed secret then secret.take 4 ++ units "...[REDACTED_SEED]"
  else if 8 < secret.length then secret.take 4 ++ units "...[REDACTED]"
  else units "[REDACTED]"

/-- The small letter of a capital one. Beyond ASCII nothing counts as a letter of these names. -/
def lowerUnit (u : UInt16) : UInt16 := if 65 ≤ u ∧ u ≤ 90 then u + 32 else u

def lower (text : Text) : Text := text.map lowerUnit

/-- The names in `SENSITIVE_KEY_PATTERN`. -/
def sensitiveKeys : List Text :=
  ["password", "secret", "seed", "authorization", "token", "apikey", "privatekey",
    "webhooksecret"].map units

/-- `SENSITIVE_KEY_PATTERN`, which does not look at the case of letters. -/
def isSensitive (key : Text) : Bool := sensitiveKeys.contains (lower key)

/-- Whether a key speaks of an address. -/
def mentionsAddress (key : Text) : Bool := decide (units "address" <:+: lower key)

theorem length_of_isSeed {text : Text} (h : isSeed text = true) : text.length = 56 := by
  cases text with
  | nil => simp [isSeed] at h
  | cons u rest =>
    simp only [isSeed, Bool.and_eq_true, beq_iff_eq] at h
    rw [List.length_cons, h.1.2]

theorem isBase32_of_isSeed {text : Text} (h : isSeed text = true) {u : UInt16} (hu : u ∈ text) :
    isBase32 u = true := by
  cases text with
  | nil => simp at hu
  | cons v rest =>
    simp only [isSeed, Bool.and_eq_true, beq_iff_eq, List.all_eq_true] at h
    rcases List.mem_cons.1 hu with rfl | hrest
    · rw [h.1.1]
      decide
    · exact h.2 u hrest

/-- A text with a dot is no seed. -/
theorem isSeed_of_dot {text : Text} (h : 46 ∈ text) : isSeed text = false := by
  by_contra hseed
  rw [Bool.not_eq_false] at hseed
  exact absurd (isBase32_of_isSeed hseed h) (by decide)

theorem isSeed_redactAddress (address : Text) : isSeed (redactAddress address) = false := by
  unfold redactAddress
  split_ifs with hlength
  · by_contra hseed
    rw [Bool.not_eq_false] at hseed
    have := length_of_isSeed hseed
    omega
  · exact isSeed_of_dot (by simp [units])

theorem isSeed_redactSecret {secret : Text} (h : isSeed secret = true) :
    isSeed (redactSecret secret) = false := by
  have hne : secret ≠ [] := fun hnil => by simp [hnil, isSeed] at h
  rw [redactSecret, if_neg hne, if_pos h]
  exact isSeed_of_dot (by simp [units])

/-- A shortened address is not shortened further. -/
theorem redactAddress_redactAddress (address : Text) :
    redactAddress (redactAddress address) = redactAddress address := by
  by_cases hshort : address.length ≤ 16
  · simp only [redactAddress, if_pos hshort]
  · have hhead : (address.take 8).length = 8 := by
      rw [List.length_take]
      omega
    have htail : (address.drop (address.length - 8)).length = 8 := by
      rw [List.length_drop]
      omega
    have hdots : (units "...").length = 3 := rfl
    have hlength : (redactAddress address).length = 19 := by
      rw [redactAddress, if_neg hshort, List.length_append, List.length_append, hhead, htail, hdots]
    have htake : (redactAddress address).take 8 = address.take 8 := by
      rw [redactAddress, if_neg hshort, List.append_assoc, List.take_left' hhead]
    have hdrop : (redactAddress address).drop 11 = address.drop (address.length - 8) := by
      rw [redactAddress, if_neg hshort,
        List.drop_left' (by rw [List.length_append, hhead, hdots])]
    rw [redactAddress, if_neg (by omega), hlength, htake, hdrop, redactAddress, if_neg hshort]

/-! ### Payloads -/

/-- A payload. -/
inductive Json (N : Type)
  | null
  | boolean (b : Bool)
  | number (n : N)
  | string (s : Text)
  | array (items : List (Json N))
  | object (entries : List (Text × Json N))

variable {N : Type}

/-- What is written under a key, where `redacted` is the value as it is redacted on its own. -/
def redactField (key : Text) (value redacted : Json N) : Json N :=
  if isSensitive key then .string (units "[REDACTED]")
  else
    match value with
    | .string s => if mentionsAddress key then .string (redactAddress s) else redacted
    | _ => redacted

mutual

/-- `redactTelemetryPayload`. An entry that is written to `__proto__` is no entry of the result. -/
def redactTelemetryPayload : Json N → Json N
  | .null => .null
  | .boolean b => .boolean b
  | .number n => .number n
  | .string s => if isSeed s then .string (redactSecret s) else .string s
  | .array items => .array (redactItems items)
  | .object entries => .object (redactEntries entries)

def redactItems : List (Json N) → List (Json N)
  | [] => []
  | item :: items => redactTelemetryPayload item :: redactItems items

def redactEntries : List (Text × Json N) → List (Text × Json N)
  | [] => []
  | (key, value) :: entries =>
    if key = units "__proto__" then redactEntries entries
    else (key, redactField key value (redactTelemetryPayload value)) :: redactEntries entries

end

/-- Each key is written once. -/
theorem map_fst_redactEntries (entries : List (Text × Json N)) :
    (redactEntries entries).map Prod.fst =
      (entries.map Prod.fst).filter (· ≠ units "__proto__") := by
  induction entries with
  | nil => simp [redactEntries]
  | cons entry entries ih =>
    obtain ⟨key, value⟩ := entry
    rw [redactEntries, List.map_cons]
    by_cases hkey : key = units "__proto__"
    · rw [if_pos hkey, ih, List.filter_cons_of_neg (by simpa using hkey)]
    · rw [if_neg hkey, List.map_cons, ih, List.filter_cons_of_pos (by simpa using hkey)]

mutual

/-- The texts in a payload, keys aside. -/
def Json.stringValues : Json N → List Text
  | .string s => [s]
  | .array items => itemsStringValues items
  | .object entries => entriesStringValues entries
  | _ => []

def itemsStringValues : List (Json N) → List Text
  | [] => []
  | item :: items => item.stringValues ++ itemsStringValues items

def entriesStringValues : List (Text × Json N) → List Text
  | [] => []
  | (_, value) :: entries => value.stringValues ++ entriesStringValues entries

end

mutual

/-- The payloads differ in values under sensitive keys only. -/
inductive AgreeOutsideSensitive : Json N → Json N → Prop
  | same (payload : Json N) : AgreeOutsideSensitive payload payload
  | array {items items' : List (Json N)} :
    ItemsAgree items items' → AgreeOutsideSensitive (.array items) (.array items')
  | object {entries entries' : List (Text × Json N)} :
    EntriesAgree entries entries' → AgreeOutsideSensitive (.object entries) (.object entries')

inductive ItemsAgree : List (Json N) → List (Json N) → Prop
  | nil : ItemsAgree [] []
  | cons {item item' : Json N} {items items' : List (Json N)} :
    AgreeOutsideSensitive item item' → ItemsAgree items items' →
      ItemsAgree (item :: items) (item' :: items')

inductive EntriesAgree : List (Text × Json N) → List (Text × Json N) → Prop
  | nil : EntriesAgree [] []
  | sensitive {key : Text} (value value' : Json N) {entries entries' : List (Text × Json N)} :
    isSensitive key = true → EntriesAgree entries entries' →
      EntriesAgree ((key, value) :: entries) ((key, value') :: entries')
  | cons {key : Text} {value value' : Json N} {entries entries' : List (Text × Json N)} :
    AgreeOutsideSensitive value value' → EntriesAgree entries entries' →
      EntriesAgree ((key, value) :: entries) ((key, value') :: entries')

end

/-! ### Noninterference -/

theorem redactField_of_isSensitive {key : Text} (h : isSensitive key = true)
    (value redacted : Json N) : redactField key value redacted = .string (units "[REDACTED]") :=
  if_pos h

/-- Under one key, payloads that agree and are redacted to the same are written the same. -/
theorem redactField_eq_of_agree {value value' : Json N} (h : AgreeOutsideSensitive value value')
    (key : Text) (redacted : Json N) :
    redactField key value redacted = redactField key value' redacted := by
  cases h <;> rfl

mutual

/-- **What is under a sensitive key** does not matter. -/
theorem redactTelemetryPayload_eq_of_agree {payload payload' : Json N}
    (h : AgreeOutsideSensitive payload payload') :
    redactTelemetryPayload payload = redactTelemetryPayload payload' := by
  cases h with
  | same => rfl
  | array hitems =>
    rw [redactTelemetryPayload, redactTelemetryPayload, redactItems_eq_of_agree hitems]
  | object hentries =>
    rw [redactTelemetryPayload, redactTelemetryPayload, redactEntries_eq_of_agree hentries]

theorem redactItems_eq_of_agree {items items' : List (Json N)} (h : ItemsAgree items items') :
    redactItems items = redactItems items' := by
  cases h with
  | nil => rfl
  | cons hitem hitems =>
    rw [redactItems, redactItems, redactTelemetryPayload_eq_of_agree hitem,
      redactItems_eq_of_agree hitems]

theorem redactEntries_eq_of_agree {entries entries' : List (Text × Json N)}
    (h : EntriesAgree entries entries') : redactEntries entries = redactEntries entries' := by
  cases h with
  | nil => rfl
  | sensitive value value' hkey hentries =>
    simp only [redactEntries, redactField_of_isSensitive hkey, redactEntries_eq_of_agree hentries]
  | cons hvalue hentries =>
    rename_i key _ _ _ _
    simp only [redactEntries, redactTelemetryPayload_eq_of_agree hvalue,
      redactField_eq_of_agree hvalue, redactEntries_eq_of_agree hentries]

end

/-! ### Seeds -/

theorem isSeed_redacted_marker : isSeed (units "[REDACTED]") = false := by decide

/-- What is written under a key holds no seed if the redacted value holds none. -/
theorem isSeed_of_mem_redactField {key : Text} {value redacted : Json N}
    (h : ∀ s ∈ redacted.stringValues, isSeed s = false) :
    ∀ s ∈ (redactField key value redacted).stringValues, isSeed s = false := by
  intro s hs
  unfold redactField at hs
  split at hs
  · rw [Json.stringValues, List.mem_singleton] at hs
    rw [hs, isSeed_redacted_marker]
  · split at hs
    · split at hs
      · rw [Json.stringValues, List.mem_singleton] at hs
        rw [hs, isSeed_redactAddress]
      · exact h s hs
    · exact h s hs

mutual

/-- **No seed is left** in a redacted payload. -/
theorem isSeed_of_mem_stringValues (payload : Json N) :
    ∀ s ∈ (redactTelemetryPayload payload).stringValues, isSeed s = false := by
  cases payload with
  | null => simp [redactTelemetryPayload, Json.stringValues]
  | boolean b => simp [redactTelemetryPayload, Json.stringValues]
  | number n => simp [redactTelemetryPayload, Json.stringValues]
  | string text =>
    intro s hs
    rw [redactTelemetryPayload] at hs
    split at hs
    case isTrue hseed =>
      rw [Json.stringValues, List.mem_singleton] at hs
      rw [hs, isSeed_redactSecret hseed]
    case isFalse hseed =>
      rw [Json.stringValues, List.mem_singleton] at hs
      rw [hs, Bool.eq_false_iff]
      exact hseed
  | array items =>
    rw [redactTelemetryPayload, Json.stringValues]
    exact isSeed_of_mem_itemsStringValues items
  | object entries =>
    rw [redactTelemetryPayload, Json.stringValues]
    exact isSeed_of_mem_entriesStringValues entries

theorem isSeed_of_mem_itemsStringValues (items : List (Json N)) :
    ∀ s ∈ itemsStringValues (redactItems items), isSeed s = false := by
  cases items with
  | nil => simp [redactItems, itemsStringValues]
  | cons item items =>
    intro s hs
    rw [redactItems, itemsStringValues, List.mem_append] at hs
    rcases hs with hs | hs
    · exact isSeed_of_mem_stringValues item s hs
    · exact isSeed_of_mem_itemsStringValues items s hs

theorem isSeed_of_mem_entriesStringValues (entries : List (Text × Json N)) :
    ∀ s ∈ entriesStringValues (redactEntries entries), isSeed s = false := by
  match entries with
  | [] => simp [redactEntries, entriesStringValues]
  | (key, value) :: entries =>
    intro s hs
    rw [redactEntries] at hs
    split at hs
    · exact isSeed_of_mem_entriesStringValues entries s hs
    · rw [entriesStringValues, List.mem_append] at hs
      rcases hs with hs | hs
      · exact isSeed_of_mem_redactField (isSeed_of_mem_stringValues value) s hs
      · exact isSeed_of_mem_entriesStringValues entries s hs

end

/-! ### A second redaction -/

/-- What is no text under a key of an address is redacted on its own. -/
theorem redactField_of_not_address {key : Text} {value : Json N} (redacted : Json N)
    (hkey : isSensitive key = false)
    (h : mentionsAddress key = false ∨ ∀ s, value ≠ .string s) :
    redactField key value redacted = redacted := by
  rw [redactField.eq_def, if_neg (by simp [hkey])]
  cases value with
  | string s =>
    have hmentions := h.resolve_right fun hne => hne s rfl
    simp [hmentions]
  | _ => rfl

/-- A text is redacted to a text, and nothing else is. -/
theorem redactTelemetryPayload_ne_string {value : Json N} (h : ∀ s, value ≠ .string s) :
    ∀ s, redactTelemetryPayload value ≠ .string s := by
  intro s
  cases value with
  | string s' => exact absurd rfl (h s')
  | _ => simp [redactTelemetryPayload]

/-- A second redaction leaves a field as it is if it leaves the redacted value as it is. -/
theorem redactField_redactField (key : Text) {value : Json N}
    (h : redactTelemetryPayload (redactTelemetryPayload value) = redactTelemetryPayload value) :
    redactField key (redactField key value (redactTelemetryPayload value))
        (redactTelemetryPayload (redactField key value (redactTelemetryPayload value))) =
      redactField key value (redactTelemetryPayload value) := by
  by_cases hsensitive : isSensitive key = true
  · rw [redactField_of_isSensitive hsensitive, redactField_of_isSensitive hsensitive]
  rw [Bool.not_eq_true] at hsensitive
  by_cases hplain : mentionsAddress key = false ∨ ∀ s, value ≠ .string s
  · rw [redactField_of_not_address _ hsensitive hplain,
      redactField_of_not_address _ hsensitive (hplain.imp_right redactTelemetryPayload_ne_string),
      h]
  · -- the text of an address, which is shortened once
    simp only [not_or, Bool.not_eq_false, not_forall, not_not] at hplain
    obtain ⟨hmentions, s, rfl⟩ := hplain
    simp [redactField, hsensitive, hmentions, redactAddress_redactAddress]

mutual

/-- **A second redaction** changes nothing. -/
theorem redactTelemetryPayload_redactTelemetryPayload (payload : Json N) :
    redactTelemetryPayload (redactTelemetryPayload payload) = redactTelemetryPayload payload := by
  cases payload with
  | null => rfl
  | boolean b => rfl
  | number n => rfl
  | string text =>
    rw [redactTelemetryPayload]
    split
    case isTrue hseed =>
      rw [redactTelemetryPayload, if_neg (by simp [isSeed_redactSecret hseed])]
    case isFalse hseed => rw [redactTelemetryPayload, if_neg hseed]
  | array items =>
    rw [redactTelemetryPayload, redactTelemetryPayload, redactItems_redactItems items]
  | object entries =>
    rw [redactTelemetryPayload, redactTelemetryPayload, redactEntries_redactEntries entries]

theorem redactItems_redactItems (items : List (Json N)) :
    redactItems (redactItems items) = redactItems items := by
  cases items with
  | nil => rfl
  | cons item items =>
    rw [redactItems, redactItems, redactTelemetryPayload_redactTelemetryPayload item,
      redactItems_redactItems items]

theorem redactEntries_redactEntries (entries : List (Text × Json N)) :
    redactEntries (redactEntries entries) = redactEntries entries := by
  match entries with
  | [] => rfl
  | (key, value) :: entries =>
    have ih := redactEntries_redactEntries entries
    have hvalue :=
      redactField_redactField key (redactTelemetryPayload_redactTelemetryPayload value)
    rw [redactEntries]
    split
    · exact ih
    case isFalse hkey => rw [redactEntries, if_neg hkey, hvalue, ih]

end

/-- **Telemetry redaction leaks nothing**: it does not depend on what is under sensitive keys, it
leaves no secret seed at any depth, and doing it again changes nothing. -/
theorem redactTelemetryPayload_leaks_nothing (N : Type) :
    (∀ payload payload' : Json N, AgreeOutsideSensitive payload payload' →
        redactTelemetryPayload payload = redactTelemetryPayload payload') ∧
      (∀ payload : Json N, ∀ s ∈ (redactTelemetryPayload payload).stringValues,
        isSeed s = false) ∧
      ∀ payload : Json N, redactTelemetryPayload (redactTelemetryPayload payload) =
        redactTelemetryPayload payload :=
  ⟨fun _ _ h => redactTelemetryPayload_eq_of_agree h, isSeed_of_mem_stringValues,
    redactTelemetryPayload_redactTelemetryPayload⟩

/-- Two payloads with different passwords. -/
theorem redactTelemetryPayload_leaks_nothing_sample :
    redactTelemetryPayload (.object [(units "Password", .string (units "a"))] : Json ℕ) =
      redactTelemetryPayload (.object [(units "Password", .string (units "b"))]) :=
  (redactTelemetryPayload_leaks_nothing ℕ).1 _ _
    (.object (.sensitive _ _ (by decide) .nil))

/-- A payload of two levels with a password and an address. -/
example :
    redactTelemetryPayload
        (.object [(units "user", .array [.object [(units "PASSWORD", .number 7),
          (units "walletAddress", .string (units "GABCDEFGHIJKLMNOPQRSTUV"))]])] : Json ℕ) =
      .object [(units "user", .array [.object [(units "PASSWORD", .string (units "[REDACTED]")),
        (units "walletAddress", .string (units "GABCDEFG...OPQRSTUV"))]])] := by
  rfl

end SorobanPay.Telemetry
