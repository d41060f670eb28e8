import Mathlib.Algebra.Field.Rat
import Mathlib.Algebra.Order.Ring.Unbundled.Rat
import Mathlib.Algebra.Order.WithTop.Untop0
import SorobanPay.Backend.TelemetryRedaction
import SorobanPay.Backend.WebhookNotifier
import SorobanPay.Foundation.Entries

/-!
# The stored preferences

`lib/preference_storage.ts` keeps the preferences in `localStorage` under a schema version.
`loadPreferences` reads what is stored, drops sensitive keys, migrates older versions and coerces
the result; `savePreferences` and `updatePreferences` write it back.

What is stored is what `JSON.parse` makes of it. An object is the list of its entries, each key
once. Numbers of JSON are rational, or infinite if they are too large; an infinite one is written as
`null`. A storage that is not there has no item and accepts none.

## Main definitions

* `migrate`, `merge`: older versions and coercion.
* `loadPreferences`, `savePreferences`, `updatePreferences`: the storage.
* `WellFormed`: preferences of their declared types and ranges.

## Main results

* `migrate_entries`: a second migration changes nothing.
* `load_save`: what is saved is loaded.
* `wellFormed_load_iff`: when what is loaded is well formed.
* `preferences_iff`: when the storage is safe.
-/

set_option autoImplicit false

namespace SorobanPay.Preferences

open Foundation
open Telemetry (Json Text units lower)

/-! ### Values -/

/-- A number of JSON. -/
abbrev Number := WithBot (WithTop ℚ)

/-- A value of JSON. -/
abbrev Value := Json Number

/-- `typeof value === 'object'`, without `null` and arrays, with the entries. -/
def entriesOf : Option Value → Option (List (Text × Value))
  | some (.object entries) => some entries
  | _ => none

/-- `value.name`, where a value that is no object has no such field. -/
def field (value : Option Value) (name : String) : Option Value :=
  (entriesOf value).bind fun entries => entries.lookup (units name)

/-- `value ?? default`. -/
def orElse (value : Option Value) (fallback : Value) : Value :=
  match value with
  | none | some .null => fallback
  | some value => value

/-- White space that `trim` removes. -/
def isSpace (u : UInt16) : Bool := WebhookNotifier.isTrimmed (Char.ofNat u.toNat)

/-- `trim`. -/
def trim (text : Text) : Text :=
  ((text.dropWhile isSpace).reverse.dropWhile isSpace).reverse

/-- A finite number. -/
def isFinite (n : Number) : Bool := n ≠ ⊥ ∧ n ≠ ⊤

mutual

/-- `JSON.parse(JSON.stringify(value))`. -/
def written : Value → Value
  | .null => .null
  | .boolean b => .boolean b
  | .number n => if isFinite n then .number n else .null
  | .string s => .string s
  | .array items => .array (writtenItems items)
  | .object entries => .object (writtenEntries entries)

def writtenItems : List Value → List Value
  | [] => []
  | item :: items => written item :: writtenItems items

def writtenEntries : List (Text × Value) → List (Text × Value)
  | [] => []
  | (key, value) :: entries => (key, written value) :: writtenEntries entries

end

/-! ### Preferences -/

/-- `CURRENT_SCHEMA_VERSION`. -/
def currentSchemaVersion : Number := 2

inductive Theme
  | light
  | dark
  | system
  deriving DecidableEq, Repr

/-- The text of a theme. -/
def Theme.text : Theme → String
  | light => "light"
  | dark => "dark"
  | system => "system"

inductive SortDirection
  | asc
  | desc
  deriving DecidableEq, Repr

/-- The text of a direction. -/
def SortDirection.text : SortDirection → String
  | asc => "asc"
  | desc => "desc"

/-- `TableSettings`; the type of the columns is declared, but not checked. -/
structure TableSettings where
  columnVisibility : List (Text × Value)
  pageSize : Number
  sortColumn : Option Text
  sortDirection : SortDirection

/-- `OnboardingData`. -/
structure OnboardingData where
  completed : Bool
  lastStep : Number
  startedAt : Option Text
  completedAt : Option Text

/-- `PreferenceData`. -/
structure PreferenceData where
  schemaVersion : Number
  theme : Theme
  locale : Text
  tableSettings : TableSettings
  onboarding : OnboardingData

/-- `DEFAULT_TABLE_SETTINGS`. -/
def defaultTableSettings : TableSettings := ⟨[], 10, none, .asc⟩

/-- `DEFAULT_ONBOARDING`. -/
def defaultOnboarding : OnboardingData := ⟨false, 0, none, none⟩

/-- `DEFAULT_PREFERENCES`. -/
def defaultPreferences : PreferenceData :=
  ⟨currentSchemaVersion, .system, units "en", defaultTableSettings, defaultOnboarding⟩

/-- A text or `null`. -/
def textOrNull : Option Text → Value
  | none => .null
  | some text => .string text

/-- The settings as an object. -/
def TableSettings.value (t : TableSettings) : Value :=
  .object [(units "columnVisibility", .object t.columnVisibility),
    (units "pageSize", .number t.pageSize), (units "sortColumn", textOrNull t.sortColumn),
    (units "sortDirection", .string (units t.sortDirection.text))]

/-- The onboarding as an object. -/
def OnboardingData.value (o : OnboardingData) : Value :=
  .object [(units "completed", .boolean o.completed), (units "lastStep", .number o.lastStep),
    (units "startedAt", textOrNull o.startedAt), (units "completedAt", textOrNull o.completedAt)]

/-- The preferences as the entries of an object. -/
def PreferenceData.entries (p : PreferenceData) : List (Text × Value) :=
  [(units "schemaVersion", .number p.schemaVersion), (units "theme", .string (units p.theme.text)),
    (units "locale", .string p.locale), (units "tableSettings", p.tableSettings.value),
    (units "onboarding", p.onboarding.value)]

/-! ### Migration -/

/-- The names in `SENSITIVE_KEY_PATTERN`. -/
def sensitiveNames : List Text :=
  ["mnemonic", "privatekey", "seed", "secret", "password", "token", "auth", "credential"].map units

/-- `SENSITIVE_KEY_PATTERN.test(key)`. -/
def isSensitiveKey (key : Text) : Bool :=
  sensitiveNames.any fun name => decide (name <:+: lower key)

/-- `stripSensitiveKeys`. -/
def stripSensitiveKeys (entries : List (Text × Value)) : List (Text × Value) :=
  entries.filter fun entry => !isSensitiveKey entry.1

/-- The `version` with which `migrate` begins. -/
def versionOf (raw : List (Text × Value)) : Number :=
  match raw.lookup (units "schemaVersion") with
  | some (.number n) => n
  | _ => 0

/-- The step from version 0 to 1. -/
def migrateV0 (raw : List (Text × Value)) : List (Text × Value) :=
  spread defaultPreferences.entries
    [(units "theme",
        orElse (raw.lookup (units "theme")) (.string (units defaultPreferences.theme.text))),
      (units "locale", orElse (raw.lookup (units "locale")) (.string defaultPreferences.locale)),
      (units "schemaVersion", .number 1)]

/-- The step from version 1 to 2. -/
def migrateV1 (raw : List (Text × Value)) : List (Text × Value) :=
  let oldTable := raw.lookup (units "tableSettings")
  let oldOnboarding := raw.lookup (units "onboarding")
  spread raw
    [(units "tableSettings", .object
        [(units "columnVisibility", orElse (field oldTable "columnVisibility") (.object [])),
          (units "pageSize",
            orElse (field oldTable "pageSize") (.number defaultTableSettings.pageSize)),
          (units "sortColumn", orElse (field oldTable "sortColumn") .null),
          (units "sortDirection",
            orElse (field oldTable "sortDirection") (.string (units "asc")))]),
      (units "onboarding", .object
        [(units "completed", orElse (field oldOnboarding "completed") (.boolean false)),
          (units "lastStep", orElse (field oldOnboarding "lastStep") (.number 0)),
          (units "startedAt", orElse (field oldOnboarding "startedAt") .null),
          (units "completedAt", orElse (field oldOnboarding "completedAt") .null)]),
      (units "schemaVersion", .number 2)]

/-- `isTheme`, with the theme. -/
def themeOf : Option Value → Option Theme
  | some (.string s) =>
    if s = units "light" then some .light
    else if s = units "dark" then some .dark
    else if s = units "system" then some .system
    else none
  | _ => none

/-- `typeof value === 'string'`, with the text. -/
def textOf : Option Value → Option Text
  | some (.string s) => some s
  | _ => none

/-- `typeof value === 'number'`, with the number. -/
def numberOf : Option Value → Option Number
  | some (.number n) => some n
  | _ => none

/-- `typeof value === 'boolean'`, with the value. -/
def booleanOf : Option Value → Option Bool
  | some (.boolean b) => some b
  | _ => none

/-- `value === 'asc' || value === 'desc'`, with the direction. -/
def directionOf : Option Value → Option SortDirection
  | some (.string s) =>
    if s = units "asc" then some .asc else if s = units "desc" then some .desc else none
  | _ => none

/-- `merge`. -/
def merge (raw : List (Text × Value)) : PreferenceData :=
  let rawTable := raw.lookup (units "tableSettings")
  let rawOnboarding := raw.lookup (units "onboarding")
  { schemaVersion := currentSchemaVersion
    theme := (themeOf (raw.lookup (units "theme"))).getD defaultPreferences.theme
    locale := ((textOf (raw.lookup (units "locale"))).filter fun s => trim s ≠ []).getD
      defaultPreferences.locale
    tableSettings :=
      { columnVisibility := (entriesOf (field rawTable "columnVisibility")).getD []
        pageSize := ((numberOf (field rawTable "pageSize")).filter fun n => 0 < n).getD
          defaultTableSettings.pageSize
        sortColumn := textOf (field rawTable "sortColumn")
        sortDirection := (directionOf (field rawTable "sortDirection")).getD .asc }
    onboarding :=
      { completed := (booleanOf (field rawOnboarding "completed")).getD false
        lastStep := ((numberOf (field rawOnboarding "lastStep")).filter fun n => 0 ≤ n).getD 0
        startedAt := textOf (field rawOnboarding "startedAt")
        completedAt := textOf (field rawOnboarding "completedAt") } }

/-- `migrate`. -/
def migrate (raw : List (Text × Value)) : PreferenceData :=
  if versionOf raw < 1 then merge (migrateV1 (migrateV0 raw))
  else if versionOf raw < 2 then merge (migrateV1 raw)
  else merge raw

/-! ### The storage -/

/-- A text in the storage, as `JSON.parse` reads it. -/
inductive Item
  | malformed
  | json (value : Value)

/-- `localStorage`: the item under the key of the preferences, and whether a text is accepted. -/
structure Storage where
  item : Option Item
  accepts : Bool

/-- `loadPreferences`. -/
def loadPreferences (storage : Storage) : PreferenceData :=
  match storage.item with
  | some (.json (.object entries)) => migrate (stripSensitiveKeys entries)
  | _ => defaultPreferences

/-- `savePreferences`. -/
def savePreferences (storage : Storage) (data : PreferenceData) : Storage :=
  if storage.accepts then
    { storage with item := some (.json (written (.object (stripSensitiveKeys data.entries)))) }
  else storage

/-- The settings of a patch. -/
structure TablePatch where
  columnVisibility : Option (List (Text × Value)) := none
  pageSize : Option Number := none
  sortColumn : Option (Option Text) := none
  sortDirection : Option SortDirection := none

/-- The onboarding of a patch. -/
structure OnboardingPatch where
  completed : Option Bool := none
  lastStep : Option Number := none
  startedAt : Option (Option Text) := none
  completedAt : Option (Option Text) := none

/-- `Partial<PreferenceData>`. -/
structure Patch where
  schemaVersion : Option Number := none
  theme : Option Theme := none
  locale : Option Text := none
  tableSettings : TablePatch := {}
  onboarding : OnboardingPatch := {}

/-- The `updated` preferences of `updatePreferences`. -/
def patched (current : PreferenceData) (patch : Patch) : PreferenceData where
  schemaVersion := currentSchemaVersion
  theme := patch.theme.getD current.theme
  locale := patch.locale.getD current.locale
  tableSettings :=
    { columnVisibility :=
        patch.tableSettings.columnVisibility.getD current.tableSettings.columnVisibility
      pageSize := patch.tableSettings.pageSize.getD current.tableSettings.pageSize
      sortColumn := patch.tableSettings.sortColumn.getD current.tableSettings.sortColumn
      sortDirection := patch.tableSettings.sortDirection.getD current.tableSettings.sortDirection }
  onboarding :=
    { completed := patch.onboarding.completed.getD current.onboarding.completed
      lastStep := patch.onboarding.lastStep.getD current.onboarding.lastStep
      startedAt := patch.onboarding.startedAt.getD current.onboarding.startedAt
      completedAt := patch.onboarding.completedAt.getD current.onboarding.completedAt }

/-- `updatePreferences`: the storage afterwards, and what is returned. -/
def updatePreferences (storage : Storage) (patch : Patch) : Storage × PreferenceData :=
  let updated := patched (loadPreferences storage) patch
  (savePreferences storage updated, updated)

/-! ### What is safe -/

/-- Preferences of their declared types and ranges, at every depth. -/
structure WellFormed (p : PreferenceData) : Prop where
  schemaVersion : p.schemaVersion = currentSchemaVersion
  locale : trim p.locale ≠ []
  columnVisibility : ∀ entry ∈ p.tableSettings.columnVisibility, ∃ b, entry.2 = .boolean b
  pageSize : 0 < p.tableSettings.pageSize
  lastStep : 0 ≤ p.onboarding.lastStep

/-- The columns that are read from the storage. -/
def storedColumns : Option Item → List (Text × Value)
  | some (.json (.object entries)) =>
    if versionOf entries < 1 then []
    else
      (entriesOf (field (entries.lookup (units "tableSettings")) "columnVisibility")).getD []
  | _ => []

/-- The names of the fields of the preferences. -/
def knownKeys : List Text :=
  ["schemaVersion", "theme", "locale", "tableSettings", "onboarding"].map units

/-- The storage still holds an object of this version, with the unknown fields that it had. -/
def Keeps (entries : List (Text × Value)) (version : Number) (storage : Storage) : Prop :=
  ∃ entries', storage.item = some (.json (.object entries')) ∧
    entries'.lookup (units "schemaVersion") = some (.number version) ∧
    ∀ key ∉ knownKeys, entries'.lookup key = entries.lookup key

variable {p : PreferenceData} {raw entries : List (Text × Value)} {storage : Storage}

/-! ### A second migration -/

theorem themeOf_text (theme : Theme) :
    themeOf (some (.string (units theme.text))) = some theme := by
  cases theme <;> decide

theorem directionOf_text (direction : SortDirection) :
    directionOf (some (.string (units direction.text))) = some direction := by
  cases direction <;> decide

theorem textOf_textOrNull (text : Option Text) : textOf (some (textOrNull text)) = text := by
  cases text <;> rfl

section Fields

variable (p)

theorem lookup_schemaVersion :
    p.entries.lookup (units "schemaVersion") = some (.number p.schemaVersion) := rfl

theorem lookup_theme :
    p.entries.lookup (units "theme") = some (.string (units p.theme.text)) := rfl

theorem lookup_locale : p.entries.lookup (units "locale") = some (.string p.locale) := rfl

theorem lookup_tableSettings :
    p.entries.lookup (units "tableSettings") = some p.tableSettings.value := rfl

theorem lookup_onboarding :
    p.entries.lookup (units "onboarding") = some p.onboarding.value := rfl

/-- The fields of the settings. -/
theorem TableSettings.fields_value (t : TableSettings) :
    field (some t.value) "columnVisibility" = some (.object t.columnVisibility) ∧
      field (some t.value) "pageSize" = some (.number t.pageSize) ∧
      field (some t.value) "sortColumn" = some (textOrNull t.sortColumn) ∧
      field (some t.value) "sortDirection" = some (.string (units t.sortDirection.text)) :=
  ⟨rfl, rfl, rfl, rfl⟩

/-- The fields of the onboarding. -/
theorem OnboardingData.fields_value (o : OnboardingData) :
    field (some o.value) "completed" = some (.boolean o.completed) ∧
      field (some o.value) "lastStep" = some (.number o.lastStep) ∧
      field (some o.value) "startedAt" = some (textOrNull o.startedAt) ∧
      field (some o.value) "completedAt" = some (textOrNull o.completedAt) :=
  ⟨rfl, rfl, rfl, rfl⟩

end Fields

/-- What coercion leaves: every field but the columns is in its range. -/
structure Coerced (p : PreferenceData) : Prop where
  schemaVersion : p.schemaVersion = currentSchemaVersion
  locale : trim p.locale ≠ []
  pageSize : 0 < p.tableSettings.pageSize
  lastStep : 0 ≤ p.onboarding.lastStep

theorem WellFormed.coerced (h : WellFormed p) : Coerced p :=
  ⟨h.schemaVersion, h.locale, h.pageSize, h.lastStep⟩

/-- A value that is checked, or a default in its place. -/
theorem getD_filter_of {α : Type} {P : α → Prop} [DecidablePred P] {o : Option α} {d : α}
    (hd : P d) : P ((o.filter fun a => P a).getD d) := by
  cases o with
  | none => exact hd
  | some a =>
    rw [Option.filter_some]
    split_ifs with ha
    · exact of_decide_eq_true ha
    · exact hd

theorem coerced_merge (raw : List (Text × Value)) : Coerced (merge raw) where
  schemaVersion := rfl
  locale := getD_filter_of (P := fun s => trim s ≠ []) (by decide)
  pageSize := getD_filter_of (P := fun n : Number => 0 < n) (by decide)
  lastStep := getD_filter_of (P := fun n : Number => 0 ≤ n) le_rfl

theorem coerced_migrate (raw : List (Text × Value)) : Coerced (migrate raw) := by
  unfold migrate
  split_ifs <;> exact coerced_merge _

/-- What is coerced stays as it is. -/
theorem merge_entries (h : Coerced p) : merge p.entries = p := by
  have hversion := h.schemaVersion
  obtain ⟨schemaVersion, theme, locale, ⟨columns, pageSize, sortColumn, sortDirection⟩,
    ⟨completed, lastStep, startedAt, completedAt⟩⟩ := p
  obtain rfl : schemaVersion = currentSchemaVersion := hversion
  have hlocale : decide (trim locale ≠ []) = true := decide_eq_true h.locale
  have hpageSize : decide (0 < pageSize) = true := decide_eq_true h.pageSize
  have hlastStep : decide (0 ≤ lastStep) = true := decide_eq_true h.lastStep
  have htext : ∀ s : Text, textOf (some (.string s)) = some s := fun _ => rfl
  rw [merge, lookup_theme, lookup_locale, lookup_tableSettings, lookup_onboarding]
  simp only [TableSettings.fields_value, OnboardingData.fields_value, themeOf_text,
    directionOf_text, textOf_textOrNull, entriesOf, htext, numberOf, booleanOf, Option.getD_some,
    Option.filter_some, hlocale, hpageSize, hlastStep, if_true]

/-- A second migration changes nothing. -/
theorem migrate_entries (h : Coerced p) : migrate p.entries = p := by
  have hversion : versionOf p.entries = 2 := by
    rw [versionOf, lookup_schemaVersion]
    exact h.schemaVersion
  rw [migrate, hversion, if_neg (by decide), if_neg (by decide), merge_entries h]

/-! ### Saving and loading -/

/-- No field of the preferences is sensitive. -/
theorem isSensitiveKey_of_mem {key : Text} (h : key ∈ knownKeys) : isSensitiveKey key = false := by
  revert key
  decide

theorem map_fst_entries (p : PreferenceData) : p.entries.map Prod.fst = knownKeys := rfl

theorem stripSensitiveKeys_entries (p : PreferenceData) :
    stripSensitiveKeys p.entries = p.entries := by
  refine List.filter_eq_self.2 fun entry hentry => ?_
  have hkey : entry.1 ∈ knownKeys := map_fst_entries p ▸ List.mem_map_of_mem hentry
  rw [isSensitiveKey_of_mem hkey, Bool.not_false]

/-- What is under a field of the preferences is not dropped. -/
theorem lookup_stripSensitiveKeys {key : Text} (h : key ∈ knownKeys) :
    (stripSensitiveKeys entries).lookup key = entries.lookup key := by
  refine lookup_filter (p := fun key => !isSensitiveKey key) ?_
  rw [isSensitiveKey_of_mem h, Bool.not_false]

/-- The numbers of the preferences are finite, so that they can be written. -/
structure Representable (p : PreferenceData) : Prop where
  pageSize : isFinite p.tableSettings.pageSize = true
  lastStep : isFinite p.onboarding.lastStep = true

theorem writtenEntries_of_boolean {columns : List (Text × Value)}
    (h : ∀ entry ∈ columns, ∃ b, entry.2 = .boolean b) : writtenEntries columns = columns := by
  induction columns with
  | nil => rfl
  | cons entry columns ih =>
    obtain ⟨⟨b, hb⟩, hcolumns⟩ := List.forall_mem_cons.1 h
    obtain ⟨key, value⟩ := entry
    obtain rfl : value = .boolean b := hb
    rw [writtenEntries, ih hcolumns, written]

theorem written_textOrNull (text : Option Text) : written (textOrNull text) = textOrNull text := by
  cases text <;> rw [textOrNull, written]

/-- Well-formed preferences are written as they are. -/
theorem writtenEntries_entries (h : WellFormed p) (hp : Representable p) :
    writtenEntries p.entries = p.entries := by
  have hversion : isFinite p.schemaVersion = true := by
    rw [h.schemaVersion]
    decide
  simp only [PreferenceData.entries, TableSettings.value, OnboardingData.value, writtenEntries,
    written, written_textOrNull, writtenEntries_of_boolean h.columnVisibility, hversion,
    hp.pageSize, hp.lastStep, if_true]

/-- **What is saved is loaded.** -/
theorem load_save (h : WellFormed p) (hp : Representable p) (haccepts : storage.accepts = true) :
    loadPreferences (savePreferences storage p) = p := by
  have hitem : (savePreferences storage p).item = some (.json (.object p.entries)) := by
    rw [savePreferences, if_pos haccepts, stripSensitiveKeys_entries, written,
      writtenEntries_entries h hp]
  rw [loadPreferences, hitem]
  simp only [stripSensitiveKeys_entries]
  exact migrate_entries h.coerced

/-! ### What is loaded -/

theorem entriesOf_orElse (value : Option Value) :
    (entriesOf (some (orElse value (.object [])))).getD [] = (entriesOf value).getD [] := by
  rcases value with _ | value
  · rfl
  · cases value <;> rfl

theorem versionOf_stripSensitiveKeys (entries : List (Text × Value)) :
    versionOf (stripSensitiveKeys entries) = versionOf entries := by
  rw [versionOf, lookup_stripSensitiveKeys (by decide), versionOf]

/-- The columns after the step from version 1 to 2. -/
theorem columns_migrateV1 (raw : List (Text × Value)) :
    (merge (migrateV1 raw)).tableSettings.columnVisibility =
      (entriesOf (field (raw.lookup (units "tableSettings")) "columnVisibility")).getD [] := by
  have htable : ∃ rest, (migrateV1 raw).lookup (units "tableSettings") = some (.object
      ((units "columnVisibility",
        orElse (field (raw.lookup (units "tableSettings")) "columnVisibility") (.object [])) ::
          rest)) := by
    rw [migrateV1, lookup_spread]
    exact ⟨_, rfl⟩
  obtain ⟨rest, htable⟩ := htable
  rw [← entriesOf_orElse, merge, htable]
  rfl

/-- The step from version 0 to 1 drops the settings. -/
theorem lookup_tableSettings_migrateV0 (raw : List (Text × Value)) :
    (migrateV0 raw).lookup (units "tableSettings") = some defaultTableSettings.value := by
  rw [migrateV0, lookup_spread]
  rfl

/-- The columns are taken from the storage as they are. -/
theorem columns_loadPreferences (storage : Storage) :
    (loadPreferences storage).tableSettings.columnVisibility = storedColumns storage.item := by
  unfold loadPreferences storedColumns
  split
  · rename_i entries _
    have hversion := versionOf_stripSensitiveKeys entries
    have htable : (stripSensitiveKeys entries).lookup (units "tableSettings") =
        entries.lookup (units "tableSettings") := lookup_stripSensitiveKeys (by decide)
    rw [migrate, hversion]
    by_cases hzero : versionOf entries < 1
    · rw [if_pos hzero, if_pos hzero, columns_migrateV1, lookup_tableSettings_migrateV0]
      rfl
    · rw [if_neg hzero, if_neg hzero]
      by_cases hone : versionOf entries < 2
      · rw [if_pos hone, columns_migrateV1, htable]
      · rw [if_neg hone, merge, htable]
  · rfl

theorem coerced_loadPreferences (storage : Storage) : Coerced (loadPreferences storage) := by
  unfold loadPreferences
  split
  · exact coerced_migrate _
  · exact ⟨rfl, by decide, by decide, by decide⟩

/-- **What is loaded** is well formed if the columns that are stored have no other values than
booleans. -/
theorem wellFormed_load_iff (storage : Storage) :
    WellFormed (loadPreferences storage) ↔
      ∀ entry ∈ storedColumns storage.item, ∃ b, entry.2 = .boolean b := by
  have hcoerced := coerced_loadPreferences storage
  rw [← columns_loadPreferences]
  constructor
  · exact fun h => h.columnVisibility
  · exact fun h => ⟨hcoerced.schemaVersion, hcoerced.locale, h, hcoerced.pageSize,
      hcoerced.lastStep⟩

/-! ### Versions to come -/

/-- **An update** of an object of a later version keeps it only if nothing can be written. -/
theorem keeps_update_iff {version : Number} {patch : Patch}
    (hitem : storage.item = some (.json (.object entries)))
    (hlookup : entries.lookup (units "schemaVersion") = some (.number version))
    (hversion : currentSchemaVersion < version) :
    Keeps entries version (updatePreferences storage patch).1 ↔ storage.accepts = false := by
  constructor
  · rintro ⟨entries', hafter, hlookup', -⟩
    by_contra haccepts
    rw [Bool.not_eq_false] at haccepts
    rw [updatePreferences, savePreferences, if_pos haccepts, stripSensitiveKeys_entries,
      written] at hafter
    obtain rfl : writtenEntries (patched (loadPreferences storage) patch).entries = entries' :=
      Json.object.inj (Item.json.inj (Option.some.inj hafter))
    have hcurrent : (writtenEntries (patched (loadPreferences storage) patch).entries).lookup
        (units "schemaVersion") = some (.number currentSchemaVersion) := rfl
    rw [hcurrent] at hlookup'
    exact hversion.ne (Json.number.inj (Option.some.inj hlookup'))
  · intro haccepts
    have hsame : (updatePreferences storage patch).1 = storage := by
      rw [updatePreferences, savePreferences, haccepts]
      rfl
    rw [hsame]
    exact ⟨entries, hitem, hlookup, fun _ _ => rfl⟩

/-- **The preferences.** What is loaded is well formed exactly if the stored columns are booleans; a
second migration changes nothing; well-formed preferences that can be written are loaded as they
were saved; and an update of an object of a later version keeps its version and its unknown fields
exactly if nothing is written. -/
theorem preferences_iff (storage : Storage) (raw entries : List (Text × Value))
    (p : PreferenceData) (version : Number) (patch : Patch) :
    (WellFormed (loadPreferences storage) ↔
        ∀ entry ∈ storedColumns storage.item, ∃ b, entry.2 = .boolean b) ∧
      migrate (migrate raw).entries = migrate raw ∧
      (WellFormed p → Representable p → storage.accepts = true →
        loadPreferences (savePreferences storage p) = p) ∧
      (storage.item = some (.json (.object entries)) →
        entries.lookup (units "schemaVersion") = some (.number version) →
        currentSchemaVersion < version →
          (Keeps entries version (updatePreferences storage patch).1 ↔ storage.accepts = false)) :=
  ⟨wellFormed_load_iff storage, migrate_entries (coerced_migrate raw),
    fun h hp haccepts => load_save h hp haccepts,
    fun hitem hlookup hversion => keeps_update_iff hitem hlookup hversion⟩

/-- The object of a later version, with a field of its own. -/
def laterEntries : List (Text × Value) :=
  [(units "schemaVersion", .number (3 : ℕ)), (units "density", .string (units "compact"))]

/-- The defaults are saved and loaded, and an update of a later version writes over it. -/
theorem preferences_iff_sample :
    loadPreferences (savePreferences ⟨none, true⟩ defaultPreferences) = defaultPreferences ∧
      ¬ Keeps laterEntries 3
        (updatePreferences ⟨some (.json (.object laterEntries)), true⟩ {}).1 := by
  have hdefault : WellFormed defaultPreferences :=
    ⟨rfl, by decide, List.forall_mem_nil _, by decide, le_rfl⟩
  obtain ⟨-, -, hsave, -⟩ := preferences_iff ⟨none, true⟩ [] [] defaultPreferences 0 {}
  obtain ⟨-, -, -, hlater⟩ := preferences_iff ⟨some (.json (.object laterEntries)), true⟩ []
    laterEntries defaultPreferences 3 {}
  refine ⟨hsave hdefault ⟨by decide, by decide⟩ rfl, ?_⟩
  rw [hlater rfl rfl (by decide)]
  exact fun h => by cases h

/-- A column that is the number 1. -/
def numberColumn : List (Text × Value) :=
  [(units "schemaVersion", .number 2),
    (units "tableSettings", .object [(units "columnVisibility", .object [(units "a", .number 1)])])]

/-- A column that is no boolean is loaded, and a version to come is not kept. -/
theorem not_preferencesSafe_sample :
    ¬ WellFormed (loadPreferences ⟨some (.json (.object numberColumn)), true⟩) ∧
      currentSchemaVersion < 3 ∧ ∀ patch, ¬ Keeps laterEntries 3
        (updatePreferences ⟨some (.json (.object laterEntries)), true⟩ patch).1 := by
  refine ⟨fun h => ?_, by decide, fun patch h => ?_⟩
  · obtain ⟨b, hb⟩ := h.columnVisibility (units "a", .number 1) (List.mem_singleton_self _)
    cases hb
  · rw [keeps_update_iff rfl rfl (by decide)] at h
    cases h

end SorobanPay.Preferences
