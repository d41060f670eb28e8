import SorobanPay.Backend.ImportFiles
import SorobanPay.Foundation.Attempts

/-!
# The rows of an import

What `services/dataImportService.ts` checks of the rows of a file before they are imported:
`validateRows` against a list of fields, and `detectDuplicates`, which reports the rows whose key
has come before. Both throw at a row that is `null`, and at a value without a text.

A row that is reported is not remembered again, and need not be: a key is remembered when it comes
first, unless it exists already, and every later row of it is reported.

## Main definitions

* `FieldSchema`, `ValidationError`, `DuplicateInfo`: what is said of rows.
* `validateRows`, `detectDuplicates`: the checks.
* `Readable`, `Conforms`, `Repeats`: what the checks are for.

## Main results

* `succeeds_validateRows_iff`, `succeeds_detectDuplicates_iff`: when the checks do not throw.
* `validateRows_eq_nil_iff`: a file without errors is one whose rows conform.
* `detectDuplicates_exact`: which rows are reported.
-/

set_option autoImplicit false

namespace SorobanPay.DataImport

open Foundation WebhookNotifier

/-! ### Validation -/

/-- `val === null || val === undefined || val === ''`, for a value that may be missing. -/
def isEmptyValue {Number : Type} : Option (JsonValue Number) → Bool
  | none | some (.scalar .null) => true
  | some (.scalar (.text s)) => s = ""
  | some _ => false

/-- The types of a field that are checked, `string` and `boolean` being checked nowhere. -/
inductive FieldType
  | string
  | number
  | boolean
  | email
  | phone
  | date
  deriving DecidableEq, Repr

/-- `FieldSchema`. -/
structure FieldSchema where
  name : String
  required : Bool
  type : Option FieldType
  maxLength : Option ℕ
  pattern : Option (String → Bool)

/-- `ValidationError`. -/
structure ValidationError where
  row : ℕ
  field : Option String
  message : String
  deriving DecidableEq, Repr

/-- `EMAIL_RE`: one `@`, no blanks, and in what follows a dot that is neither first nor last. -/
def isEmail (s : String) : Bool :=
  match s.toList.splitOn '@' with
  | [localPart, domain] => !localPart.isEmpty && s.toList.all (!isTrimmed ·) &&
    (domain.drop 1).dropLast.contains '.'
  | _ => false

/-- `PHONE_RE`: perhaps a plus sign, and seven to fifteen digits, the first of them not zero. -/
def isPhone (cs : List Char) : Bool :=
  match if cs.head? = some '+' then cs.tail else cs with
  | [] => false
  | c :: digits => c.isDigit && c != '0' && digits.all Char.isDigit && 6 ≤ digits.length &&
    digits.length ≤ 14

section Validation

variable {Number : Type} (R : ImportRuntime Number)

/-- What a value that is there has to satisfy, with the messages for one that does not. -/
def FieldSchema.checks (field : FieldSchema) (val : ImportValue Number) : List (Bool × String) :=
  let strVal := val.toText R
  [(match field.maxLength with
      | some max => max = 0 || textLength strVal ≤ max
      | none => true, s!"Field '{field.name}' exceeds max length {field.maxLength.getD 0}"),
    (field.type ≠ some .number || !R.isNaN val, s!"Field '{field.name}' must be a number"),
    (field.type ≠ some .email || isEmail strVal, s!"Field '{field.name}' must be a valid email"),
    (field.type ≠ some .phone || isPhone (strVal.toList.filter (!isTrimmed ·)),
      s!"Field '{field.name}' must be a valid E.164 phone number"),
    (field.type ≠ some .date || R.isDate strVal, s!"Field '{field.name}' must be a valid date"),
    (match field.pattern with
      | some test => test strVal
      | none => true, s!"Field '{field.name}' does not match required pattern")]

/-- The errors of a value, of which the text is taken unless it is empty. -/
def valueErrors (rowNum : ℕ) (field : FieldSchema) (val : Option (JsonValue Number)) :
    Except String (List ValidationError) :=
  if isEmptyValue val then
    .ok (if field.required then
      [⟨rowNum, some field.name, s!"Field '{field.name}' is required"⟩] else [])
  else
    match val with
    | some val => (val.toPrimitive R).map fun val =>
      ((field.checks R val).filter (!·.1)).map fun check => ⟨rowNum, some field.name, check.2⟩
    | none => .ok []

/-- The errors of one field in one row. -/
def fieldErrors (rowNum : ℕ) (row : ImportRow Number) (field : FieldSchema) :
    Except String (List ValidationError) :=
  (row.read R field.name).bind (valueErrors R rowNum field)

/-- The errors of one row. -/
def rowErrors (schema : List FieldSchema) (row : ImportRow Number × ℕ) :
    Except String (List ValidationError) :=
  (schema.mapM (fieldErrors R (row.2 + 1) row.1)).map List.flatten

/-- `validateRows`. -/
def validateRows (rows : List (ImportRow Number)) (schema : List FieldSchema) :
    Except String (List ValidationError) :=
  (rows.zipIdx.mapM (rowErrors R schema)).map List.flatten

/-- The value of a row under a name can be read, and has a text if it is there. -/
def Readable (row : ImportRow Number) (name : String) : Prop :=
  ∃ val, row.read R name = .ok val ∧ ∀ v, val = some v → Succeeds (v.toPrimitive R)

/-- A row has what a field asks for. -/
def Conforms (row : ImportRow Number) (field : FieldSchema) : Prop :=
  ∃ val, row.read R field.name = .ok val ∧ (field.required = true → isEmptyValue val = false) ∧
    ∀ v, val = some v → isEmptyValue (some v) = false →
      ∃ prim, v.toPrimitive R = .ok prim ∧ ∀ check ∈ field.checks R prim, check.1 = true

variable {R} {rows : List (ImportRow Number)} {schema : List FieldSchema}

/-- The rows with their indices are the rows. -/
theorem forall_mem_zipIdx_iff (P : ImportRow Number → Prop) :
    (∀ row ∈ rows.zipIdx, P row.1) ↔ ∀ row ∈ rows, P row := by
  rw [← @List.forall_mem_map _ _ Prod.fst, List.zipIdx_map_fst]

/-- A value that is empty is no object. -/
theorem toPrimitive_of_isEmptyValue {v : JsonValue Number} (h : isEmptyValue (some v) = true) :
    Succeeds (v.toPrimitive R) := by
  cases v with
  | scalar val => exact ⟨val, by simp [JsonValue.toPrimitive]⟩
  | _ => exact absurd h (by simp [isEmptyValue])

theorem succeeds_valueErrors_iff {rowNum : ℕ} {field : FieldSchema}
    {val : Option (JsonValue Number)} :
    Succeeds (valueErrors R rowNum field val) ↔
      ∀ v, val = some v → Succeeds (v.toPrimitive R) := by
  unfold valueErrors
  by_cases hempty : isEmptyValue val = true
  · rw [if_pos hempty]
    exact iff_of_true (succeeds_ok _) fun v hv => toPrimitive_of_isEmptyValue (hv ▸ hempty)
  · rw [if_neg hempty]
    cases val with
    | none => simp
    | some v => simp [succeeds_map]

theorem succeeds_fieldErrors_iff {rowNum : ℕ} {row : ImportRow Number} {field : FieldSchema} :
    Succeeds (fieldErrors R rowNum row field) ↔ Readable R row field.name := by
  refine succeeds_bind.trans (exists_congr fun val => and_congr_right fun _ => ?_)
  exact succeeds_valueErrors_iff

/-- The validation does not throw if every field can be read in every row. -/
theorem succeeds_validateRows_iff : Succeeds (validateRows R rows schema) ↔
    ∀ row ∈ rows, ∀ field ∈ schema, Readable R row field.name := by
  rw [validateRows, succeeds_map, succeeds_mapM]
  simp only [rowErrors, succeeds_map, succeeds_mapM, succeeds_fieldErrors_iff]
  exact forall_mem_zipIdx_iff fun row => ∀ field ∈ schema, Readable R row field.name

theorem fieldErrors_eq_nil_iff {rowNum : ℕ} {row : ImportRow Number} {field : FieldSchema} :
    fieldErrors R rowNum row field = .ok [] ↔ Conforms R row field := by
  refine bind_eq_ok_iff.trans (exists_congr fun val => and_congr_right fun _ => ?_)
  cases hempty : isEmptyValue val with
  | true =>
    have hnone : ∀ v, val = some v → isEmptyValue (some v) ≠ false := fun v hv => by
      rw [← hv, hempty]
      exact Bool.noConfusion
    simpa [valueErrors, hempty] using fun _ v hv h => absurd h (hnone v hv)
  | false =>
    rcases val with _ | v
    · exact absurd hempty (by simp [isEmptyValue])
    · rcases hprim : v.toPrimitive R with message | prim
      · simp [valueErrors, hempty, hprim, Except.map]
      · simp [valueErrors, hempty, hprim, Except.map]

/-- **A file without errors** is one whose rows conform. -/
theorem validateRows_eq_nil_iff :
    validateRows R rows schema = .ok [] ↔
      ∀ row ∈ rows, ∀ field ∈ schema, Conforms R row field := by
  simp only [validateRows, rowErrors, map_flatten_mapM_eq_nil_iff, fieldErrors_eq_nil_iff]
  exact forall_mem_zipIdx_iff fun row => ∀ field ∈ schema, Conforms R row field

/-- Nothing can be read of `null`. -/
theorem not_readable_null (name : String) : ¬ Readable R (.scalar .null) name := by
  rintro ⟨val, h, -⟩
  cases h

/-- A row of which anything can be read has keys. -/
theorem Readable.succeeds_keys {row : ImportRow Number} {name : String} (h : Readable R row name) :
    Succeeds row.keys := by
  obtain ⟨val, hval, -⟩ := h
  unfold JsonValue.keys
  split
  · cases hval
  all_goals exact succeeds_ok _

/-- The rows of a CSV or XML file can be read. -/
theorem readable_ofTexts (row : CsvImport.ImportRow) (name : String) :
    Readable R (ofTexts row) name := by
  refine ⟨_, rfl, fun v hv => ?_⟩
  rcases hown : (ofTexts row : ImportRow Number).own R name with _ | val
  · rw [hown] at hv
    obtain ⟨text, -, rfl⟩ := Option.map_eq_some_iff.1 hv
    exact ⟨.text text, by simp [JsonValue.toPrimitive]⟩
  · rw [hown] at hv
    obtain rfl : val = v := Option.some.inj hv
    obtain ⟨before, after, hentries, -⟩ := List.lookup_eq_some_iff.1 hown
    have hmem : (name, val) ∈ row.entries.map fun entry =>
        (entry.1, (.scalar (entry.2.elim .null .text) : JsonValue Number)) :=
      hentries ▸ List.mem_append_right _ List.mem_cons_self
    obtain ⟨⟨name', text⟩, -, heq⟩ := List.mem_map.1 hmem
    obtain ⟨rfl, rfl⟩ := Prod.mk.inj heq
    exact ⟨text.elim .null .text, by simp [JsonValue.toPrimitive]⟩

end Validation

/-! ### Duplicates -/

inductive DuplicateStrategy
  | skip
  | overwrite
  | merge
  deriving DecidableEq, Repr

/-- `DuplicateInfo`, without `existingId`, which nothing sets. -/
structure DuplicateInfo where
  row : ℕ
  key : String
  action : DuplicateStrategy
  deriving DecidableEq, Repr

/-- The loop of `detectDuplicates`, over the keys of the rows from the index `idx` on. -/
def detectFrom (strategy : DuplicateStrategy) (existingKeys : List String) :
    ℕ → List String → List String → List DuplicateInfo
  | _, _, [] => []
  | idx, seen, key :: keys =>
    if key = "" then detectFrom strategy existingKeys (idx + 1) seen keys
    else if key ∈ seen ∨ key ∈ existingKeys then
      ⟨idx + 1, key, strategy⟩ :: detectFrom strategy existingKeys (idx + 1) seen keys
    else detectFrom strategy existingKeys (idx + 1) (key :: seen) keys

section Duplicates

variable {Number : Type} (R : ImportRuntime Number)

/-- `String(row[keyField] ?? '')`. -/
def keyOf (keyField : String) (row : ImportRow Number) : Except String String :=
  (row.read R keyField).bind fun
    | none | some (.scalar .null) => .ok ""
    | some val => (val.toPrimitive R).map (·.toText R)

/-- `detectDuplicates`. -/
def detectDuplicates (rows : List (ImportRow Number)) (keyField : String)
    (strategy : DuplicateStrategy) (existingKeys : List String) :
    Except String (List DuplicateInfo) :=
  (rows.mapM (keyOf R keyField)).map (detectFrom strategy existingKeys 0 [])

theorem succeeds_keyOf_iff {R : ImportRuntime Number} {keyField : String}
    {row : ImportRow Number} : Succeeds (keyOf R keyField row) ↔ Readable R row keyField := by
  refine succeeds_bind.trans (exists_congr fun val => and_congr_right fun _ => ?_)
  split
  · simp
  · simp [JsonValue.toPrimitive]
  · simp [succeeds_map]

/-- The check throws only at a row whose key cannot be read. -/
theorem succeeds_detectDuplicates_iff {R : ImportRuntime Number} {rows : List (ImportRow Number)}
    {keyField : String} {strategy : DuplicateStrategy} {existingKeys : List String} :
    Succeeds (detectDuplicates R rows keyField strategy existingKeys) ↔
      ∀ row ∈ rows, Readable R row keyField := by
  rw [detectDuplicates, succeeds_map, succeeds_mapM]
  exact forall₂_congr fun row _ => succeeds_keyOf_iff

end Duplicates

/-- The key at an index is not empty, and exists already or comes before. -/
def Repeats (existingKeys keys : List String) (i : ℕ) : Prop :=
  ∃ key, keys[i]? = some key ∧ key ≠ "" ∧
    (key ∈ existingKeys ∨ ∃ j < i, keys[j]? = some key)

section Detect

variable {strategy : DuplicateStrategy} {existingKeys : List String}

theorem exists_lt_succ {key k : String} {keys : List String} {i : ℕ} :
    (∃ j < i + 1, (k :: keys)[j]? = some key) ↔ key = k ∨ ∃ j < i, keys[j]? = some key := by
  constructor
  · rintro ⟨_ | j, hj, hkey⟩
    · exact .inl (Option.some.inj hkey).symm
    · exact .inr ⟨j, Nat.lt_of_succ_lt_succ hj, hkey⟩
  · rintro (rfl | ⟨j, hj, hkey⟩)
    · exact ⟨0, Nat.succ_pos i, rfl⟩
    · exact ⟨j + 1, Nat.succ_lt_succ hj, hkey⟩

/-- A report on some keys is one on the first of them, or on a later one. -/
theorem exists_index_cons {idx : ℕ} {seen keys : List String} {k : String} {info : DuplicateInfo} :
    (∃ i, info.row = idx + i + 1 ∧ (k :: keys)[i]? = some info.key ∧
        (info.key ∈ seen ∨ info.key ∈ existingKeys ∨ ∃ j < i, (k :: keys)[j]? = some info.key)) ↔
      (info.row = idx + 1 ∧ info.key = k ∧ (info.key ∈ seen ∨ info.key ∈ existingKeys)) ∨
        ∃ i, info.row = idx + 1 + i + 1 ∧ keys[i]? = some info.key ∧
          (info.key ∈ seen ∨ info.key ∈ existingKeys ∨ info.key = k ∨
            ∃ j < i, keys[j]? = some info.key) := by
  constructor
  · rintro ⟨_ | i, hrow, hkey, hknown⟩
    · exact .inl ⟨hrow, (Option.some.inj hkey).symm, by simpa using hknown⟩
    · exact .inr ⟨i, by omega, hkey, by rwa [exists_lt_succ] at hknown⟩
  · rintro (⟨hrow, rfl, hknown⟩ | ⟨i, hrow, hkey, hknown⟩)
    · exact ⟨0, hrow, rfl, hknown.imp_right .inl⟩
    · exact ⟨i + 1, by omega, hkey, by rwa [exists_lt_succ]⟩

/-- What the loop reports, from the keys that it remembers. -/
theorem mem_detectFrom {idx : ℕ} {seen keys : List String} {info : DuplicateInfo} :
    info ∈ detectFrom strategy existingKeys idx seen keys ↔
      info.action = strategy ∧ info.key ≠ "" ∧ ∃ i, info.row = idx + i + 1 ∧
        keys[i]? = some info.key ∧
          (info.key ∈ seen ∨ info.key ∈ existingKeys ∨ ∃ j < i, keys[j]? = some info.key) := by
  induction keys generalizing idx seen with
  | nil => simp [detectFrom]
  | cons k keys ih =>
    rw [exists_index_cons, detectFrom]
    split_ifs with hempty hknown
    · rw [ih]
      subst hempty
      refine and_congr_right fun _ => and_congr_right fun hne => ?_
      simp [hne]
    · -- the key is reported, and later rows of it are known all the same
      have hlater : ∀ i : ℕ, (info.key ∈ seen ∨ info.key ∈ existingKeys ∨ info.key = k ∨
          ∃ j < i, keys[j]? = some info.key) ↔
          (info.key ∈ seen ∨ info.key ∈ existingKeys ∨ ∃ j < i, keys[j]? = some info.key) := by
        intro i
        refine ⟨?_, fun h => h.imp_right fun h => h.imp_right .inr⟩
        rintro (h | h | h | h)
        · exact .inl h
        · exact .inr (.inl h)
        · rw [h]
          exact hknown.imp_right .inl
        · exact .inr (.inr h)
      rw [List.mem_cons, ih]
      simp only [hlater]
      constructor
      · rintro (rfl | ⟨haction, hne, i, hi⟩)
        · exact ⟨rfl, hempty, .inl ⟨rfl, rfl, hknown⟩⟩
        · exact ⟨haction, hne, .inr ⟨i, hi⟩⟩
      · rintro ⟨haction, hne, ⟨hrow, hkey, -⟩ | ⟨i, hi⟩⟩
        · obtain ⟨row, key, action⟩ := info
          obtain ⟨rfl, rfl, rfl⟩ : action = strategy ∧ row = idx + 1 ∧ key = k :=
            ⟨haction, hrow, hkey⟩
          exact .inl rfl
        · exact .inr ⟨haction, hne, i, hi⟩
    · rw [ih]
      refine and_congr_right fun _ => and_congr_right fun hne => ?_
      have hfirst : ¬ (info.row = idx + 1 ∧ info.key = k ∧
          (info.key ∈ seen ∨ info.key ∈ existingKeys)) := by
        rintro ⟨-, hkey, h⟩
        exact hknown (hkey ▸ h)
      simp only [hfirst, false_or, List.mem_cons]
      refine exists_congr fun i => and_congr_right fun _ => and_congr_right fun _ => ?_
      tauto

/-- The reports are in the order of the rows. -/
theorem pairwise_detectFrom {idx : ℕ} {seen keys : List String} :
    (detectFrom strategy existingKeys idx seen keys).Pairwise fun a b => a.row < b.row := by
  induction keys generalizing idx seen with
  | nil => exact .nil
  | cons k keys ih =>
    rw [detectFrom]
    split_ifs
    · exact ih
    · refine List.pairwise_cons.2 ⟨fun info hinfo => ?_, ih⟩
      obtain ⟨-, -, i, hrow, -⟩ := mem_detectFrom.1 hinfo
      have hfirst : idx + 1 < idx + 1 + i + 1 := by omega
      exact hfirst.trans_eq hrow.symm
    · exact ih

/-- **Duplicates.** The check throws only at a row whose key cannot be read. Otherwise, in the order
of the rows, exactly those are reported whose key is not empty and exists already or has come
before, each once, with its number and its key. So the rows with a key that are not reported have
different keys, none of them existing, and there is one of them for every key that does not exist.
-/
theorem detectDuplicates_exact {Number : Type} (R : ImportRuntime Number)
    (rows : List (ImportRow Number)) (keyField : String) (strategy : DuplicateStrategy)
    (existingKeys : List String) :
    (Succeeds (detectDuplicates R rows keyField strategy existingKeys) ↔
        ∀ row ∈ rows, Readable R row keyField) ∧
      ∀ duplicates, detectDuplicates R rows keyField strategy existingKeys = .ok duplicates →
        ∃ keys, rows.mapM (keyOf R keyField) = .ok keys ∧
          let reported := duplicates.map DuplicateInfo.row
          reported.Pairwise (· < ·) ∧
            (∀ i, i + 1 ∈ reported ↔ Repeats existingKeys keys i) ∧
            (∀ info ∈ duplicates,
              info.action = strategy ∧ 0 < info.row ∧ keys[info.row - 1]? = some info.key) ∧
            ∀ key ≠ "", key ∉ existingKeys → key ∈ keys →
              ∃! i, keys[i]? = some key ∧ i + 1 ∉ reported := by
  refine ⟨succeeds_detectDuplicates_iff, fun duplicates hduplicates => ?_⟩
  obtain ⟨keys, hkeys, rfl⟩ : ∃ keys, rows.mapM (keyOf R keyField) = .ok keys ∧
      detectFrom strategy existingKeys 0 [] keys = duplicates := by
    rcases hkeys : rows.mapM (keyOf R keyField) with message | keys
    · rw [detectDuplicates, hkeys] at hduplicates
      cases hduplicates
    · rw [detectDuplicates, hkeys] at hduplicates
      exact ⟨keys, rfl, Except.ok.inj hduplicates⟩
  refine ⟨keys, hkeys, ?_⟩
  intro reported
  have hmem : ∀ i, i + 1 ∈ reported ↔ Repeats existingKeys keys i := by
    intro i
    simp only [reported, List.mem_map, mem_detectFrom]
    constructor
    · rintro ⟨info, ⟨-, hne, i', hrow, hkey, hknown⟩, hi⟩
      obtain rfl : i' = i := by omega
      exact ⟨info.key, hkey, hne, hknown.resolve_left List.not_mem_nil⟩
    · rintro ⟨key, hkey, hne, hknown⟩
      exact ⟨⟨i + 1, key, strategy⟩, ⟨rfl, hne, i, by simp, hkey, .inr hknown⟩, rfl⟩
  refine ⟨pairwise_detectFrom.map _ fun _ _ h => h, hmem, fun info hinfo => ?_,
    fun key hne hexists hkey => ?_⟩
  · obtain ⟨haction, -, i, hrow, hkey, -⟩ := mem_detectFrom.1 hinfo
    refine ⟨haction, by omega, ?_⟩
    rwa [show info.row - 1 = i by omega]
  · -- the first row of the key is the one that is not reported
    have hex : ∃ i, keys[i]? = some key := List.mem_iff_getElem?.1 hkey
    refine ⟨Nat.find hex, ⟨Nat.find_spec hex, fun hreported => ?_⟩, fun i ⟨hi, hnot⟩ => ?_⟩
    · obtain ⟨key', hkey', -, hknown⟩ := (hmem _).1 hreported
      obtain rfl := Option.some.inj ((Nat.find_spec hex).symm.trans hkey')
      rcases hknown with h | ⟨j, hj, hjkey⟩
      · exact hexists h
      · exact Nat.find_min hex hj hjkey
    · by_contra hi'
      have hlt : Nat.find hex < i := lt_of_le_of_ne (Nat.find_min' hex hi) (Ne.symm hi')
      exact hnot ((hmem i).2 ⟨key, hi, hne, .inr ⟨_, hlt, Nat.find_spec hex⟩⟩)

end Detect

end SorobanPay.DataImport
