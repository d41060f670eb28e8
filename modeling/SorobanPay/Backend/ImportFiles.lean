import SorobanPay.Backend.CsvRoundTrip
import Mathlib.Data.List.Sort

/-!
# The files of an import

The readers of `services/dataImportService.ts`. `parseJson` takes the items of an array for rows
whatever they are, and `parseXml` looks for elements with regular expressions. The rows of a CSV or
XML file are objects of texts and `null`; those of a JSON file may be `null` themselves, or texts,
or objects within objects.

## Main definitions

* `ImportValue`, `JsonValue`: values and rows.
* `ImportRuntime`: what JavaScript makes of them.
* `JsonValue.read`, `JsonValue.keys`, `JsonValue.toPrimitive`: `row[name]`, `Object.keys(row)` and
  the value that `String(val)` and `Number(val)` start from, each of which may throw.
* `parseJson`, `parseXml`: the readers.
-/

set_option autoImplicit false

namespace SorobanPay.DataImport

open Foundation WebhookNotifier

/-! ### Values -/

/-- A value that is no object; numbers are those of JavaScript. -/
inductive ImportValue (Number : Type)
  | null
  | text (s : String)
  | number (x : Number)
  | flag (b : Bool)
  deriving DecidableEq, Repr

/-- A value that `JSON.parse` returns, or one that is found on it. An object has its entries in the
order of insertion, no name twice. A function, or an object that comes with the language, is given
by its text. -/
inductive JsonValue (Number : Type)
  | scalar (val : ImportValue Number)
  | array (items : List (JsonValue Number))
  | object (entries : List (String × JsonValue Number))
  | builtin (text : String)

/-- `ImportRow`, which nothing checks to be an object. -/
abbrev ImportRow (Number : Type) := JsonValue Number

/-- A row of a CSV or XML file. -/
def ofTexts {Number : Type} (row : CsvImport.ImportRow) : ImportRow Number :=
  .object (row.entries.map fun (name, text) => (name, .scalar (text.elim .null .text)))

/-- What JavaScript makes of values. -/
structure ImportRuntime (Number : Type) where
  /-- `JSON.parse(content)`, with the message of the error that it throws. -/
  jsonParse : String → Except String (JsonValue Number)
  /-- `String(x)`. -/
  numberText : Number → String
  /-- `isNaN(Number(val))`. -/
  isNaN : ImportValue Number → Bool
  /-- `isNaN(Date.parse(s))` is false. -/
  isDate : String → Bool
  /-- A length as a number. -/
  ofNat : ℕ → Number
  /-- `s[i]`, which may be half a character. -/
  unitAt : String → ℕ → String
  /-- What a value inherits under a name from its prototypes, by its text. -/
  inherited : JsonValue Number → String → Option String

/-- The length of a text in UTF-16 code units. -/
def textLength (s : String) : ℕ := (s.toList.map fun c => if c.toNat < 0x10000 then 1 else 2).sum

/-! ### Objects -/

/-- The index below `n` that a name is. -/
def indexOf (n : ℕ) (name : String) : Option ℕ := (List.range n).find? fun i => toString i = name

/-- The number that a name is, if it is an index of arrays. -/
def arrayIndex (name : String) : Option ℕ :=
  name.toNat?.filter fun i => toString i = name ∧ i < 2 ^ 32 - 1

/-- The names of an object in the order of `Object.keys`: the indices in ascending order, and the
others as they were inserted. -/
def orderKeys (names : List String) : List String :=
  ((names.filterMap arrayIndex).insertionSort (· ≤ ·)).map toString ++
    names.filter fun name => (arrayIndex name).isNone

section Objects

variable {Number : Type} (R : ImportRuntime Number)

/-- A property that a value has of its own. -/
def JsonValue.own : JsonValue Number → String → Option (JsonValue Number)
  | .object entries, name => entries.lookup name
  | .array items, name =>
    if name = "length" then some (.scalar (.number (R.ofNat items.length)))
    else (indexOf items.length name).bind fun i => items[i]?
  | .scalar (.text s), name =>
    if name = "length" then some (.scalar (.number (R.ofNat (textLength s))))
    else (indexOf (textLength s) name).map fun i => .scalar (.text (R.unitAt s i))
  | _, _ => none

/-- `val[name]`, where `none` is `undefined`. -/
def JsonValue.read (val : JsonValue Number) (name : String) :
    Except String (Option (JsonValue Number)) :=
  match val with
  | .scalar .null => .error s!"Cannot read properties of null (reading '{name}')"
  | val => .ok ((val.own R name).orElse fun _ => (R.inherited val name).map .builtin)

/-- `Object.keys(val)`. -/
def JsonValue.keys : JsonValue Number → Except String (List String)
  | .scalar .null => .error "Cannot convert undefined or null to object"
  | .scalar (.text s) => .ok ((List.range (textLength s)).map toString)
  | .array items => .ok ((List.range items.length).map toString)
  | .object entries => .ok (orderKeys (entries.map Prod.fst))
  | _ => .ok []

/-- `String(val)`, for a value that is no object. -/
def ImportValue.toText : ImportValue Number → String
  | .null => "null"
  | .text s => s
  | .number x => R.numberText x
  | .flag b => if b then "true" else "false"

mutual

/-- The value that is no object which `String(val)` and `Number(val)` start from. An object with a
`toString` of its own, which is no function, has none. -/
def JsonValue.toPrimitive : JsonValue Number → Except String (ImportValue Number)
  | .scalar val => .ok val
  | .array items => (joinTexts items).map fun texts => .text (",".intercalate texts)
  | .object entries =>
    if (entries.lookup "toString").isSome then .error "Cannot convert object to primitive value"
    else .ok (.text "[object Object]")
  | .builtin text => .ok (.text text)

/-- The texts that `join` puts together, `null` being empty. -/
def joinTexts : List (JsonValue Number) → Except String (List String)
  | [] => .ok []
  | .scalar .null :: items => (joinTexts items).map ("" :: ·)
  | item :: items =>
    item.toPrimitive.bind fun val => (joinTexts items).map (val.toText R :: ·)

end

end Objects

/-! ### JSON -/

section Json

variable {Number : Type} (R : ImportRuntime Number)

/-- The array under a key of an object. -/
def itemsUnder (entries : List (String × JsonValue Number)) (key : String) :
    Option (List (ImportRow Number)) :=
  match entries.lookup key with
  | some (.array items) => some items
  | _ => none

/-- `parseJson`. -/
def parseJson (content : String) : Except String (List (ImportRow Number)) :=
  match R.jsonParse content with
  | .error message => .error s!"Invalid JSON: {message}"
  | .ok (.array items) => .ok items
  | .ok (.object entries) =>
    match ["data", "items", "records", "rows"].findSome? (itemsUnder entries) with
    | some items => .ok items
    | none => .error "JSON must be an array or an object with a data/items/records/rows array"
  | .ok _ => .error "JSON must be an array or an object with a data/items/records/rows array"

end Json

/-! ### XML -/

section Matching

variable {α : Type}

/-- The matches of a pattern, from left to right, each where the one before it ends. The pattern
is tried at the start of what is left, and returns the rest after a match. -/
def matchesFrom (pattern : List Char → Option (α × List Char)) : ℕ → List Char → List α
  | _, [] => []
  | skipped + 1, _ :: cs => matchesFrom pattern skipped cs
  | 0, c :: cs =>
    match pattern (c :: cs) with
    | some (a, rest) => a :: matchesFrom pattern (cs.length - rest.length) cs
    | none => matchesFrom pattern 0 cs

/-- What is before the first occurrence of a text, and after it. -/
def breakFirst (mark : List Char) : List Char → Option (List Char × List Char)
  | [] => none
  | c :: cs =>
    if mark.isPrefixOf (c :: cs) then some ([], (c :: cs).drop mark.length)
    else (breakFirst mark cs).map fun (before, after) => (c :: before, after)

/-- What is before the last occurrence of a text, and after it. -/
def breakLast (mark : List Char) : List Char → Option (List Char × List Char)
  | [] => none
  | c :: cs =>
    match breakLast mark cs with
    | some (before, after) => some (c :: before, after)
    | none =>
      if mark.isPrefixOf (c :: cs) then some ([], (c :: cs).drop mark.length) else none

end Matching

/-- `\w`. -/
def isWord (c : Char) : Bool := c.isAlphanum || c = '_'

/-- What `(\w+)` may match at the start of a text, the longest first. -/
def namesAt (cs : List Char) : List (List Char) := (cs.takeWhile isWord).inits.tail.reverse

/-- What follows `[^>]*>`. -/
def afterTag (cs : List Char) : Option (List Char) :=
  match cs.dropWhile (· ≠ '>') with
  | [] => none
  | _ :: body => some body

def closingTag (name : List Char) : List Char := '<' :: '/' :: name ++ ['>']

/-- `/<(\w+)[^>]*>([\s\S]*)<\/\1>/`, with the text between the tags. -/
def matchRoot : List Char → Option (List Char × List Char)
  | '<' :: rest => (namesAt rest).findSome? fun name =>
    (afterTag (rest.drop name.length)).bind (breakLast (closingTag name))
  | _ => none

/-- `/<(\w+)[\s>]/`, with the name. -/
def matchItemTag : List Char → Option (List Char × List Char)
  | '<' :: rest =>
    match rest.takeWhile isWord, rest.dropWhile isWord with
    | name, c :: after =>
      if name ≠ [] ∧ (isTrimmed c ∨ c = '>') then some (name, after) else none
    | _, [] => none
  | _ => none

/-- The regular expression of the items, with the text between the tags. -/
def matchItem (itemTag cs : List Char) : Option (List Char × List Char) :=
  if ('<' :: itemTag).isPrefixOf cs then
    (afterTag (cs.drop (itemTag.length + 1))).bind (breakFirst (closingTag itemTag))
  else none

/-- `/<(\w+)[^>]*>([^<]*)<\/\1>/`, with the name and the text. -/
def matchField : List Char → Option ((String × List Char) × List Char)
  | '<' :: rest => (namesAt rest).findSome? fun name =>
    (afterTag (rest.drop name.length)).bind fun body =>
      if (closingTag name).isPrefixOf (body.dropWhile (· ≠ '<')) then
        some ((String.ofList name, body.takeWhile (· ≠ '<')),
          (body.dropWhile (· ≠ '<')).drop (closingTag name).length)
      else none
  | _ => none

/-- The row of an item. -/
def itemRow (itemContent : List Char) : CsvImport.ImportRow :=
  (matchesFrom matchField 0 itemContent).foldl (fun row (name, text) =>
    CsvImport.setField row name
      (if CsvImport.trimmed text = "" then none else some (CsvImport.trimmed text))) .empty

/-- `parseXml`. -/
def parseXml (content : String) : Except String (List CsvImport.ImportRow) :=
  match matchesFrom matchRoot 0 content.toList with
  | [] => .error "Invalid XML: no root element found"
  | inner :: _ =>
    match matchesFrom matchItemTag 0 inner with
    | [] => .ok []
    | itemTag :: _ =>
      .ok (((matchesFrom (matchItem itemTag) 0 inner).map itemRow).filter (·.entries ≠ []))

end SorobanPay.DataImport
