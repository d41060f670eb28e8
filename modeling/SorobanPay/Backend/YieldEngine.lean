import Mathlib.Algebra.Order.Group.Int
import Mathlib.Data.PNat.Notation
import SorobanPay.Foundation.Entries

/-!
# The yield engine

`services/yieldCalculationEngine.ts` computes what vault positions have earned. Positions come from
outside, so that a position is a value of the language, whose fields may have any type; a field is
read by its name, and reading a field of `undefined` or `null` throws.

Numbers are left open: `Script` has their arithmetic and the conversions of the language. Values are
data, without functions and with the conversions of plain objects, which do not throw. Times are in
milliseconds, and an invalid `Date` has none.

## Main definitions

* `Value`: the values.
* `Arithmetic`, `Conversions`, `Script`: arithmetic and conversions.
* `VaultPosition`: well-typed positions.
* `calculatePositionYield`, `backfillHistoricalYield`, `processBatch`: the engine.
-/

set_option autoImplicit false

namespace SorobanPay.YieldEngine

open Foundation

/-! ### Values -/

/-- A value. -/
inductive Value (N : Type)
  | undefined
  | null
  | boolean (b : Bool)
  | number (n : N)
  | string (s : String)
  | date (time : Option ℤ)
  | array (items : List (Value N))
  | object (entries : List (String × Value N))

/-- The arithmetic of numbers: `+`, `-`, `*`, `/`, `Math.pow`, `<` and `Number.isNaN`. -/
structure Arithmetic (N : Type) where
  ofInt : ℤ → N
  add : N → N → N
  sub : N → N → N
  mul : N → N → N
  div : N → N → N
  pow : N → N → N
  lt : N → N → Bool
  isNaN : N → Bool

/-- The conversions of values: `Number`, `String`, and `Boolean` of a number. -/
structure Conversions (N : Type) where
  toNumber : Value N → N
  toText : Value N → String
  truthy : N → Bool

/-- The numbers of the language. -/
structure Script (N : Type) extends Arithmetic N, Conversions N

variable {N : Type}

namespace Value

/-- The value is `undefined` or `null`. -/
def isNullish : Value N → Bool
  | undefined | null => true
  | _ => false

/-- The text of a value that is `undefined` or `null`. -/
def nullishText : Value N → String
  | null => "null"
  | _ => "undefined"

/-- The value of a field. -/
def get (v : Value N) (key : String) : Except String (Value N) :=
  match v with
  | undefined | null =>
    .error ("Cannot read properties of " ++ v.nullishText ++ " (reading '" ++ key ++ "')")
  | object entries => .ok ((entries.lookup key).getD undefined)
  | _ => .ok undefined

/-- `v?.key`. -/
def getOptional (v : Value N) (key : String) : Value N := (v.get key).toOption.getD undefined

/-- `{ ...v, [key]: w }`. -/
def put (v : Value N) (key : String) (w : Value N) : Value N :=
  match v with
  | object entries => object (setEntry entries key w)
  | _ => object [(key, w)]

/-- `v === s`. -/
def isString (s : String) : Value N → Bool
  | string t => t = s
  | _ => false

/-- `Array.isArray(v)`. -/
def isArray : Value N → Bool
  | array _ => true
  | _ => false

/-- The time of a valid `Date`. -/
def time? : Value N → Option ℤ
  | date time => time
  | _ => none

/-- `v ?? w`. -/
def orElse (v w : Value N) : Value N := if v.isNullish then w else v

end Value

namespace Script

variable (J : Script N)

/-- The number that a value stands for. -/
def number : Value N → N
  | .number n => n
  | v => J.toNumber v

/-- The text that a value stands for. -/
def text : Value N → String
  | .string s => s
  | v => J.toText v

/-- Whether a value counts as true. -/
def truthyValue : Value N → Bool
  | .undefined | .null => false
  | .boolean b => b
  | .number n => J.truthy n
  | .string s => s ≠ ""
  | _ => true

/-- The value is a number, and not `NaN`. -/
def isNumber : Value N → Bool
  | .number n => !J.isNaN n
  | _ => false

/-- `+`: texts are joined, and with a text everything is a text. -/
def plus (a b : Value N) : Value N :=
  let joins : Value N → Bool
    | .string _ | .date _ | .array _ | .object _ => true
    | _ => false
  if joins a || joins b then .string (J.text a ++ J.text b)
  else .number (J.add (J.number a) (J.number b))

/-- `*`. -/
def times (a b : Value N) : N := J.mul (J.number a) (J.number b)

end Script

/-! ### Positions -/

/-- `VaultStatus`. -/
inductive VaultStatus
  | active | deactivated | closed
  deriving DecidableEq, Repr

def VaultStatus.text : VaultStatus → String
  | active => "active"
  | deactivated => "deactivated"
  | closed => "closed"

/-- `YieldSource`. -/
structure YieldSource (N : Type) where
  name : String
  apy : N
  weight : Option N

/-- `VaultPosition`. -/
structure VaultPosition (N : Type) where
  id : String
  principal : N
  status : VaultStatus
  yieldSources : List (YieldSource N)
  lastCalculatedAt : Option ℤ

def YieldSource.toValue (source : YieldSource N) : Value N :=
  .object ([("name", .string source.name), ("apy", .number source.apy)] ++
    (source.weight.map fun w => ("weight", .number w)).toList)

/-- A well-typed position as a value. -/
def VaultPosition.toValue (p : VaultPosition N) : Value N :=
  .object
    [("id", .string p.id), ("principal", .number p.principal), ("status", .string p.status.text),
      ("yieldSources", .array (p.yieldSources.map YieldSource.toValue)),
      ("lastCalculatedAt", .date p.lastCalculatedAt)]

/-- The status of a result. -/
inductive ResultStatus
  | updated | skipped
  deriving DecidableEq, Repr

/-- An entry of `sourceBreakdown`. -/
structure SourceShare (N : Type) where
  name : Value N
  apy : Value N
  weight : Value N

/-- `YieldCalculationResult`. -/
structure YieldCalculationResult (N : Type) where
  positionId : Value N
  status : ResultStatus
  effectiveApy : N
  accruedYield : N
  updatedPrincipal : Value N
  computedAt : ℤ
  sourceBreakdown : List (SourceShare N)

/-- `HistoricalYieldSnapshot`. -/
structure HistoricalYieldSnapshot (N : Type) where
  hour : ℕ
  principal : Value N
  accruedYield : N
  effectiveApy : N

/-- `YieldFailureContext`. -/
structure YieldFailureContext (N : Type) where
  positionId : Value N
  error : String
  computedAt : ℤ

/-! ### The engine -/

/-- The milliseconds of an hour. -/
def hourMs : ℤ := 3600000

/-- `updateIntervalHours`. -/
def updateIntervalHours : ℤ := 1

/-- The supported statuses. -/
def statuses : List String := ["active", "deactivated", "closed"]

/-- `getHoursElapsed`. -/
def getHoursElapsed (start stop : ℤ) : ℤ := max 0 (stop - start) / hourMs

section Engine

variable (J : Script N)

/-- `if (!b) throw new Error(message)`. -/
def check (b : Bool) (message : String) : Except String Unit := if b then .ok () else .error message

/-- `validatePosition`, with the time of `lastCalculatedAt`. -/
def validatePosition (position : Value N) : Except String ℤ := do
  let id := position.getOptional "id"
  check (J.truthyValue id) "Position is missing an id"
  let principal ← position.get "principal"
  check (J.isNumber principal) ("Position " ++ J.text id ++ " has an invalid principal")
  let yieldSources ← position.get "yieldSources"
  check yieldSources.isArray ("Position " ++ J.text id ++ " has invalid yieldSources")
  let lastCalculatedAt ← position.get "lastCalculatedAt"
  check lastCalculatedAt.time?.isSome
    ("Position " ++ J.text id ++ " has an invalid lastCalculatedAt value")
  let status ← position.get "status"
  check (statuses.any fun s => status.isString s)
    ("Position " ++ J.text id ++ " has an unsupported status")
  return lastCalculatedAt.time?.getD 0

/-- `source.weight ?? 1`. -/
def sourceWeight (source : Value N) : Except String (Value N) := do
  let weight ← source.get "weight"
  return weight.orElse (.number (J.ofInt 1))

/-- `sources.length === 0`. -/
def lengthIsZero (sources : Value N) : Except String Bool :=
  match sources with
  | .array items => .ok items.isEmpty
  | .string s => .ok (s = "")
  | _ => do
    match ← sources.get "length" with
    | .number n => return !J.lt n (J.ofInt 0) && !J.lt (J.ofInt 0) n && !J.isNaN n
    | _ => return false

/-- `totalWeight`. -/
def totalWeight (items : List (Value N)) : Except String (Value N) :=
  items.foldlM (fun sum source => return J.plus sum (← sourceWeight J source))
    (.number (J.ofInt 0))

/-- `weightedApy`. -/
def weightedApy (items : List (Value N)) : Except String N :=
  items.foldlM
    (fun sum source => return J.add sum (J.times (← source.get "apy") (← sourceWeight J source)))
    (J.ofInt 0)

/-- `calculateEffectiveApy`. -/
def calculateEffectiveApy (sources : Value N) : Except String N := do
  if ← lengthIsZero J sources then return J.ofInt 0
  match sources with
  | .array items =>
    let total ← totalWeight J items
    let weighted ← weightedApy J items
    return if J.lt (J.ofInt 0) (J.number total) then J.div weighted (J.number total)
      else J.ofInt 0
  | _ => throw "sources.reduce is not a function"

/-- `buildSourceBreakdown`. -/
def buildSourceBreakdown (sources : Value N) : Except String (List (SourceShare N)) := do
  match sources with
  | .array items =>
    items.mapM fun source =>
      return ⟨← source.get "name", ← source.get "apy", ← sourceWeight J source⟩
  | _ =>
    let _ ← sources.get "map"
    throw "sources.map is not a function"

/-- `calculatePositionYield`. -/
def calculatePositionYield (position : Value N) (now : ℤ) :
    Except String (YieldCalculationResult N) := do
  let lastCalculatedAt ← validatePosition J position
  let id ← position.get "id"
  let principal ← position.get "principal"
  let sources ← position.get "yieldSources"
  let effectiveApy ← calculateEffectiveApy J sources
  if (← position.get "status").isString VaultStatus.active.text = false then
    return {
      positionId := id
      status := .skipped
      effectiveApy
      accruedYield := J.ofInt 0
      updatedPrincipal := principal
      computedAt := now
      sourceBreakdown := ← buildSourceBreakdown J sources }
  let hoursElapsed := getHoursElapsed lastCalculatedAt now
  let dailyRate := J.div effectiveApy (J.ofInt 365)
  let compoundedYield := J.mul (J.number principal)
    (J.sub (J.pow (J.add (J.ofInt 1) dailyRate) (J.div (J.ofInt hoursElapsed) (J.ofInt 24)))
      (J.ofInt 1))
  return {
    positionId := id
    status := if updateIntervalHours ≤ hoursElapsed then .updated else .skipped
    effectiveApy
    accruedYield := compoundedYield
    updatedPrincipal := .number (J.add (J.number principal) compoundedYield)
    computedAt := now
    sourceBreakdown := ← buildSourceBreakdown J sources }

/-- The time of the step before an hour, and the start for the first hour. -/
def previousTime (start : ℤ) (intervalHours : ℕ+) (hour : ℕ) : ℤ :=
  if hour = 0 then start else start + ((hour : ℤ) - (intervalHours : ℕ)) * hourMs

/-- The loop of `backfillHistoricalYield` from an hour on. -/
def backfillFrom (position : Value N) (start hours : ℤ) (intervalHours : ℕ+) (hour : ℕ)
    (runningPrincipal : Value N) : Except String (List (HistoricalYieldSnapshot N)) :=
  if (hour : ℤ) ≤ hours then do
    let snapshotTime := start + hour * hourMs
    let statefulPosition := (position.put "principal" runningPrincipal).put "lastCalculatedAt"
      (.date (some (previousTime start intervalHours hour)))
    let result ← calculatePositionYield J statefulPosition snapshotTime
    let rest ← backfillFrom position start hours intervalHours (hour + intervalHours)
      result.updatedPrincipal
    return ⟨hour, result.updatedPrincipal, result.accruedYield, result.effectiveApy⟩ :: rest
  else return []
termination_by (hours + 1 - hour).toNat
decreasing_by
  have hpos : 0 < (intervalHours : ℕ) := intervalHours.2
  omega

/-- `backfillHistoricalYield`; from or to an invalid date there is no hour. -/
def backfillHistoricalYield (position : Value N) (start stop : Option ℤ) (intervalHours : ℕ+) :
    Except String (List (HistoricalYieldSnapshot N)) :=
  match start, stop with
  | some start, some stop => do
    let principal ← position.get "principal"
    backfillFrom J position start ((stop - start) / hourMs) intervalHours 0 principal
  | _, _ => .ok []

/-- The result for a position whose calculation has thrown. -/
def skippedResult (position : Value N) (now : ℤ) : Except String (YieldCalculationResult N) := do
  let sources ← position.get "yieldSources"
  return {
    positionId := ← position.get "id"
    status := .skipped
    effectiveApy := ← calculateEffectiveApy J sources
    accruedYield := J.ofInt 0
    updatedPrincipal := ← position.get "principal"
    computedAt := now
    sourceBreakdown := ← buildSourceBreakdown J sources }

/-- `processBatch`: the calls of `onFailure` in order, and the results, or what it is rejected
with. -/
def processBatch (now : ℤ) : List (Value N) →
    List (YieldFailureContext N) × Except String (List (YieldCalculationResult N))
  | [] => ([], .ok [])
  | position :: positions =>
    match calculatePositionYield J position now with
    | .ok result =>
      let (calls, results) := processBatch now positions
      (calls, results.map (result :: ·))
    | .error message =>
      match position.get "id" with
      | .error e => ([], .error e)
      | .ok id =>
        let call : YieldFailureContext N := ⟨id, message, now⟩
        match skippedResult J position now with
        | .error e => ([call], .error e)
        | .ok result =>
          let (calls, results) := processBatch now positions
          (call :: calls, results.map (result :: ·))

end Engine

end SorobanPay.YieldEngine
