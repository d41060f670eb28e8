import Mathlib.Data.List.Sort
import SorobanPay.Backend.CacheLayers
import SorobanPay.Backend.HumanAmounts

/-!
# The export of reports

`GET /v1/reports/payments` of `routes/reports.ts` writes the payments of a merchant as CSV or JSON.
The rows are read from `AuditLog` in batches, by `createDbReadable`, until a batch is short. The
limit and the offset of a query are part of the key of a report in the cache, and nothing else is
made of them. A report in JSON is first looked up there. The handler takes `null` for a miss, and
`cacheGet` returns `CACHE_MISS`, so that whatever it returns is sent for the report.

`CacheKey` is not in the repository. The key of a report, the texts of times and the checks of the
schema library are parameters. No statement on the database fails.

## Main definitions

* `escapeCsvCell`, `toCsvRow`: CSV.
* `ReportRuntime`, `ReportQuery`: what is not in the repository, and validated queries.
* `createDbReadable`: reading in batches.
* `exportPayments`: the handler.
* `HonoursWindow`: a report of the rows that the query asks for.

## Main results

* `createDbReadable_eq`: all rows are read, whatever the size of a batch.
* `exportPayments_eq`: what a report is.
* `honoursWindow_iff`: when a report is what the query asks for.
-/

set_option autoImplicit false

namespace SorobanPay.Reports

open HumanAmounts Redis

/-! ### CSV -/

/-- The quotation mark. -/
def quoteMark : Char := '\x22'

/-- `escapeCsvCell`. -/
def escapeCsvCell (value : String) : String :=
  if value.toList.any fun c => c = quoteMark ∨ c = ',' ∨ c = '\r' ∨ c = '\n' then
    String.ofList (quoteMark :: (value.toList.flatMap fun c =>
      if c = quoteMark then [quoteMark, quoteMark] else [c]) ++ [quoteMark])
  else value

/-- `toCsvRow`. -/
def toCsvRow (cells : List String) : String :=
  String.ofList ([','].intercalate (cells.map fun cell => (escapeCsvCell cell).toList) ++
    ['\r', '\n'])

/-- `CSV_HEADERS`. -/
def csvHeaders : List String :=
  ["Date", "Subscriber", "Token", "Amount (human-readable)", "Amount (raw)", "Tx Hash", "Status"]

/-! ### Queries -/

/-- `/^\d{4}-\d{2}-\d{2}$/` -/
def isCalendarDate (text : String) : Bool :=
  match text.toList with
  | [y₁, y₂, y₃, y₄, '-', m₁, m₂, '-', d₁, d₂] =>
    [y₁, y₂, y₃, y₄, m₁, m₂, d₁, d₂].all Char.isDigit
  | _ => false

/-- What is not in the repository: the check of a time with its zone, the conversions of times, and
the key of a report. -/
structure ReportRuntime where
  isDateTime : String → Bool
  /-- `new Date(text)` -/
  dateOf : String → ℤ
  toISOString : ℤ → String
  /-- `CacheKey.analyticsRevenue` -/
  analyticsRevenue : String → String → String

/-- `isoDateString`. -/
def isoDateString (R : ReportRuntime) (text : String) : Bool :=
  R.isDateTime text || isCalendarDate text

inductive ReportFormat
  | json
  | csv
  deriving DecidableEq, Repr

inductive ReportStatus
  | all
  | success
  | failed
  deriving DecidableEq, Repr

def ReportStatus.text : ReportStatus → String
  | .all => "all"
  | .success => "success"
  | .failed => "failed"

/-- A query that `reportQuerySchema` has validated. -/
structure ReportQuery (R : ReportRuntime) where
  merchant : String
  «from» : Option String
  «to» : Option String
  format : ReportFormat
  status : ReportStatus
  limit : ℕ
  offset : ℕ
  merchant_ne : merchant ≠ ""
  from_iso : ∀ text ∈ «from», isoDateString R text = true
  to_iso : ∀ text ∈ «to», isoDateString R text = true
  limit_pos : 1 ≤ limit
  limit_le : limit ≤ 100000

/-! ### Rows -/

/-- A row of `AuditLog`. -/
structure AuditLog where
  id : ℕ
  subscriber : String
  merchant : String
  token : String
  amount : String
  transactionHash : String
  status : String
  createdAt : ℤ
  deriving DecidableEq, Repr

structure PaymentRow where
  date : String
  subscriber : String
  token : String
  amountHuman : String
  amountRaw : String
  txHash : String
  status : String
  deriving DecidableEq, Repr

/-- `createDbReadable`: the rows that are pushed from an offset on, if the query finds these. -/
def createDbReadable (found : List AuditLog) (batchSize offset : ℕ) (done : Bool) :
    List AuditLog :=
  if done then []
  else
    let rows := (found.drop offset).take batchSize
    if rows.length = 0 then []
    else rows ++ createDbReadable found batchSize (offset + rows.length) (rows.length < batchSize)
  termination_by found.length - offset
  decreasing_by
    have hlength : rows.length = min batchSize (found.length - offset) := by
      simp only [rows, List.length_take, List.length_drop]
    simp only [List.length_take, List.length_drop]
    omega

/-- **All rows** from the offset on are read, whatever the size of a batch. -/
theorem createDbReadable_eq (found : List AuditLog) {batchSize : ℕ} (hbatch : 0 < batchSize)
    (offset : ℕ) : createDbReadable found batchSize offset false = found.drop offset := by
  induction hleft : found.length - offset using Nat.strongRecOn generalizing offset with
  | ind left ih =>
    rw [createDbReadable, if_neg (by decide)]
    simp only [List.length_take, List.length_drop]
    split_ifs with hnone
    · rw [List.drop_eq_nil_of_le (by omega)]
    · by_cases hshort : min batchSize (found.length - offset) < batchSize
      · -- a short batch is the last one
        rw [decide_eq_true hshort, createDbReadable, if_pos rfl, List.append_nil,
          List.take_of_length_le (by rw [List.length_drop]; omega)]
      · rw [decide_eq_false hshort, ih _ (by omega) _ rfl,
          show min batchSize (found.length - offset) = batchSize by omega, ← List.drop_drop,
          List.take_append_drop]

/-! ### Reports -/

section Runtime

variable (R : ReportRuntime)

/-- `toPaymentRow`. -/
def toPaymentRow (record : AuditLog) : PaymentRow where
  date := R.toISOString record.createdAt
  subscriber := record.subscriber
  token := record.token
  amountHuman := reportsToHumanAmount record.amount
  amountRaw := record.amount
  txHash := record.transactionHash
  status := record.status

/-- The line of a row. -/
def csvLine (row : PaymentRow) : String :=
  toCsvRow [row.date, row.subscriber, row.token, row.amountHuman, row.amountRaw, row.txHash,
    row.status]

/-- The condition on the status of a payment. -/
def statusWhere : ReportStatus → String → Bool
  | .all, _ => true
  | .success, status => status = "executed"
  | .failed, status => status ≠ "executed"

/-- The condition of the query on the database. -/
def reportWhere (query : ReportQuery R) (record : AuditLog) : Bool :=
  record.merchant = query.merchant ∧
    (query.«from».all fun text => decide (R.dateOf text ≤ record.createdAt)) ∧
    (query.«to».all fun text => decide (record.createdAt ≤ R.dateOf text)) ∧
    statusWhere query.status record.status

/-- The rows that the query on the database finds, `orderBy: { createdAt: 'asc' }`. -/
def foundLogs (table : List AuditLog) (query : ReportQuery R) : List AuditLog :=
  (table.filter (reportWhere R query)).insertionSort fun a b => a.createdAt ≤ b.createdAt

/-- What the key of a report says about its rows. -/
def reportPeriod (query : ReportQuery R) : String :=
  query.«from».getD "all" ++ "__" ++ query.«to».getD "all" ++ "__" ++ query.status.text ++ "__" ++
    toString (query.limit : ℤ) ++ "__" ++ toString (query.offset : ℤ)

def reportKey (query : ReportQuery R) : String :=
  R.analyticsRevenue query.merchant (reportPeriod R query)

/-- What `cacheGet` returns: a text, or the symbol `CACHE_MISS`, which is not `null`. -/
inductive Cached
  | null
  | value (text : String)
  | cacheMiss
  deriving DecidableEq, Repr

/-- A key that has been found, or not. -/
def Cached.ofFound : Option String → Cached
  | none => .cacheMiss
  | some text => .value text

/-- What is written: lines of CSV, an array of rows, or what `res.json` makes of a value that comes
from the cache, which is the JSON of a text, or nothing for a symbol. -/
inductive ReportBody
  | csv (chunks : List String)
  | json (rows : List PaymentRow)
  | sent (text : Option String)
  deriving DecidableEq, Repr

/-- A report of some rows. -/
def reportBody (query : ReportQuery R) (records : List AuditLog) : ReportBody :=
  match query.format with
  | .csv => .csv (toCsvRow csvHeaders :: records.map fun record => csvLine (toPaymentRow R record))
  | .json => .json (records.map (toPaymentRow R))

/-- The rows are those of the report. What comes from the cache is no row, but a text or nothing. -/
def ReportBody.Writes : ReportBody → List PaymentRow → Prop
  | .csv chunks, rows => chunks = toCsvRow csvHeaders :: rows.map csvLine
  | .json rows, rows' => rows = rows'
  | .sent _, rows => rows = []

/-- The handler: what the cache is afterwards, and what is written. -/
def exportPayments (table : List AuditLog) (batchSize : ℕ) (cache : CacheState)
    (command : CommandEnd) (query : ReportQuery R) : CacheState × ReportBody :=
  let source := createDbReadable (foundLogs R table query) batchSize 0 false
  match query.format with
  | .csv => (cache, reportBody R query source)
  | .json =>
    let got := cacheGet cache (reportKey R query) command
    match Cached.ofFound got.2 with
    -- here the rows would also be kept under the key
    | .null => (got.1, reportBody R query source)
    | .value text => (got.1, .sent (some text))
    | .cacheMiss => (got.1, .sent none)

/-- The report is that of the rows from the offset on, up to the limit, in the order of their times.
-/
def HonoursWindow (table : List AuditLog) (query : ReportQuery R) (body : ReportBody) : Prop :=
  ∃ records : List AuditLog, records.Perm (table.filter (reportWhere R query)) ∧
    records.Pairwise (fun a b => a.createdAt < b.createdAt) ∧
    body.Writes (((records.drop query.offset).take query.limit).map (toPaymentRow R))

variable {R} {table : List AuditLog} {batchSize : ℕ} {query : ReportQuery R}

/-- **A report** in CSV is that of all rows that the query on the database finds, and one in JSON
has no rows. -/
theorem exportPayments_eq (hbatch : 0 < batchSize) (cache : CacheState) (command : CommandEnd)
    (query : ReportQuery R) :
    (exportPayments R table batchSize cache command query).2 =
      match query.format with
      | .csv => reportBody R query (foundLogs R table query)
      | .json => .sent (cacheGet cache (reportKey R query) command).2 := by
  unfold exportPayments
  rw [createDbReadable_eq _ hbatch, List.drop_zero]
  cases query.format with
  | csv => rfl
  | json =>
    dsimp only
    cases (cacheGet cache (reportKey R query) command).2 <;> rfl

end Runtime

/-! ### Windows -/

variable {R : ReportRuntime} {query : ReportQuery R}

theorem length_foundLogs (table : List AuditLog) (query : ReportQuery R) :
    (foundLogs R table query).length = (table.filter (reportWhere R query)).length :=
  List.length_insertionSort _ _

/-- Rows with different times are in the order of these. -/
theorem pairwise_foundLogs {table : List AuditLog} (htimes : (table.map AuditLog.createdAt).Nodup)
    (query : ReportQuery R) :
    (foundLogs R table query).Pairwise fun a b => a.createdAt < b.createdAt := by
  have htrans : IsTrans AuditLog fun a b => a.createdAt ≤ b.createdAt :=
    ⟨fun _ _ _ => le_trans⟩
  have htotal : Std.Total fun a b : AuditLog => a.createdAt ≤ b.createdAt :=
    ⟨fun _ _ => le_total _ _⟩
  have hsorted := List.pairwise_insertionSort (fun a b : AuditLog => a.createdAt ≤ b.createdAt)
    (table.filter (reportWhere R query))
  have hperm := List.perm_insertionSort (fun a b : AuditLog => a.createdAt ≤ b.createdAt)
    (table.filter (reportWhere R query))
  have hdistinct : (foundLogs R table query).Pairwise fun a b => a.createdAt ≠ b.createdAt := by
    have hnodup : ((table.filter (reportWhere R query)).map AuditLog.createdAt).Nodup :=
      htimes.sublist ((List.filter_sublist).map _)
    exact List.pairwise_map.1 ((hperm.map AuditLog.createdAt).nodup_iff.2 hnodup)
  exact hsorted.imp₂ (fun _ _ hle hne => lt_of_le_of_ne hle hne) hdistinct

/-- For CSV, all rows of the query are in its window, and for JSON none is. This is said by their
number. -/
def WindowMet (query : ReportQuery R) (count : ℕ) : Prop :=
  match query.format with
  | .csv => count = 0 ∨ query.offset = 0 ∧ count ≤ query.limit
  | .json => count ≤ query.offset

variable {table : List AuditLog} (htimes : (table.map AuditLog.createdAt).Nodup)

include htimes

/-- All rows are those of the window. -/
theorem honoursWindow_csv_iff (hformat : query.format = .csv) :
    HonoursWindow R table query (reportBody R query (foundLogs R table query)) ↔
      (table.filter (reportWhere R query)).length = 0 ∨
        query.offset = 0 ∧ (table.filter (reportWhere R query)).length ≤ query.limit := by
  have hlength := length_foundLogs table query
  have hlimit := query.limit_pos
  rw [reportBody, hformat]
  constructor
  · rintro ⟨records, hperm, -, hbody⟩
    have hcount := congrArg List.length hbody
    simp only [List.length_cons, List.length_map, hlength, List.length_take, List.length_drop,
      hperm.length_eq] at hcount
    omega
  · intro h
    have hall : ((foundLogs R table query).drop query.offset).take query.limit =
        foundLogs R table query := by
      rcases h with hnone | ⟨hoffset, hle⟩
      · rw [hnone] at hlength
        rw [List.length_eq_zero_iff.1 hlength, List.drop_nil, List.take_nil]
      · rw [hoffset, List.drop_zero, List.take_of_length_le (hlength.trans_le hle)]
    refine ⟨foundLogs R table query, List.perm_insertionSort _ _, pairwise_foundLogs htimes query,
      ?_⟩
    rw [hall, ReportBody.Writes, List.map_map]
    rfl

/-- No row is in the window. -/
theorem honoursWindow_sent_iff (text : Option String) :
    HonoursWindow R table query (.sent text) ↔
      (table.filter (reportWhere R query)).length ≤ query.offset := by
  have hlimit := query.limit_pos
  constructor
  · rintro ⟨records, hperm, -, hbody⟩
    have hcount := congrArg List.length hbody
    rw [List.length_map, List.length_take, List.length_drop, hperm.length_eq,
      List.length_nil] at hcount
    omega
  · intro hle
    refine ⟨foundLogs R table query, List.perm_insertionSort _ _, pairwise_foundLogs htimes query,
      ?_⟩
    rw [ReportBody.Writes, List.drop_eq_nil_of_le ((length_foundLogs table query).trans_le hle),
      List.take_nil, List.map_nil]

omit htimes

/-- **The window of a report.** Whatever the cache holds and however it answers, a report is what
the query asks for if and only if, in CSV, there are no rows, or there are no more rows than the
limit and none is to be skipped, and in JSON, all rows are to be skipped. -/
theorem honoursWindow_iff (R : ReportRuntime) (table : List AuditLog)
    (htimes : (table.map AuditLog.createdAt).Nodup) (batchSize : ℕ) (hbatch : 0 < batchSize)
    (cache : CacheState) (command : CommandEnd) (query : ReportQuery R) :
    HonoursWindow R table query (exportPayments R table batchSize cache command query).2 ↔
      WindowMet query (table.filter (reportWhere R query)).length := by
  rw [exportPayments_eq hbatch, WindowMet]
  cases hformat : query.format with
  | csv => exact honoursWindow_csv_iff htimes hformat
  | json => exact honoursWindow_sent_iff htimes _

/-- A runtime that knows two times. -/
def sampleRuntime : ReportRuntime where
  isDateTime _ := false
  dateOf _ := 0
  toISOString ms := if ms = 0 then "1970-01-01T00:00:00.000Z" else "1970-01-01T00:00:01.000Z"
  analyticsRevenue merchant period := "analytics:revenue:" ++ merchant ++ ":" ++ period

/-- All payments of a merchant, in a format and up to a limit. -/
def sampleQuery (format : ReportFormat) (limit : ℕ) (hlimit : 1 ≤ limit ∧ limit ≤ 100000) :
    ReportQuery sampleRuntime where
  merchant := "M"
  «from» := none
  «to» := none
  format := format
  status := .all
  limit := limit
  offset := 0
  merchant_ne := by decide
  from_iso := by simp
  to_iso := by simp
  limit_pos := hlimit.1
  limit_le := hlimit.2

/-- Two payments, a second apart. -/
def sampleLogs : List AuditLog :=
  [⟨1, "S", "M", "T", "15000000", "a", "executed", 0⟩,
    ⟨2, "S", "M", "T", "20000000", "b", "executed", 1000⟩]

/-- A cache that holds nothing. -/
def sampleCache : CacheState := (NotedCache.empty {} "sorobanpay" 0).cache

theorem honoursWindow_iff_sample :
    HonoursWindow sampleRuntime sampleLogs (sampleQuery .csv 5 (by decide))
      (exportPayments sampleRuntime sampleLogs 1 sampleCache {}
        (sampleQuery .csv 5 (by decide))).2 :=
  (honoursWindow_iff sampleRuntime sampleLogs (by decide) 1 (by decide) sampleCache {}
    (sampleQuery .csv 5 (by decide))).2 (.inr (by decide))

/-- With a limit of one row, both payments are in the report in CSV, and none is in JSON. -/
theorem not_honoursWindow_two_payments :
    ¬HonoursWindow sampleRuntime sampleLogs (sampleQuery .csv 1 (by decide))
        (exportPayments sampleRuntime sampleLogs 500 sampleCache {}
          (sampleQuery .csv 1 (by decide))).2 ∧
      ¬HonoursWindow sampleRuntime sampleLogs (sampleQuery .json 1 (by decide))
        (exportPayments sampleRuntime sampleLogs 500 sampleCache {}
          (sampleQuery .json 1 (by decide))).2 := by
  have htimes : (sampleLogs.map AuditLog.createdAt).Nodup := by decide
  rw [exportPayments_eq (by decide), exportPayments_eq (by decide)]
  refine ⟨fun h => ?_, fun h => ?_⟩
  · have hmet := (honoursWindow_csv_iff htimes rfl).1 h
    revert hmet
    decide
  · have hmet := (honoursWindow_sent_iff htimes _).1 h
    revert hmet
    decide

end SorobanPay.Reports
