import SorobanPay.Foundation.Csv
import SorobanPay.Foundation.OrderedPages
import SorobanPay.Backend.CsvRoundTrip

/-!
# The export of payments

`GET /:merchant/export` of `routes/payments.ts` streams the payments of a merchant as CSV or JSON.
`createPaymentReadable` reads them from the table `Payment` in batches, until a batch is short. When
the query for a batch fails, the batch is read from the table `Event` instead, from the same offset;
when this fails as well, the stream is destroyed, and a file of CSV is cut off.

The tables do not change while a file is written. The times of their rows are times that a `Date`
has. The texts of times are a parameter.

## Main definitions

* `Payment`, `Event`, `PaymentRecord`: the rows, and what is read of them.
* `normaliseRow`, `exportPayments`: the handler.
* `createPaymentReadable`: reading in batches, with what the database replies.
* `Right`: replies of the database.

## Main results

* `getElem?_createPaymentReadable`, `createPaymentReadable_ended`: which rows are read, and when it
  ends.
* `payment_export`: what a reader finds in the file.
-/

set_option autoImplicit false

namespace SorobanPay.PaymentExport

open Foundation HumanAmounts

/-! ### Rows -/

/-- The time of a `Date`, in milliseconds. -/
abbrev DateTime := {t : ℤ // |t| ≤ 8640000000000000}

/-- The time of a ledger, in seconds. -/
abbrev LedgerTime := {t : ℤ // |t * 1000| ≤ 8640000000000000}

/-- A row of `Payment`. -/
structure Payment where
  id : ℕ
  subscriber : String
  merchant : String
  token : String
  amount : String
  eventType : String
  txHash : String
  paymentNonce : ℤ
  timestamp : DateTime
  deriving DecidableEq

/-- A row of `Event`. -/
structure Event where
  id : ℕ
  type : String
  subscriber : String
  merchant : String
  token : String
  amount : String
  ledgerTimestamp : LedgerTime
  deriving DecidableEq

/-- What the export reads of a row; a row may lack any of it. -/
structure PaymentRecord where
  timestamp : Option DateTime
  ledgerTimestamp : Option LedgerTime
  amount : Option String
  status : Option String
  type : Option String
  subscriber : Option String
  token : Option String
  txHash : Option String
  transactionHash : Option String
  paymentNonce : Option ℤ

/-- A row that is pushed, of one of the two tables. -/
inductive ExportRow
  | payment (payment : Payment)
  | event (event : Event)
  deriving DecidableEq

/-- A row as the export sees it. `Payment` has no status and no type. -/
def ExportRow.record : ExportRow → PaymentRecord
  | .payment p => ⟨some p.timestamp, none, some p.amount, none, none, some p.subscriber,
      some p.token, some p.txHash, none, some p.paymentNonce⟩
  | .event e => ⟨none, some e.ledgerTimestamp, some e.amount, none, some e.type,
      some e.subscriber, some e.token, none, none, none⟩

structure NormalisedRow where
  date : String
  type : String
  subscriber : String
  amountHuman : String
  amountRaw : String
  token : String
  txHash : String
  nonce : String
  deriving DecidableEq, Repr

section Rows

variable (toISOString : DateTime → String)

/-- `normaliseRow`, at a time. -/
def normaliseRow (now : DateTime) (record : PaymentRecord) : NormalisedRow :=
  let date := match record.timestamp, record.ledgerTimestamp with
    | some timestamp, _ => toISOString timestamp
    | none, some ledgerTimestamp => toISOString ⟨ledgerTimestamp.1 * 1000, ledgerTimestamp.2⟩
    | none, none => toISOString now
  let amountRaw := record.amount.getD "0"
  { date := date
    type := (record.status <|> record.type).getD "executed"
    subscriber := record.subscriber.getD ""
    amountHuman := paymentsToHumanAmount amountRaw
    amountRaw := amountRaw
    token := record.token.getD ""
    txHash := (record.txHash <|> record.transactionHash).getD ""
    nonce := record.paymentNonce.elim "" toString }

/-- `CSV_COLUMNS`. -/
def csvColumns : List String :=
  ["Date", "Type", "Subscriber", "Amount (human-readable)", "Amount (raw)", "Token", "Tx Hash",
    "Nonce"]

/-- `escapeCsvCell` and `toCsvRow`, as in `routes/reports.ts`. -/
def escapeCsvCell : String → String := Reports.escapeCsvCell

def toCsvRow : List String → String := Reports.toCsvRow

def NormalisedRow.cells (row : NormalisedRow) : List String :=
  [row.date, row.type, row.subscriber, row.amountHuman, row.amountRaw, row.token, row.txHash,
    row.nonce]

/-- The cells of a row that is pushed. A row of either table has a time of its own. -/
def ExportRow.cells (row : ExportRow) : List String :=
  match row with
  | .payment p => [toISOString p.timestamp, "executed", p.subscriber,
      paymentsToHumanAmount p.amount, p.amount, p.token, p.txHash, toString p.paymentNonce]
  | .event e => [toISOString ⟨e.ledgerTimestamp.1 * 1000, e.ledgerTimestamp.2⟩, e.type,
      e.subscriber, paymentsToHumanAmount e.amount, e.amount, e.token, "", ""]

theorem cells_normaliseRow (now : DateTime) (row : ExportRow) :
    (normaliseRow toISOString now row.record).cells = row.cells toISOString := by
  cases row with
  | payment p => rfl
  | event e => rfl

end Rows

/-! ### Batches -/

/-- The table that a batch is read from. -/
inductive ExportTable
  | payment
  | event
  deriving DecidableEq, Repr

/-- What the database replies for a batch: the rows that are found in a table, which is `Event` if
the query for payments fails, or nothing if both queries do. -/
inductive BatchReply
  | found (table : ExportTable) (rows : List ExportRow)
  | failed

/-- The stream waits for the reply to the next query, has ended, or has been destroyed. -/
inductive ReadState
  | reading
  | ended
  | destroyed
  deriving DecidableEq, Repr

/-- `createPaymentReadable`, from an offset on: the rows that are pushed, and what becomes of it. -/
def createPaymentReadable (batchSize : ℕ) : List BatchReply → ℕ → List ExportRow × ReadState
  | [], _ => ([], .reading)
  | .failed :: _, _ => ([], .destroyed)
  | .found _ found :: replies, offset =>
    let rows := (found.drop offset).take batchSize
    if rows.length = 0 then ([], .ended)
    else if rows.length < batchSize then (rows, .ended)
    else
      let more := createPaymentReadable batchSize replies (offset + rows.length)
      (rows ++ more.1, more.2)

/-! ### The handler -/

/-- What is sent: an error, CSV in chunks, or an array of rows. -/
inductive ExportResponse
  | error (status : ℕ) (message : String)
  | csv (chunks : List String)
  | json (rows : List NormalisedRow)

/-- The rows that are sent. Of a stream that is destroyed, these are the rows that are through. -/
def sentRows (source : List ExportRow × ReadState) (through : ℕ) : List ExportRow :=
  if source.2 = .destroyed then source.1.take through else source.1

/-- The handler, with the replies of the database, the time at which each row is written, and the
number of rows that are through when the stream is destroyed. CSV is then cut off, and an array of
rows is closed. -/
def exportPayments (toISOString : DateTime → String) (clock : ℕ → DateTime) (merchant : String)
    (format : Option String) (replies : List BatchReply) (through : ℕ) : ExportResponse :=
  -- no letter but those of ASCII has one of `csv` or `json` as its lower case
  let format := (format.getD "csv").toLower
  if merchant = "" then .error 400 "merchant path parameter is required"
  else if ¬(format = "csv" ∨ format = "json") then .error 400 "format must be \"csv\" or \"json\""
  else
    let sent := sentRows (createPaymentReadable 500 replies 0) through
    let rows := sent.mapIdx fun k row => normaliseRow toISOString (clock k) row.record
    if format = "csv" then
      .csv (toCsvRow csvColumns :: rows.map fun row => toCsvRow row.cells)
    else .json rows

/-! ### What the database replies -/

/-- The tables of the database. -/
structure Tables where
  payments : List Payment
  events : List Event

/-- What the query on a table asks for. -/
def Tables.rowsOf (T : Tables) (merchant : String) : ExportTable → List ExportRow
  | .payment => (T.payments.filter fun p => p.merchant = merchant).map .payment
  | .event =>
    (T.events.filter fun e => e.merchant = merchant ∧ e.type = "executed").map .event

/-- The time by which the rows of a table are ordered, in milliseconds. -/
def ExportRow.time : ExportRow → ℤ
  | .payment p => p.timestamp.1
  | .event e => e.ledgerTimestamp.1 * 1000

/-- The rows that are found are those of the table, in the order of their times. Rows of one time
may come in another order for every batch. -/
def BatchReply.Right (T : Tables) (merchant : String) : BatchReply → Prop
  | .found table rows => IsOrdering (· ≤ ·) ExportRow.time (T.rowsOf merchant table) rows
  | .failed => True

/-! ### The rows that are pushed -/

section Readable

variable {batchSize : ℕ} {replies : List BatchReply}

/-- **A row** is the row of its place, among those that are found for its batch. -/
theorem getElem?_createPaymentReadable (hbatch : 0 < batchSize) {offset k : ℕ} {row : ExportRow}
    (h : (createPaymentReadable batchSize replies offset).1[k]? = some row) :
    ∃ table rows, replies[k / batchSize]? = some (.found table rows) ∧
      rows[offset + k]? = some row := by
  induction replies generalizing offset k with
  | nil => simp [createPaymentReadable] at h
  | cons reply replies ih =>
    cases reply with
    | failed => simp [createPaymentReadable] at h
    | found table found =>
      have hhead : ∀ {k : ℕ}, ((found.drop offset).take batchSize)[k]? = some row →
          (BatchReply.found table found :: replies)[k / batchSize]? = some (.found table found) ∧
            found[offset + k]? = some row := by
        intro k hk
        rw [List.getElem?_take] at hk
        split_ifs at hk with hlt
        rw [List.getElem?_drop] at hk
        exact ⟨by rw [Nat.div_eq_of_lt hlt]; rfl, hk⟩
      rw [createPaymentReadable] at h
      dsimp only at h
      split_ifs at h with hnone hshort
      · simp at h
      · exact ⟨table, found, hhead h⟩
      · rw [List.getElem?_append] at h
        have hfull : ((found.drop offset).take batchSize).length = batchSize :=
          le_antisymm (List.length_take_le _ _) (not_lt.1 hshort)
        rw [hfull] at h
        split_ifs at h with hk
        · exact ⟨table, found, hhead h⟩
        · obtain ⟨table', rows, hreply, hrow⟩ := ih h
          refine ⟨table', rows, ?_, ?_⟩
          · obtain ⟨d, rfl⟩ := Nat.exists_eq_add_of_le (not_lt.1 hk)
            rw [Nat.add_div_left _ hbatch, List.getElem?_cons_succ]
            rwa [Nat.add_sub_cancel_left] at hreply
          · rwa [Nat.add_assoc, Nat.add_sub_cancel' (not_lt.1 hk)] at hrow

variable (replies) in
/-- **The end of the stream**: the last reply has no more rows, a query has failed, or there have
been no more replies and every batch was full. -/
theorem createPaymentReadable_cases (hbatch : 0 < batchSize) (offset : ℕ) :
    let source := createPaymentReadable batchSize replies offset
    (source.2 = .ended ∧ ∃ table rows, .found table rows ∈ replies ∧
        rows.length ≤ offset + source.1.length) ∨
      (source.2 = .destroyed ∧ .failed ∈ replies) ∨
      (source.2 = .reading ∧ source.1.length = batchSize * replies.length) := by
  induction replies generalizing offset with
  | nil => exact .inr (.inr ⟨rfl, rfl⟩)
  | cons reply replies ih =>
    cases reply with
    | failed => exact .inr (.inl ⟨rfl, List.mem_cons_self⟩)
    | found table found =>
      have hlength : ((found.drop offset).take batchSize).length =
          min batchSize (found.length - offset) := by
        rw [List.length_take, List.length_drop]
      dsimp only
      rw [createPaymentReadable]
      split_ifs with hnone hshort
      · refine .inl ⟨rfl, table, found, List.mem_cons_self, ?_⟩
        omega
      · refine .inl ⟨rfl, table, found, List.mem_cons_self, ?_⟩
        dsimp only
        omega
      · have hfull : ((found.drop offset).take batchSize).length = batchSize :=
          le_antisymm (List.length_take_le _ _) (not_lt.1 hshort)
        dsimp only
        rw [List.length_append, hfull, ← Nat.add_assoc, List.length_cons]
        rcases ih (offset + batchSize) with ⟨hstate, table', rows, hmem, hle⟩ | ⟨hstate, hmem⟩ |
          ⟨hstate, hlen⟩
        · exact .inl ⟨hstate, table', rows, List.mem_cons_of_mem _ hmem, hle⟩
        · exact .inr (.inl ⟨hstate, List.mem_cons_of_mem _ hmem⟩)
        · exact .inr (.inr ⟨hstate, by rw [hlen, Nat.mul_succ, Nat.add_comm]⟩)

variable {T : Tables} {merchant : String}

/-- The rows that are read from one table are rows of answers to its query. -/
theorem windowed_createPaymentReadable (hbatch : 0 < batchSize) {table : ExportTable}
    (hright : ∀ reply ∈ replies, reply.Right T merchant)
    (htable : ∀ reply ∈ replies, ∃ rows, reply = .found table rows) :
    Windowed (IsOrdering (· ≤ ·) ExportRow.time (T.rowsOf merchant table))
      (createPaymentReadable batchSize replies 0).1 := by
  intro k row hrow
  obtain ⟨table', rows, hreply, hk⟩ := getElem?_createPaymentReadable hbatch hrow
  have hmem := List.mem_of_getElem? hreply
  obtain ⟨rows', ⟨⟩⟩ := htable _ hmem
  exact ⟨rows, hright _ hmem, by rwa [Nat.zero_add] at hk⟩

/-- **One table is read to its end** when there are replies for all of its rows and one more. -/
theorem createPaymentReadable_complete (hbatch : 0 < batchSize) {table : ExportTable}
    (hright : ∀ reply ∈ replies, reply.Right T merchant)
    (htable : ∀ reply ∈ replies, ∃ rows, reply = .found table rows)
    (hreplies : (T.rowsOf merchant table).length < batchSize * replies.length) :
    (createPaymentReadable batchSize replies 0).2 = .ended ∧
      (createPaymentReadable batchSize replies 0).1.length = (T.rowsOf merchant table).length := by
  have hle := (windowed_createPaymentReadable hbatch hright htable).length_le
  rcases createPaymentReadable_cases replies hbatch 0 with
    ⟨hstate, table', rows, hmem, hlen⟩ | ⟨-, hmem⟩ | ⟨-, hlen⟩
  · obtain ⟨rows', ⟨⟩⟩ := htable _ hmem
    have hfound := (hright _ hmem : IsOrdering _ _ _ _).length_eq
    exact ⟨hstate, by omega⟩
  · obtain ⟨rows, ⟨⟩⟩ := htable _ hmem
  · omega

end Readable

/-! ### The file -/

/-- The dialect of `toCsvRow`. -/
def csvDialect : CsvDialect where
  isSpecial c := c = '\x22' ∨ c = ',' ∨ c = '\r' ∨ c = '\n'
  eol := ['\r', '\n']
  isSpecial_quote := rfl
  isSpecial_comma := rfl
  isSpecial_newline := rfl
  eol_cases := .inr rfl

theorem toList_toCsvRow (cells : List String) : (toCsvRow cells).toList =
    csvDialect.writeRow (cells.map String.toList) ++ csvDialect.eol :=
  CsvImport.toList_toCsvRow cells

/-- **A file of lines** is read back. -/
theorem readCsv_chunks {rows : List (List String)} (h : ∀ row ∈ rows, row ≠ []) :
    readCsv ((rows.map toCsvRow).flatMap String.toList) =
      some (rows.map fun row => row.map String.toList) := by
  have htext : (rows.map toCsvRow).flatMap String.toList =
      (rows.map fun row => row.map String.toList).flatMap fun row =>
        csvDialect.writeRow row ++ csvDialect.eol := by
    rw [List.flatMap_map, List.flatMap_map]
    exact List.flatMap_congr fun row _ => toList_toCsvRow row
  rw [htext]
  refine CsvDialect.readCsv_terminated fun row hrow => ?_
  obtain ⟨cells, hcells, rfl⟩ := List.mem_map.1 hrow
  exact ⟨fun hnil => h cells hcells (List.map_eq_nil_iff.1 hnil), fun _ _ => nofun⟩

/-- The cells of a row do not depend on when it is written. -/
theorem map_cells_mapIdx (toISOString : DateTime → String) (clock : ℕ → DateTime)
    (rows : List ExportRow) :
    (rows.mapIdx fun k row => normaliseRow toISOString (clock k) row.record).map
      NormalisedRow.cells = rows.map (ExportRow.cells toISOString) := by
  refine List.ext_getElem? fun k => ?_
  rw [List.getElem?_map, List.getElem?_mapIdx, List.getElem?_map, Option.map_map]
  exact Option.map_congr fun row _ => cells_normaliseRow toISOString (clock k) row

/-- The rows that are sent, whatever the format. -/
theorem exportPayments_rows (toISOString : DateTime → String) (clock : ℕ → DateTime)
    (merchant : String) (format : Option String) (replies : List BatchReply) (through : ℕ) :
    let source := createPaymentReadable 500 replies 0
    ∃ n, (source.2 ≠ .destroyed → source.1.length ≤ n) ∧
      (∀ chunks, exportPayments toISOString clock merchant format replies through = .csv chunks →
        chunks = (csvColumns :: (source.1.take n).map (ExportRow.cells toISOString)).map
          toCsvRow) ∧
      ∀ rows, exportPayments toISOString clock merchant format replies through = .json rows →
        rows.map NormalisedRow.cells = (source.1.take n).map (ExportRow.cells toISOString) := by
  intro source
  have hsent : sentRows source through = source.1.take
      (if source.2 = .destroyed then through else source.1.length) := by
    rw [sentRows]
    split_ifs
    · rfl
    · exact List.take_length.symm
  have hcells := map_cells_mapIdx toISOString clock (sentRows source through)
  refine ⟨if source.2 = .destroyed then through else source.1.length,
    fun hstate => (if_neg hstate).ge, fun chunks hchunks => ?_, fun rows hrows => ?_⟩ <;>
    rw [← hsent, ← hcells]
  · unfold exportPayments at hchunks
    dsimp only at hchunks
    split_ifs at hchunks
    rw [List.map_cons, List.map_map]
    exact (ExportResponse.csv.inj hchunks).symm
  · unfold exportPayments at hrows
    dsimp only at hrows
    split_ifs at hrows
    exact congrArg _ (ExportResponse.json.inj hrows).symm

/-- **The export of payments.** Whatever the texts in the cells, and whichever queries fail: a
reader of the file finds the columns and a row for each row that is pushed, in order, or for the
first of them if the stream is destroyed; and the same rows are sent in the other format. A row is
one of the merchant, at its place among those that the database has found for its batch. Replies
from one table, for all of its rows and one more, make a file with the times of these rows in order;
and with the rows themselves, if their times differ. -/
theorem payment_export (toISOString : DateTime → String) (T : Tables) (merchant : String)
    (replies : List BatchReply) (hright : ∀ reply ∈ replies, reply.Right T merchant) :
    let source := createPaymentReadable 500 replies 0
    (∀ (clock : ℕ → DateTime) (format : Option String) (through : ℕ), ∃ n,
      (source.2 ≠ .destroyed → source.1.length ≤ n) ∧
      let table := (source.1.take n).map (ExportRow.cells toISOString)
      (∀ chunks, exportPayments toISOString clock merchant format replies through = .csv chunks →
        readCsv (chunks.flatMap String.toList) =
          some ((csvColumns :: table).map fun row => row.map String.toList)) ∧
      ∀ rows, exportPayments toISOString clock merchant format replies through = .json rows →
        rows.map NormalisedRow.cells = table) ∧
      (∀ (k : ℕ) (row : ExportRow), source.1[k]? = some row → ∃ table rows,
        replies[k / 500]? = some (.found table rows) ∧ rows[k]? = some row ∧
          row ∈ T.rowsOf merchant table) ∧
      ∀ table, (∀ reply ∈ replies, ∃ rows, reply = .found table rows) →
        (T.rowsOf merchant table).length < 500 * replies.length →
          source.2 = .ended ∧ ∀ ordered,
            IsOrdering (· ≤ ·) ExportRow.time (T.rowsOf merchant table) ordered →
              source.1.map ExportRow.time = ordered.map ExportRow.time ∧
                (((T.rowsOf merchant table).map ExportRow.time).Nodup → source.1 = ordered) := by
  intro source
  refine ⟨fun clock format through => ?_, fun k row hrow => ?_, fun table htable hreplies => ?_⟩
  · obtain ⟨n, hn, hcsv, hjson⟩ :=
      exportPayments_rows toISOString clock merchant format replies through
    refine ⟨n, hn, fun chunks hchunks => ?_, hjson⟩
    rw [hcsv chunks hchunks]
    refine readCsv_chunks fun cells hcells => ?_
    rcases List.mem_cons.1 hcells with rfl | hcells
    · exact List.cons_ne_nil _ _
    · obtain ⟨row, -, rfl⟩ := List.mem_map.1 hcells
      cases row <;> exact List.cons_ne_nil _ _
  · obtain ⟨table, rows, hreply, hk⟩ := getElem?_createPaymentReadable (by decide) hrow
    rw [Nat.zero_add] at hk
    have hordering : IsOrdering _ _ _ _ := hright _ (List.mem_of_getElem? hreply)
    exact ⟨table, rows, hreply, hk, hordering.mem_iff.1 (List.mem_of_getElem? hk)⟩
  · obtain ⟨hended, hlength⟩ :=
      createPaymentReadable_complete (by decide) hright htable hreplies
    have hwindowed := windowed_createPaymentReadable (by decide : 0 < 500) hright htable
    refine ⟨hended, fun ordered hordered => ⟨?_, fun htimes => ?_⟩⟩
    · rw [hwindowed.map_eq (fun _ _ => le_antisymm) hordered, List.take_of_length_le]
      rw [List.length_map, hordered.length_eq]
      exact hlength.ge
    · refine (hwindowed.eq_take (fun _ _ => le_antisymm) htimes hordered).trans ?_
      exact List.take_of_length_le (hordered.length_eq.trans hlength.symm).le

/-- Two payments to a merchant, the later one first in the table. -/
def sampleTables : Tables where
  payments :=
    [⟨1, "S", "M", "T", "20000000", "executed", "b", 2, ⟨1000, by decide⟩⟩,
      ⟨2, "S, \"the first\"", "M", "T", "15000000", "executed", "a", 1, ⟨0, by decide⟩⟩]
  events := []

/-- The database replies with them in order. -/
def sampleReplies : List BatchReply :=
  [.found .payment (sampleTables.payments.map .payment).reverse]

theorem payment_export_sample :
    createPaymentReadable 500 sampleReplies 0 =
      ((sampleTables.payments.map .payment).reverse, .ended) := by
  have hordering : IsOrdering (· ≤ ·) ExportRow.time (sampleTables.rowsOf "M" .payment)
      (sampleTables.payments.map .payment).reverse :=
    ⟨List.reverse_perm _, by decide⟩
  have hright : ∀ reply ∈ sampleReplies, reply.Right sampleTables "M" :=
    fun reply hreply => List.mem_singleton.1 hreply ▸ hordering
  obtain ⟨-, -, hrows⟩ := payment_export (fun _ => "1970") sampleTables "M" sampleReplies hright
  obtain ⟨hended, hordered⟩ := hrows .payment
    (fun reply hreply => ⟨_, List.mem_singleton.1 hreply⟩) (by decide)
  exact Prod.ext ((hordered _ hordering).2 (by decide)) hended

end SorobanPay.PaymentExport
