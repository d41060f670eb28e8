import SorobanPay.Foundation.Csv
import SorobanPay.Foundation.OrderedPages
import SorobanPay.Backend.ImportFiles
import SorobanPay.Backend.RetryQueue

/-!
# The audit trail of cancellations

`services/cancellationAuditService.ts` keeps a record of every `cancel` event. A record is written
once: a later write under the same network and transaction finds the record and leaves it. Records
are deleted by `pruneExpiredAuditRecords` alone, when they are older than the years of retention.

Administrators list the records newest first, in pages of at most two hundred, or export them as CSV
(`routes/cancellationAudit.ts`). The export asks for ten thousand records, of which it is given two
hundred.

A statement of the database may fail, or take effect without a reply. Times are in milliseconds; the
texts of times and the calendar are parameters. `updatedAt` is left out.

## Main definitions

* `recordCancellation`, `pruneExpiredAuditRecords`, `auditStep`: what changes the table.
* `created`, `cutoff?`: what a step adds and how far back it deletes.
* `listCancellations`, `exportCancellations`: what is read of the table.

## Main results

* `mem_after_auditStep_iff`: the records after a run.
* `cancellation_trail`: records are unique, and stay as they were written.
* `cancellation_reports`: what is listed and exported.
-/

set_option autoImplicit false

namespace SorobanPay.CancellationAudit

open Foundation

/-! ### Records -/

structure CancellationAuditInput where
  network : String
  contractId : String
  subscriberAddress : String
  merchantAddress : String
  tokenAddress : Option String
  amount : Option String
  intervalSeconds : Option ℤ
  nextPaymentAt : Option ℤ
  ledger : ℤ
  transactionHash : String
  reason : Option String
  source : Option String

structure CancellationAuditRecord where
  id : String
  network : String
  contractId : String
  subscriberAddress : String
  merchantAddress : String
  tokenAddress : Option String
  amount : Option String
  intervalSeconds : Option ℤ
  nextPaymentAt : Option ℤ
  cancelledAt : ℤ
  ledger : ℤ
  transactionHash : String
  reason : Option String
  source : String
  createdAt : ℤ
  deriving DecidableEq, Repr

/-- The columns of which no two records have the same values. -/
def CancellationAuditInput.key (input : CancellationAuditInput) : String × String :=
  (input.network, input.transactionHash)

def CancellationAuditRecord.key (record : CancellationAuditRecord) : String × String :=
  (record.network, record.transactionHash)

/-- What is not in the repository: `setFullYear` with so many years less, which may leave no time,
`toISOString` and `new Date(text)`. -/
structure AuditRuntime where
  yearsBefore : ℤ → ℤ → Option ℤ
  toISOString : ℤ → String
  toISOString_plain : ∀ t, '\r' ∉ (toISOString t).toList
  dateOf : String → Option ℤ

/-- A new row, with the time of the statement. -/
def CancellationAuditInput.record (input : CancellationAuditInput) (id : String) (now : ℤ) :
    CancellationAuditRecord where
  id := id
  network := input.network
  contractId := input.contractId
  subscriberAddress := input.subscriberAddress
  merchantAddress := input.merchantAddress
  tokenAddress := input.tokenAddress
  amount := input.amount
  intervalSeconds := input.intervalSeconds
  nextPaymentAt := input.nextPaymentAt
  cancelledAt := now
  ledger := input.ledger
  transactionHash := input.transactionHash
  reason := input.reason
  source := input.source.getD "event"
  createdAt := now

/-! ### What changes the table -/

abbrev AuditTable := List CancellationAuditRecord

/-- The reason has at most a thousand characters. -/
def CancellationAuditInput.isAllowed (input : CancellationAuditInput) : Bool :=
  input.reason.all fun reason => DataImport.textLength reason ≤ 1000

/-- The row of a key. -/
def rowOf (table : AuditTable) (key : String × String) : Option CancellationAuditRecord :=
  table.find? fun record => record.key = key

/-- `upsert`, with nothing to update. -/
def upsert (table : AuditTable) (input : CancellationAuditInput) (id : String) (now : ℤ) :
    CancellationAuditRecord × AuditTable :=
  match rowOf table input.key with
  | some record => (record, table)
  | none => (input.record id now, table ++ [input.record id now])

/-- `recordCancellation`, with the id and the time of a new row. -/
def recordCancellation (table : AuditTable) (input : CancellationAuditInput) (id : String) (now : ℤ)
    (reply : DbReply) : Except String CancellationAuditRecord × AuditTable :=
  if input.isAllowed then
    (if reply.outcome = .acknowledged then .ok (upsert table input id now).1
      else .error reply.err,
      if reply.outcome = .failed then table else (upsert table input id now).2)
  else (.error "reason must not exceed 1000 characters", table)

section Runtime

variable (R : AuditRuntime) (auditRetentionYears : Option String)

/-- The time before which `pruneExpiredAuditRecords` deletes; `auditRetentionYears` is the variable
of the environment. -/
def pruneCutoff (retentionYears : Option ℤ) (now : ℤ) : Option ℤ :=
  let years := retentionYears.or (RetryQueue.parseInt (auditRetentionYears.getD "7"))
  years.bind (R.yearsBefore now)

/-- `pruneExpiredAuditRecords`. The database does not take a cutoff that is no time. -/
def pruneExpiredAuditRecords (table : AuditTable) (retentionYears : Option ℤ) (now : ℤ)
    (reply : DbReply) : Except String ℕ × AuditTable :=
  match pruneCutoff R auditRetentionYears retentionYears now with
  | none => (.error reply.err, table)
  | some cutoff =>
    (if reply.outcome = .acknowledged then
        .ok (table.filter fun record => record.cancelledAt < cutoff).length
      else .error reply.err,
      if reply.outcome = .failed then table
      else table.filter fun record => ¬record.cancelledAt < cutoff)

/-- A call of the service. -/
inductive AuditAct
  | recordCancellation (input : CancellationAuditInput) (id : String) (now : ℤ) (reply : DbReply)
  | pruneExpiredAuditRecords (retentionYears : Option ℤ) (now : ℤ) (reply : DbReply)

def auditStep (table : AuditTable) : AuditAct → AuditTable
  | .recordCancellation input id now reply => (recordCancellation table input id now reply).2
  | .pruneExpiredAuditRecords retentionYears now reply =>
    (pruneExpiredAuditRecords R auditRetentionYears table retentionYears now reply).2

/-- The record that a step adds. -/
def created (table : AuditTable) : AuditAct → Option CancellationAuditRecord
  | .recordCancellation input id now reply =>
    if input.isAllowed ∧ reply.outcome ≠ .failed ∧ rowOf table input.key = none then
      some (input.record id now)
    else none
  | .pruneExpiredAuditRecords _ _ _ => none

/-- The time before which a step deletes. -/
def cutoff? : AuditAct → Option ℤ
  | .recordCancellation _ _ _ _ => none
  | .pruneExpiredAuditRecords retentionYears now reply =>
    if reply.outcome = .failed then none else pruneCutoff R auditRetentionYears retentionYears now

variable {R auditRetentionYears}

/-- **A step** adds a record, and deletes those before its cutoff. -/
theorem auditStep_eq (table : AuditTable) (act : AuditAct) :
    auditStep R auditRetentionYears table act =
      (table ++ (created table act).toList).filter fun record =>
        (cutoff? R auditRetentionYears act).all fun cutoff => cutoff ≤ record.cancelledAt := by
  cases act with
  | recordCancellation input id now reply =>
    have hkeep : ∀ rows : AuditTable, (rows.filter fun record => (cutoff? R auditRetentionYears
        (.recordCancellation input id now reply)).all fun cutoff =>
          cutoff ≤ record.cancelledAt) = rows := fun rows =>
      List.filter_eq_self.2 fun _ _ => rfl
    rw [hkeep, auditStep, recordCancellation, created, upsert]
    cases input.isAllowed with
    | false => simp
    | true =>
      cases hrow : rowOf table input.key with
      | none => by_cases hfailed : reply.outcome = .failed <;> simp [hfailed]
      | some record => simp
  | pruneExpiredAuditRecords retentionYears now reply =>
    rw [auditStep, pruneExpiredAuditRecords, created, Option.toList_none, List.append_nil, cutoff?]
    cases pruneCutoff R auditRetentionYears retentionYears now with
    | none => simp
    | some cutoff => by_cases hfailed : reply.outcome = .failed <;> simp [hfailed]

/-- A record in the table is that of its key. -/
theorem rowOf_eq_some {table : AuditTable} (hkeys : (table.map CancellationAuditRecord.key).Nodup)
    {record : CancellationAuditRecord} (hmem : record ∈ table) :
    rowOf table record.key = some record := by
  have hfound : (rowOf table record.key).isSome = true :=
    List.find?_isSome.2 ⟨record, hmem, decide_eq_true rfl⟩
  obtain ⟨found, hfound⟩ := Option.isSome_iff_exists.1 hfound
  have hkey : found.key = record.key := by simpa using List.find?_some hfound
  rw [hfound, List.inj_on_of_nodup_map hkeys (List.mem_of_find?_eq_some hfound) hmem hkey]

/-! ### Runs -/

/-- A record survives a step if it is not before the cutoff. -/
def Survives (R : AuditRuntime) (auditRetentionYears : Option String)
    (record : CancellationAuditRecord) (acts : List AuditAct) : Prop :=
  ∀ act ∈ acts, ∀ cutoff ∈ cutoff? R auditRetentionYears act, cutoff ≤ record.cancelledAt

theorem mem_auditStep_iff {table : AuditTable} {act : AuditAct} {record : CancellationAuditRecord} :
    record ∈ auditStep R auditRetentionYears table act ↔
      (record ∈ table ∨ created table act = some record) ∧
        Survives R auditRetentionYears record [act] := by
  rw [auditStep_eq, List.mem_filter, List.mem_append, Option.mem_toList, Survives,
    List.forall_mem_singleton]
  simp only [Option.all_eq_true, decide_eq_true_eq, Option.mem_def]

theorem survives_cons {record : CancellationAuditRecord} {act : AuditAct} {acts : List AuditAct} :
    Survives R auditRetentionYears record (act :: acts) ↔
      Survives R auditRetentionYears record [act] ∧ Survives R auditRetentionYears record acts := by
  rw [Survives, List.forall_mem_cons, Survives, List.forall_mem_singleton, Survives]

/-- **The records after a run** are those that some step has added and no later one has deleted. -/
theorem mem_after_auditStep_iff {table : AuditTable} {acts : List AuditAct}
    {record : CancellationAuditRecord} :
    record ∈ after (auditStep R auditRetentionYears) table acts ↔
      (record ∈ table ∧ Survives R auditRetentionYears record acts) ∨
        ∃ pre act post, acts = pre ++ act :: post ∧
          created (after (auditStep R auditRetentionYears) table pre) act = some record ∧
          Survives R auditRetentionYears record (act :: post) := by
  induction acts generalizing table with
  | nil => simp [Survives]
  | cons act acts ih =>
    rw [after_cons, ih, mem_auditStep_iff]
    constructor
    · rintro (⟨⟨hmem | hmade, hact⟩, hlater⟩ | ⟨pre, act', post, rfl, hmade, hlater⟩)
      · exact .inl ⟨hmem, survives_cons.2 ⟨hact, hlater⟩⟩
      · exact .inr ⟨[], act, acts, rfl, hmade, survives_cons.2 ⟨hact, hlater⟩⟩
      · exact .inr ⟨act :: pre, act', post, rfl, hmade, hlater⟩
    · rintro (⟨hmem, hall⟩ | ⟨pre, act', post, hsplit, hmade, hlater⟩)
      · obtain ⟨hact, hlater⟩ := survives_cons.1 hall
        exact .inl ⟨⟨.inl hmem, hact⟩, hlater⟩
      · cases pre with
        | nil =>
          obtain ⟨rfl, rfl⟩ := List.cons.inj hsplit
          obtain ⟨hact, hlater⟩ := survives_cons.1 hlater
          exact .inl ⟨⟨.inr hmade, hact⟩, hlater⟩
        | cons first pre =>
          obtain ⟨rfl, rfl⟩ := List.cons.inj hsplit
          exact .inr ⟨pre, act', post, rfl, hmade, hlater⟩

/-- What is known of every table: no two rows have the same key, and no reason is too long. -/
structure Trail (table : AuditTable) : Prop where
  keys : (table.map CancellationAuditRecord.key).Nodup
  reasons : ∀ record ∈ table, ∀ reason ∈ record.reason, DataImport.textLength reason ≤ 1000

theorem created_eq_some {table : AuditTable} {act : AuditAct} {record : CancellationAuditRecord}
    (h : created table act = some record) : rowOf table record.key = none ∧
      ∃ input id now reply, act = .recordCancellation input id now reply ∧
        record = input.record id now ∧ input.isAllowed = true := by
  cases act with
  | recordCancellation input id now reply =>
    rw [created] at h
    split_ifs at h with hnew
    obtain rfl := Option.some.inj h
    exact ⟨hnew.2.2, input, id, now, reply, rfl, rfl, hnew.1⟩
  | pruneExpiredAuditRecords retentionYears now reply => cases h

theorem Trail.step {table : AuditTable} (h : Trail table) (act : AuditAct) :
    Trail (auditStep R auditRetentionYears table act) := by
  refine ⟨?_, fun record hrecord => ?_⟩
  · rw [auditStep_eq]
    refine List.Nodup.sublist ((List.filter_sublist).map _) ?_
    cases hmade : created table act with
    | none => rw [Option.toList_none, List.append_nil]; exact h.keys
    | some record =>
      rw [Option.toList_some, List.map_append, List.map_singleton, List.nodup_append_comm]
      refine List.nodup_cons.2 ⟨fun hmem => ?_, h.keys⟩
      obtain ⟨row, hrow, hkey⟩ := List.mem_map.1 hmem
      have hfound := rowOf_eq_some h.keys hrow
      rw [hkey, (created_eq_some hmade).1] at hfound
      cases hfound
  · rcases (mem_auditStep_iff.1 hrecord).1 with hmem | hmade
    · exact h.reasons record hmem
    · obtain ⟨-, input, id, now, reply, -, rfl, hallowed⟩ := created_eq_some hmade
      intro reason hreason
      have hlength := (Option.all_eq_true _ _).1 hallowed reason hreason
      exact of_decide_eq_true hlength

theorem trail_after (acts : List AuditAct) :
    Trail (after (auditStep R auditRetentionYears) [] acts) :=
  after_invariant (fun _ act h => h.step act)
    ⟨List.nodup_nil, fun _ hmem => absurd hmem List.not_mem_nil⟩ acts

/-- What a call returns is a row of the table that it leaves, under the key that was asked for. -/
theorem recordCancellation_eq_ok {table : AuditTable} {input : CancellationAuditInput} {id : String}
    {now : ℤ} {reply : DbReply} {record : CancellationAuditRecord}
    (h : (recordCancellation table input id now reply).1 = .ok record) :
    (rowOf table input.key = some record ∨
      rowOf table input.key = none ∧ record = input.record id now) := by
  have hupsert : (upsert table input id now).1 = record := by
    unfold recordCancellation at h
    split_ifs at h <;> exact Except.ok.inj h
  unfold upsert at hupsert
  cases hrow : rowOf table input.key with
  | none => exact .inr ⟨rfl, by rw [← hupsert, hrow]⟩
  | some row => exact .inl (by rw [← hupsert, hrow])

end Runtime

section Trail

variable (R : AuditRuntime) (auditRetentionYears : Option String)

/-- **The trail of cancellations.** After any calls, whatever fails or takes effect without a reply:
a record is in the table if and only if some call has added it, for a key that the table did not
have then, and no later call has deleted as far back. There is one record for a network and a
transaction, with a reason of at most a thousand characters. As long as a record is kept, every call
for its key that returns returns this record, as it was written first. -/
theorem cancellation_trail (acts : List AuditAct) :
    let table := after (auditStep R auditRetentionYears) [] acts
    (∀ record, record ∈ table ↔ ∃ pre act post, acts = pre ++ act :: post ∧
      created (after (auditStep R auditRetentionYears) [] pre) act = some record ∧
      ∀ later ∈ post, ∀ cutoff ∈ cutoff? R auditRetentionYears later,
        cutoff ≤ record.cancelledAt) ∧
      (table.map CancellationAuditRecord.key).Nodup ∧
      (∀ record ∈ table, ∀ reason ∈ record.reason, DataImport.textLength reason ≤ 1000) ∧
      ∀ record ∈ table, ∀ acts', (∀ act ∈ acts', ∀ cutoff ∈ cutoff? R auditRetentionYears act,
        cutoff ≤ record.cancelledAt) →
          ∀ input id now reply record', input.key = record.key →
            (recordCancellation (after (auditStep R auditRetentionYears) table acts') input id now
              reply).1 = .ok record' → record' = record := by
  intro table
  have htrail : Trail table := trail_after acts
  refine ⟨fun record => ?_, htrail.keys, htrail.reasons,
    fun record hmem acts' hkept input id now reply record' hkey hreturned => ?_⟩
  · rw [mem_after_auditStep_iff]
    constructor
    · rintro (⟨hmem, -⟩ | ⟨pre, act, post, hsplit, hmade, hkept⟩)
      · exact absurd hmem List.not_mem_nil
      · exact ⟨pre, act, post, hsplit, hmade, (survives_cons.1 hkept).2⟩
    · rintro ⟨pre, act, post, hsplit, hmade, hkept⟩
      refine .inr ⟨pre, act, post, hsplit, hmade, survives_cons.2 ⟨?_, hkept⟩⟩
      -- what adds a record does not delete
      obtain ⟨-, input, id, now, reply, rfl, -⟩ := created_eq_some hmade
      simp [Survives, cutoff?]
  · have hlater : record ∈ after (auditStep R auditRetentionYears) table acts' :=
      mem_after_auditStep_iff.2 (.inl ⟨hmem, hkept⟩)
    have hkeys : Trail (after (auditStep R auditRetentionYears) table acts') :=
      after_invariant (fun _ act h => h.step act) htrail acts'
    have hrow := rowOf_eq_some hkeys.keys hlater
    rw [← hkey] at hrow
    rcases recordCancellation_eq_ok hreturned with hfound | ⟨hnone, -⟩
    · exact Option.some.inj (hfound.symm.trans hrow)
    · rw [hrow] at hnone
      cases hnone

end Trail

/-! ### What is read of the table -/

structure ListCancellationsOptions where
  merchantAddress : Option String
  subscriberAddress : Option String
  network : Option String
  «from» : Option ℤ
  «to» : Option ℤ
  limit : ℤ := 50
  offset : ℤ := 0

/-- The condition on the rows. An empty text is none. -/
def auditWhere (options : ListCancellationsOptions) (record : CancellationAuditRecord) : Bool :=
  (options.merchantAddress.all fun address => address = "" ∨ record.merchantAddress = address) ∧
    (options.subscriberAddress.all fun address =>
      address = "" ∨ record.subscriberAddress = address) ∧
    (options.network.all fun network => network = "" ∨ record.network = network) ∧
    (options.«from».all fun time => time ≤ record.cancelledAt) ∧
    (options.«to».all fun time => record.cancelledAt ≤ time)

def cappedLimit (limit : ℤ) : ℕ := (min (max 1 limit) 200).toNat

structure ListCancellationsResult where
  data : List CancellationAuditRecord
  total : ℕ
  limit : ℕ
  offset : ℕ

/-- `listCancellations`, with the rows that the database finds in its order and their count. -/
def listCancellations (found : List CancellationAuditRecord) (total : ℕ)
    (options : ListCancellationsOptions) : ListCancellationsResult where
  data := (found.drop (max 0 options.offset).toNat).take (cappedLimit options.limit)
  total := total
  limit := cappedLimit options.limit
  offset := (max 0 options.offset).toNat

/-- The parameters of a request for an export. -/
structure CancellationQuery where
  merchant : Option String
  subscriber : Option String
  network : Option String
  «from» : Option String
  «to» : Option String

/-- What is sent: a file of CSV, or an error. -/
inductive CancellationResponse
  | csv (text : String)
  | error (status : ℕ) (message : String)

section Requests

variable (R : AuditRuntime)

/-- A bound on the times, which may be left out. -/
def dateFilter (param : Option String) : Option (Option ℤ) :=
  match param with
  | none => some none
  | some text => if text = "" then some none else (R.dateOf text).map some

/-- The checks of both routes. -/
def queryOptions (q : CancellationQuery) : Except String ListCancellationsOptions :=
  if q.network.any fun network => network ≠ "" ∧ network ∉ ["testnet", "mainnet"] then
    .error "network must be testnet or mainnet"
  else
    match dateFilter R q.«from» with
    | none => .error "from must be a valid ISO 8601 date"
    | some «from» =>
      match dateFilter R q.«to» with
      | none => .error "to must be a valid ISO 8601 date"
      | some «to» =>
        .ok {
          merchantAddress := q.merchant
          subscriberAddress := q.subscriber
          network := q.network
          «from» := «from»
          «to» := «to» }

/-! ### CSV -/

/-- `CSV_COLUMNS`. -/
def csvColumns : List String :=
  ["id", "network", "contractId", "subscriberAddress", "merchantAddress", "tokenAddress", "amount",
    "intervalSeconds", "nextPaymentAt", "cancelledAt", "ledger", "transactionHash", "reason",
    "source", "createdAt"]

/-- `escapeCell`. -/
def escapeCell : Option String → List Char
  | none => []
  | some str =>
    if str.toList.any fun c => c = ',' ∨ c = '\x22' ∨ c = '\n' then
      '\x22' :: (str.toList.flatMap doubled ++ ['\x22'])
    else str.toList

/-- The values of a row. -/
def recordCells (record : CancellationAuditRecord) : List (Option String) :=
  [some record.id, some record.network, some record.contractId, some record.subscriberAddress,
    some record.merchantAddress, record.tokenAddress, record.amount,
    some (record.intervalSeconds.elim "" toString),
    some (record.nextPaymentAt.elim "" R.toISOString), some (R.toISOString record.cancelledAt),
    some (toString record.ledger), some record.transactionHash, record.reason, some record.source,
    some (R.toISOString record.createdAt)]

/-- The header and the rows, joined by line feeds. -/
def cancellationsCsv (records : List CancellationAuditRecord) : List Char :=
  ['\n'].intercalate ([','].intercalate (csvColumns.map String.toList) ::
    records.map fun record => [','].intercalate ((recordCells R record).map escapeCell))

/-- `GET /export`. -/
def exportRoute (q : CancellationQuery) (reply : Option (List CancellationAuditRecord × ℕ)) :
    CancellationResponse :=
  match queryOptions R q with
  | .error message => .error 400 message
  | .ok options =>
    match reply with
    | some (found, total) =>
      .csv (String.ofList (cancellationsCsv R
        (listCancellations found total { options with limit := 10000, offset := 0 }).data))
    | none => .error 500 "Failed to export cancellation audit records"

/-- The dialect of `escapeCell`. -/
def auditDialect : CsvDialect where
  isSpecial c := c = ',' ∨ c = '\x22' ∨ c = '\n'
  eol := ['\n']
  isSpecial_quote := rfl
  isSpecial_comma := rfl
  isSpecial_newline := rfl
  eol_cases := .inl rfl

theorem escapeCell_eq (cell : Option String) :
    escapeCell cell = auditDialect.writeCell (cell.getD "").toList := by
  cases cell with
  | none => rfl
  | some str => rfl

/-- What a reader finds in a row. -/
def shownCells (record : CancellationAuditRecord) : List String :=
  (recordCells R record).map (Option.getD · "")

theorem isLine_shownCells (record : CancellationAuditRecord) :
    auditDialect.IsLine ((shownCells R record).map String.toList) := by
  refine ⟨List.cons_ne_nil _ _, fun cell hcell _ => .inr ?_⟩
  obtain rfl : (R.toISOString record.createdAt).toList = cell := Option.some.inj hcell
  exact fun hlast => R.toISOString_plain _ (List.mem_of_getLast? hlast)

/-- The columns need no quotation marks. -/
theorem writeCell_csvColumns :
    ∀ column ∈ csvColumns, auditDialect.writeCell column.toList = column.toList := by
  decide

/-- **The file** is read back. -/
theorem readCsv_cancellationsCsv (records : List CancellationAuditRecord) :
    readCsv (cancellationsCsv R records) =
      some ((csvColumns :: records.map (shownCells R)).map fun row => row.map String.toList) := by
  have htext : cancellationsCsv R records = auditDialect.eol.intercalate
      (((csvColumns :: records.map (shownCells R)).map fun row => row.map String.toList).map
        auditDialect.writeRow) := by
    have hheader : [','].intercalate (csvColumns.map String.toList) =
        auditDialect.writeRow (csvColumns.map String.toList) := by
      rw [CsvDialect.writeRow, List.map_map]
      refine congrArg _ (List.map_congr_left fun column hcolumn => ?_)
      exact (writeCell_csvColumns column hcolumn).symm
    have hrow : ∀ record, [','].intercalate ((recordCells R record).map escapeCell) =
        auditDialect.writeRow ((shownCells R record).map String.toList) := fun record => by
      rw [CsvDialect.writeRow, shownCells, List.map_map, List.map_map]
      exact congrArg _ (List.map_congr_left fun cell _ => escapeCell_eq cell)
    rw [cancellationsCsv, hheader, List.map_cons, List.map_cons, List.map_map, List.map_map]
    exact congrArg _ (congrArg _ (List.map_congr_left fun record _ => hrow record))
  rw [htext]
  have hlines : ∀ row ∈ (csvColumns :: records.map (shownCells R)).map
      fun row => row.map String.toList, auditDialect.IsLine row ∧ row ≠ [[]] := by
    rw [List.map_cons, List.forall_mem_cons, List.map_map]
    refine ⟨⟨⟨List.cons_ne_nil _ _, fun cell hcell _ => .inr ?_⟩, by decide⟩,
      fun row hrow => ?_⟩
    · obtain rfl : "createdAt".toList = cell := Option.some.inj hcell
      decide
    · obtain ⟨record, -, rfl⟩ := List.mem_map.1 hrow
      exact ⟨isLine_shownCells R record, by simp [shownCells, recordCells]⟩
  exact CsvDialect.readCsv_joined (fun row hrow => (hlines row hrow).1)
    fun hlast => (hlines _ (List.mem_of_getLast? hlast)).2 rfl

end Requests

/-! ### Pages and files -/

/-- The rows that are asked for, newest first. Rows of one time may come in any order. -/
def Found (table : AuditTable) (options : ListCancellationsOptions)
    (found : List CancellationAuditRecord) : Prop :=
  IsOrdering (fun time time' => time' ≤ time) CancellationAuditRecord.cancelledAt
    (table.filter (auditWhere options)) found

/-- A page of the list. -/
theorem data_listCancellations (found : List CancellationAuditRecord) (total : ℕ)
    (options : ListCancellationsOptions) (limit : ℤ) (offset : ℕ) :
    (listCancellations found total { options with limit := limit, offset := offset }).data =
      (found.drop offset).take (cappedLimit limit) := by
  rw [listCancellations]
  simp

/-- **Reports of cancellations.** A file has the columns and the first two hundred of the records
that are asked for, newest first, with their texts as they are; these are all of the records if and
only if there are no more than two hundred. Pages of one limit have, when they are put together,
records with the times of the newest ones; and these records themselves, if the times differ. -/
theorem cancellation_reports (R : AuditRuntime) (table : AuditTable)
    (options : ListCancellationsOptions) :
    let matching := table.filter (auditWhere options)
    (∀ q found total, queryOptions R q = .ok options → Found table options found →
      (∃ text, exportRoute R q (some (found, total)) = .csv text ∧ readCsv text.toList =
        some ((csvColumns :: (found.take 200).map (shownCells R)).map
          fun row => row.map String.toList)) ∧
      ((found.take 200).Perm matching ↔ matching.length ≤ 200) ∧
      ∀ record ∈ found.take 200, ∀ other ∈ found.drop 200,
        other.cancelledAt ≤ record.cancelledAt) ∧
      ∀ (found : ℕ → List CancellationAuditRecord), (∀ j, Found table options (found j)) →
        ∀ (limit : ℤ) (m : ℕ),
          let n := cappedLimit limit
          let pages := (List.range m).flatMap fun j => (listCancellations (found j) matching.length
            { options with limit := limit, offset := (j * n : ℕ) }).data
          pages.length = min (m * n) matching.length ∧
            pages.map CancellationAuditRecord.cancelledAt =
              ((found 0).map CancellationAuditRecord.cancelledAt).take (m * n) ∧
            ((matching.map CancellationAuditRecord.cancelledAt).Nodup →
              pages = (found 0).take (m * n)) := by
  intro matching
  have hanti : ∀ time time' : ℤ, time' ≤ time → time ≤ time' → time = time' :=
    fun _ _ h h' => le_antisymm h' h
  refine ⟨fun q found total hq hfound => ⟨?_, ?_, ?_⟩, fun found hfound limit m => ?_⟩
  · refine ⟨_, by rw [exportRoute, hq], ?_⟩
    have hdata := data_listCancellations found total options 10000 0
    rw [Nat.cast_zero, List.drop_zero] at hdata
    rw [String.toList_ofList, readCsv_cancellationsCsv, hdata]
    rfl
  · rw [← hfound.length_eq]
    constructor
    · intro hperm
      have hlength := hperm.length_eq.trans hfound.length_eq.symm
      rw [List.length_take] at hlength
      omega
    · intro hle
      rw [List.take_of_length_le hle]
      exact hfound.perm
  · have hsorted := hfound.sorted
    rw [← List.take_append_drop 200 found, List.pairwise_append] at hsorted
    exact hsorted.2.2
  · intro n pages
    have hpages : pages = (List.range m).flatMap fun j => ((found j).drop (j * n)).take n :=
      List.flatMap_congr fun j _ => data_listCancellations _ _ _ _ _
    have hsize : ∀ j, (found j).length = matching.length := fun j => (hfound j).length_eq
    obtain ⟨hwindowed, hlength⟩ := Windowed.flatMap_pages hfound hsize n m
    rw [← hpages] at hwindowed hlength
    have htake : ∀ {β : Type} (l : List β), l.length = matching.length →
        l.take pages.length = l.take (m * n) := fun l hl => by
      rw [List.take_eq_take_iff, hlength, hl]
      omega
    refine ⟨hlength, ?_, fun htimes => ?_⟩
    · rw [hwindowed.map_eq hanti (hfound 0), htake _ ((List.length_map _).trans (hsize 0))]
    · rw [hwindowed.eq_take hanti htimes (hfound 0), htake _ (hsize 0)]

end SorobanPay.CancellationAudit
