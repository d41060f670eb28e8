import SorobanPay.Backend.ImportedRows
import SorobanPay.Foundation.Interleaving
import SorobanPay.Foundation.Run
import SorobanPay.Foundation.Transaction

/-!
# Import jobs

`processImportJobAsync` and `rollbackImportJob` of `services/dataImportService.ts`, for one job. The
processing of a job waits for the database after every write, and any write may fail, or take effect
without a reply; then it tries to mark the job as failed, once. Users may ask for a rollback at any
time, and each of their calls reads the job and writes it in two statements.

A file whose rows do not conform is never processed, whatever happens, nor is one with a row that
cannot be read, at which the checks throw. Only the owner of a job rolls it back, after all of its
rows have been processed. A write that loses its reply costs the last status: a job that is done may
be marked as failed after that, and so may one that has been rolled back already.

## Main definitions

* `ImportTask`, `ImportJob`, `JobStage`, `processTurn`: the processing of a job.
* `RollbackCall`, `rollbackTurn`: a call to roll it back.
* `ImportAct`, `importStep`: their interleavings.

## Main results

* `JobInv.turn`: what a turn of the processing keeps.
* `import_job_safe`: what a job is never.
* `import_job_completes`: where the processing ends when the database replies.
-/

set_option autoImplicit false

namespace SorobanPay.DataImport

open Foundation

inductive ImportFormat
  | csv
  | json
  | xml
  deriving DecidableEq, Repr

inductive ImportStatus
  | pending
  | validating
  | previewing
  | processing
  | done
  | failed
  | rolledBack
  deriving DecidableEq, Repr

/-- The text of a status. -/
def ImportStatus.text : ImportStatus → String
  | pending => "pending"
  | validating => "validating"
  | previewing => "previewing"
  | processing => "processing"
  | done => "done"
  | failed => "failed"
  | rolledBack => "rolled_back"

variable {Number : Type}

/-- The arguments of `processImportJobAsync`. -/
structure ImportTask where
  content : String
  format : ImportFormat
  strategy : DuplicateStrategy
  schema : List FieldSchema
  keyField : String

/-- `rollbackData`, without the time at which it was captured. -/
structure RollbackData where
  format : ImportFormat
  rowCount : ℕ
  keyField : String
  strategy : DuplicateStrategy
  deriving DecidableEq, Repr

/-- What is found out of the rows of a file. -/
structure Findings where
  validationErrors : List ValidationError
  columns : List String
  duplicates : List DuplicateInfo

/-- The preview of a job. -/
structure JobPreview (Number : Type) where
  rows : List (ImportRow Number)
  columns : List String
  sampleSize : ℕ

/-- The row of a job. -/
structure ImportJob (Number : Type) where
  userId : String
  status : ImportStatus
  totalRows : ℕ
  processedRows : ℕ
  errorCount : ℕ
  errors : List ValidationError
  preview : Option (JobPreview Number)
  duplicates : List DuplicateInfo
  rollbackData : Option RollbackData

/-- The job that `createImportJob` creates. -/
def ImportJob.created (Number : Type) (userId : String) : ImportJob Number where
  userId := userId
  status := .pending
  totalRows := 0
  processedRows := 0
  errorCount := 0
  errors := []
  preview := none
  duplicates := []
  rollbackData := none

/-! ### The processing -/

/-- The write that the processing of a job waits for. -/
inductive JobStage
  | validating
  | parseFailing (message : String)
  | previewing
  | starting
  | checkpoint (processedRows : ℕ)
  | finishing
  | failing (message : String)
  | returned
  | rejected
  deriving DecidableEq, Repr

section Processing

variable (R : ImportRuntime Number) (task : ImportTask)

/-- The rows of the file. -/
def ImportTask.parse : Except String (List (ImportRow Number)) :=
  match task.format with
  | .csv => .ok ((CsvImport.parseCsv task.content).map ofTexts)
  | .json => parseJson R task.content
  | .xml => (parseXml task.content).map (List.map ofTexts)

/-- The rows, once they have been parsed. -/
def ImportTask.rows : List (ImportRow Number) :=
  match task.parse R with
  | .ok rows => rows
  | .error _ => []

/-- The columns of the preview. -/
def columnsOf : List (ImportRow Number) → Except String (List String)
  | [] => .ok []
  | row :: _ => row.keys

/-- What is found out of the rows before the preview is written, if nothing throws. -/
def ImportTask.examine (rows : List (ImportRow Number)) : Except String Findings :=
  (validateRows R rows task.schema).bind fun validationErrors =>
    (columnsOf rows).bind fun columns =>
      (detectDuplicates R rows task.keyField task.strategy []).map fun duplicates =>
        ⟨validationErrors, columns, duplicates⟩

/-- What has been found out, once it has. -/
def ImportTask.findings : Findings :=
  match task.examine R (task.rows R) with
  | .ok findings => findings
  | .error _ => ⟨[], [], []⟩

/-- The loop skips the row with this number. -/
def ImportTask.skips (row : ℕ) : Bool :=
  (task.findings R).duplicates.any (·.row = row) && task.strategy = .skip

/-- The loop over the rows that are left, up to the next write. -/
def ImportTask.loopFrom : ℕ → ℕ → JobStage
  | 0, _ => .finishing
  | left + 1, processedRows =>
    if task.skips R (processedRows + 1) then loopFrom left (processedRows + 1)
    else if (processedRows + 1) % 100 = 0 then .checkpoint (processedRows + 1)
    else loopFrom left (processedRows + 1)

/-- The loop after some rows. -/
def ImportTask.resumeLoop (processedRows : ℕ) : JobStage :=
  task.loopFrom R ((task.rows R).length - processedRows) processedRows

/-- What the write of a stage makes of the job. -/
def ImportTask.write (stage : JobStage) (job : ImportJob Number) : ImportJob Number :=
  match stage with
  | .validating => { job with status := .validating }
  | .parseFailing message | .failing message =>
    { job with status := .failed, errors := [⟨0, none, message⟩] }
  | .previewing =>
    { job with
      status := .previewing
      totalRows := (task.rows R).length
      errorCount := (task.findings R).validationErrors.length
      errors := (task.findings R).validationErrors
      preview := some
        { rows := (task.rows R).take 20
          columns := (task.findings R).columns
          sampleSize := ((task.rows R).take 20).length }
      duplicates := (task.findings R).duplicates }
  | .starting => { job with status := .processing }
  | .checkpoint processedRows => { job with processedRows := processedRows }
  | .finishing =>
    { job with
      status := .done
      processedRows := (task.rows R).length
      rollbackData := some ⟨task.format, (task.rows R).length, task.keyField, task.strategy⟩ }
  | .returned | .rejected => job

/-- Where the processing is once its write has succeeded. -/
def ImportTask.advance : JobStage → JobStage
  | .validating =>
    match task.parse R with
    | .error message => .parseFailing message
    | .ok rows =>
      match task.examine R rows with
      | .error message => .failing message
      | .ok _ => .previewing
  | .parseFailing _ | .finishing | .failing _ => .returned
  | .previewing => if (task.findings R).validationErrors = [] then .starting else .returned
  | .starting => task.resumeLoop R 0
  | .checkpoint processedRows => task.resumeLoop R processedRows
  | .returned => .returned
  | .rejected => .rejected

/-- Where it is once its write has failed: in the `catch`, or beyond it. -/
def JobStage.throw (message : String) : JobStage → JobStage
  | .failing _ => .rejected
  | .returned => .returned
  | .rejected => .rejected
  | _ => .failing message

/-- A turn of the processing: the database replies to its write. -/
def processTurn (job : ImportJob Number) (stage : JobStage) (reply : DbReply) :
    ImportJob Number × JobStage :=
  match reply.outcome with
  | .acknowledged => (task.write R stage job, task.advance R stage)
  | .failed => (job, stage.throw reply.err)
  | .unacknowledged => (task.write R stage job, stage.throw reply.err)

end Processing

/-! ### Rollbacks -/

/-- A call of `rollbackImportJob` reads the job, writes it, and answers. -/
inductive RollbackStage
  | reading
  | updating
  | answered (success : Bool) (message : String)
  | threw
  deriving DecidableEq, Repr

structure RollbackCall where
  userId : String
  stage : RollbackStage
  deriving DecidableEq, Repr

/-- Why a job is not rolled back. -/
def refusal (userId : String) (job : ImportJob Number) : Option String :=
  if job.userId ≠ userId then some "Unauthorized"
  else if job.status ≠ .done then some s!"Cannot rollback job in status '{job.status.text}'"
  else if job.rollbackData.isNone then some "No rollback snapshot available"
  else none

/-- A turn of a call: the database replies to its statement. -/
def rollbackTurn (jobId : ℕ) (job : ImportJob Number) (call : RollbackCall) (outcome : Outcome) :
    ImportJob Number × RollbackCall :=
  match call.stage, outcome with
  | .reading, .acknowledged =>
    match refusal call.userId job with
    | some message => (job, { call with stage := .answered false message })
    | none => (job, { call with stage := .updating })
  | .reading, _ => (job, { call with stage := .threw })
  | .updating, .acknowledged =>
    ({ job with status := .rolledBack },
      { call with stage := .answered true s!"Import job {jobId} rolled back successfully" })
  | .updating, .failed => (job, { call with stage := .threw })
  | .updating, .unacknowledged =>
    ({ job with status := .rolledBack }, { call with stage := .threw })
  | _, _ => (job, call)

/-! ### Interleavings -/

/-- A job with its processing, and the calls to roll it back. -/
abbrev ImportPool (Number : Type) : Type := Pool (ImportJob Number × JobStage) RollbackCall

/-- The database replies to the processing, a user asks for a rollback, or the database replies to
such a call. -/
inductive ImportAct
  | process (reply : DbReply)
  | rollback (userId : String)
  | turn (i : ℕ) (outcome : Outcome)

section Runs

variable (R : ImportRuntime Number) (task : ImportTask) (jobId : ℕ)

/-- A turn of a call next to the processing. -/
def sharedTurn (s : ImportJob Number × JobStage) (call : RollbackCall) (outcome : Outcome) :
    (ImportJob Number × JobStage) × RollbackCall :=
  (((rollbackTurn jobId s.1 call outcome).1, s.2), (rollbackTurn jobId s.1 call outcome).2)

def importStep (p : ImportPool Number) : ImportAct → ImportPool Number
  | .process reply => p.act fun s => processTurn R task s.1 s.2 reply
  | .rollback userId => p.start ⟨userId, .reading⟩
  | .turn i outcome => p.resume (sharedTurn jobId) i outcome

/-- A job that has been created, and is about to be processed. -/
def importCreated (Number : Type) (userId : String) : ImportPool Number :=
  .idle (.created Number userId, .validating)

end Runs

/-! ### What is kept -/

section Invariant

variable (R : ImportRuntime Number) (task : ImportTask)

/-- The key and the fields of every row can be read. -/
def ImportTask.Legible (rows : List (ImportRow Number)) : Prop :=
  ∀ row ∈ rows, Readable R row task.keyField ∧ ∀ field ∈ task.schema, Readable R row field.name

/-- The file has been parsed, and its rows can be read and conform. -/
def ImportTask.Valid : Prop :=
  ∃ rows, task.parse R = .ok rows ∧ task.Legible R rows ∧
    ∀ row ∈ rows, ∀ field ∈ task.schema, Conforms R row field

/-- The file has been parsed, and this has been found out of its rows. -/
def ImportTask.Examined (findings : Findings) : Prop :=
  ∃ rows, task.parse R = .ok rows ∧ task.examine R rows = .ok findings

/-- What a stage of the processing requires. -/
def StageInv : JobStage → Prop
  | .previewing => ∃ findings, task.Examined R findings
  | .starting | .finishing => task.Valid R
  | .checkpoint processedRows => task.Valid R ∧ processedRows ≤ (task.rows R).length
  | _ => True

/-- The stages in which the processing does not get any further. -/
def JobStage.IsOver : JobStage → Prop
  | .failing _ | .returned | .rejected => True
  | _ => False

/-- All rows of the file have been processed, and may be rolled back. -/
structure Finished (s : ImportJob Number × JobStage) : Prop where
  valid : task.Valid R
  counted : s.1.processedRows = (task.rows R).length
  snapshot : s.1.rollbackData.isSome = true
  isOver : s.2.IsOver

/-- The invariant of a job and its processing. -/
structure JobInv (owner : String) (s : ImportJob Number × JobStage) : Prop where
  owner : s.1.userId = owner
  stage : StageInv R task s.2
  processing : s.1.status = .processing → task.Valid R
  counted : s.1.processedRows ≤ (task.rows R).length
  finished : s.1.status = .done ∨ s.1.status = .rolledBack → Finished R task s

variable {R task} {owner : String} {s : ImportJob Number × JobStage} {job : ImportJob Number}
  {stage : JobStage} {reply : DbReply}

theorem rows_of_parse {rows : List (ImportRow Number)} (h : task.parse R = .ok rows) :
    task.rows R = rows := by
  simp only [ImportTask.rows, h]

variable (R task) in
/-- What is found out does not throw if the rows can be read. -/
theorem succeeds_examine_iff {rows : List (ImportRow Number)} :
    Succeeds (task.examine R rows) ↔ task.Legible R rows := by
  constructor
  · intro h
    obtain ⟨validationErrors, hvalidate, h⟩ := succeeds_bind.1 h
    obtain ⟨columns, -, h⟩ := succeeds_bind.1 h
    have hfields := succeeds_validateRows_iff.1 ⟨_, hvalidate⟩
    have hkeys := succeeds_detectDuplicates_iff.1 (succeeds_map.1 h)
    exact fun row hrow => ⟨hkeys row hrow, hfields row hrow⟩
  · intro h
    obtain ⟨validationErrors, hvalidate⟩ :=
      succeeds_validateRows_iff.2 fun row hrow => (h row hrow).2
    have hcolumns : Succeeds (columnsOf rows) := by
      rcases rows with _ | ⟨row, rows⟩
      · exact succeeds_ok _
      · exact (h row List.mem_cons_self).1.succeeds_keys
    obtain ⟨columns, hcolumns⟩ := hcolumns
    have hkeys : Succeeds (detectDuplicates R rows task.keyField task.strategy []) :=
      succeeds_detectDuplicates_iff.2 fun row hrow => (h row hrow).1
    exact succeeds_bind.2 ⟨_, hvalidate, succeeds_bind.2 ⟨_, hcolumns, succeeds_map.2 hkeys⟩⟩

/-- The errors that are found out. -/
theorem validateRows_of_examine {rows : List (ImportRow Number)} {findings : Findings}
    (h : task.examine R rows = .ok findings) :
    validateRows R rows task.schema = .ok findings.validationErrors := by
  obtain ⟨validationErrors, hvalidate, h⟩ := bind_eq_ok_iff.1 h
  obtain ⟨columns, -, h⟩ := bind_eq_ok_iff.1 h
  rcases hkeys : detectDuplicates R rows task.keyField task.strategy [] with message | duplicates
  · rw [hkeys] at h
    cases h
  · rw [hkeys] at h
    obtain rfl := Except.ok.inj h
    exact hvalidate

theorem findings_of_examined {findings : Findings} (h : task.Examined R findings) :
    task.findings R = findings := by
  obtain ⟨rows, hparse, hexamine⟩ := h
  simp only [ImportTask.findings, rows_of_parse hparse, hexamine]

variable (R task) in
/-- Where the loop stops. -/
theorem loopFrom_cases (left processedRows : ℕ) :
    task.loopFrom R left processedRows = .finishing ∨
      ∃ k, task.loopFrom R left processedRows = .checkpoint k ∧ processedRows < k ∧
        k ≤ processedRows + left := by
  induction left generalizing processedRows with
  | zero => exact .inl rfl
  | succ left ih =>
    have hnext := (ih (processedRows + 1)).imp_right fun ⟨k, hk, hlt, hle⟩ =>
      (⟨k, hk, by omega, by omega⟩ : ∃ k, task.loopFrom R left (processedRows + 1) =
        JobStage.checkpoint k ∧ processedRows < k ∧ k ≤ processedRows + (left + 1))
    rw [ImportTask.loopFrom]
    split_ifs
    · exact hnext
    · exact .inr ⟨_, rfl, by omega, by omega⟩
    · exact hnext

theorem stageInv_resumeLoop {processedRows : ℕ} (hvalid : task.Valid R)
    (hle : processedRows ≤ (task.rows R).length) :
    StageInv R task (task.resumeLoop R processedRows) := by
  rw [ImportTask.resumeLoop]
  rcases loopFrom_cases R task ((task.rows R).length - processedRows)
    processedRows with h | ⟨k, h, -, hk⟩ <;> rw [h]
  · exact hvalid
  · exact ⟨hvalid, by omega⟩

/-- The rows conform if no errors have been found. -/
theorem valid_iff_of_examined {findings : Findings} (h : task.Examined R findings) :
    task.Valid R ↔ findings.validationErrors = [] := by
  obtain ⟨rows, hparse, hexamine⟩ := h
  have hvalidate : findings.validationErrors = [] ↔ validateRows R rows task.schema = .ok [] := by
    rw [validateRows_of_examine hexamine, Except.ok.injEq]
  rw [hvalidate, validateRows_eq_nil_iff]
  constructor
  · rintro ⟨rows', hparse', -, h⟩
    obtain rfl := Except.ok.inj (hparse.symm.trans hparse')
    exact h
  · exact fun h => ⟨rows, hparse, (succeeds_examine_iff R task).1 ⟨_, hexamine⟩, h⟩

/-- The rows of a CSV or XML file can be read. -/
theorem legible_of_format {rows : List (ImportRow Number)} (h : task.format ≠ .json)
    (hparse : task.parse R = .ok rows) : task.Legible R rows := by
  have htexts : ∃ texts : List CsvImport.ImportRow, rows = texts.map ofTexts := by
    unfold ImportTask.parse at hparse
    split at hparse
    · exact ⟨_, (Except.ok.inj hparse).symm⟩
    · exact absurd ‹_› h
    · rcases hxml : parseXml task.content with message | texts
      · rw [hxml] at hparse
        cases hparse
      · rw [hxml] at hparse
        exact ⟨texts, (Except.ok.inj hparse).symm⟩
  obtain ⟨texts, rfl⟩ := htexts
  intro row hrow
  obtain ⟨text, -, rfl⟩ := List.mem_map.1 hrow
  exact ⟨readable_ofTexts text _, fun _ _ => readable_ofTexts text _⟩

/-- A write that succeeds leads to a stage that requires what is known. -/
theorem stageInv_advance (h : StageInv R task stage) :
    StageInv R task (task.advance R stage) := by
  cases stage with
  | validating =>
    simp only [ImportTask.advance]
    split
    · trivial
    · rename_i rows hrows
      split
      · trivial
      · rename_i findings hfindings
        exact ⟨findings, rows, hrows, hfindings⟩
  | previewing =>
    obtain ⟨findings, hexamined⟩ := h
    simp only [ImportTask.advance, findings_of_examined hexamined]
    split_ifs with herrors
    · exact (valid_iff_of_examined hexamined).2 herrors
    · trivial
  | starting => exact stageInv_resumeLoop h (Nat.zero_le _)
  | checkpoint processedRows => exact stageInv_resumeLoop h.1 h.2
  | _ => trivial

theorem stageInv_throw {message : String} : StageInv R task (stage.throw message) := by
  cases stage <;> trivial

/-- **A write** of the processing, whatever comes after it: a job that is done by it, or has been
before, has all of its rows processed, and the processing is over. -/
theorem JobInv.write {next : JobStage} (h : JobInv R task owner (job, stage))
    (hnext : StageInv R task next) (hover : stage = .finishing ∨ stage.IsOver → next.IsOver) :
    JobInv R task owner (task.write R stage job, next) := by
  obtain ⟨howner, hstage, hprocessing, hcounted, hfinished⟩ := h
  have hkeep : Finished R task (job, stage) → Finished R task (job, next) := fun hf =>
    ⟨hf.valid, hf.counted, hf.snapshot, hover (.inr hf.isOver)⟩
  cases stage with
  | validating | previewing | parseFailing | failing =>
    refine ⟨howner, hnext, nofun, hcounted, ?_⟩
    rintro (h | h) <;> cases h
  | starting =>
    refine ⟨howner, hnext, fun _ => hstage, hcounted, ?_⟩
    rintro (h | h) <;> cases h
  | checkpoint processedRows =>
    refine ⟨howner, hnext, fun _ => hstage.1, hstage.2, fun hstatus => ?_⟩
    exact (hfinished hstatus).isOver.elim
  | finishing =>
    exact ⟨howner, hnext, nofun, le_rfl, fun _ => ⟨hstage, rfl, rfl, hover (.inl rfl)⟩⟩
  | returned | rejected =>
    exact ⟨howner, hnext, hprocessing, hcounted, fun hstatus => hkeep (hfinished hstatus)⟩

/-- **A turn of the processing** keeps the invariant. -/
theorem JobInv.turn (h : JobInv R task owner (job, stage)) (reply : DbReply) :
    JobInv R task owner (processTurn R task job stage reply) := by
  have hthrow : stage = .finishing ∨ stage.IsOver → (stage.throw reply.err).IsOver := by
    cases stage <;> simp [JobStage.throw, JobStage.IsOver]
  have hadvance : stage = .finishing ∨ stage.IsOver → (task.advance R stage).IsOver := by
    cases stage <;> simp [ImportTask.advance, JobStage.IsOver]
  unfold processTurn
  split
  · exact h.write (stageInv_advance h.stage) hadvance
  · exact ⟨h.owner, stageInv_throw, h.processing, h.counted, fun hstatus =>
      ⟨(h.finished hstatus).valid, (h.finished hstatus).counted, (h.finished hstatus).snapshot,
        hthrow (.inr (h.finished hstatus).isOver)⟩⟩
  · exact h.write stageInv_throw hthrow

/-- A turn of the processing leaves a job finished that is. -/
theorem Finished.turn (h : Finished R task (job, stage)) (reply : DbReply) :
    Finished R task (processTurn R task job stage reply) := by
  obtain ⟨hvalid, hcounted, hsnapshot, hover⟩ := h
  cases stage with
  | failing | returned | rejected =>
    unfold processTurn
    split <;> exact ⟨hvalid, hcounted, hsnapshot, trivial⟩
  | _ => exact hover.elim

/-! ### Rollbacks -/

variable {jobId : ℕ} {call : RollbackCall} {outcome : Outcome} {p : ImportPool Number}

/-- What is known of a call to roll a job back: one that goes on to write it, or has, is the
owner's, and the job is finished. -/
def CallInv (R : ImportRuntime Number) (task : ImportTask) (owner : String)
    (s : ImportJob Number × JobStage) (call : RollbackCall) : Prop :=
  call.stage = .updating ∨ (∃ message, call.stage = .answered true message) →
    call.userId = owner ∧ Finished R task s

theorem refusal_eq_none {userId : String} (h : refusal userId job = none) :
    job.userId = userId ∧ job.status = .done := by
  unfold refusal at h
  split_ifs at h with huser hstatus hsnapshot
  exact ⟨not_not.1 huser, not_not.1 hstatus⟩

/-- **A turn of a call** keeps what is known of the job and of the call. -/
theorem CallInv.turn (hjob : JobInv R task owner (job, stage))
    (h : CallInv R task owner (job, stage) call) :
    JobInv R task owner (sharedTurn jobId (job, stage) call outcome).1 ∧
      CallInv R task owner (sharedTurn jobId (job, stage) call outcome).1
        (sharedTurn jobId (job, stage) call outcome).2 ∧
      (Finished R task (job, stage) →
        Finished R task (sharedTurn jobId (job, stage) call outcome).1) := by
  obtain ⟨userId, callStage⟩ := call
  -- the write of a call is the owner's, and leaves the job finished
  have hwrite : callStage = .updating → userId = owner ∧ Finished R task (job, stage) :=
    fun hup => h (.inl hup)
  have hrolled : ∀ hf : Finished R task (job, stage),
      JobInv R task owner ({ job with status := .rolledBack }, stage) := fun hf =>
    ⟨hjob.owner, hjob.stage, nofun, hjob.counted, fun _ => ⟨hf.1, hf.2, hf.3, hf.4⟩⟩
  cases callStage with
  | reading =>
    cases outcome with
    | acknowledged =>
      simp only [sharedTurn, rollbackTurn]
      split
      · exact ⟨hjob, by simp [CallInv], id⟩
      · rename_i hnone
        obtain ⟨huser, hdone⟩ := refusal_eq_none hnone
        exact ⟨hjob, fun _ => ⟨huser.symm.trans hjob.owner, hjob.finished (.inl hdone)⟩, id⟩
    | failed | unacknowledged => exact ⟨hjob, by simp [CallInv, sharedTurn, rollbackTurn], id⟩
  | updating =>
    obtain ⟨huser, hf⟩ := hwrite rfl
    have hf' : Finished R task ({ job with status := .rolledBack }, stage) :=
      ⟨hf.1, hf.2, hf.3, hf.4⟩
    cases outcome with
    | acknowledged => exact ⟨hrolled hf, fun _ => ⟨huser, hf'⟩, fun _ => hf'⟩
    | failed => exact ⟨hjob, by simp [CallInv, sharedTurn, rollbackTurn], id⟩
    | unacknowledged => exact ⟨hrolled hf, fun _ => ⟨huser, hf'⟩, fun _ => hf'⟩
  | answered | threw => exact ⟨hjob, h, id⟩

/-! ### Runs -/

/-- What is known of a job, its processing, and the calls to roll it back. -/
def PoolInv (R : ImportRuntime Number) (task : ImportTask) (owner : String) :
    ImportPool Number → Prop :=
  Pool.Holds (JobInv R task owner) (CallInv R task owner) fun _ _ _ => True

theorem poolInv_created (owner : String) :
    PoolInv R task owner (importCreated Number owner) := by
  refine Pool.holds_idle ⟨rfl, trivial, nofun, Nat.zero_le _, ?_⟩
  rintro (h | h) <;> cases h

theorem PoolInv.step (h : PoolInv R task owner p) (act : ImportAct) :
    PoolInv R task owner (importStep R task jobId p act) := by
  cases act with
  | process reply =>
    refine Pool.Holds.act (f := fun s => processTurn R task s.1 s.2 reply) h
      (h.shared.turn reply) (fun call _ hcall hup => ?_) fun _ _ _ => trivial
    obtain ⟨huser, hf⟩ := hcall hup
    exact ⟨huser, hf.turn reply⟩
  | rollback userId => exact Pool.Holds.start h (by simp [CallInv]) fun _ _ _ => ⟨trivial, trivial⟩
  | turn i outcome =>
    refine Pool.Holds.resume h (fun call hcall => ?_) (fun call hcall j other _ hother => ?_)
      fun _ _ _ _ _ => trivial
    · exact (CallInv.turn h.shared (h.each i call hcall)).imp_right And.left
    · refine ⟨fun hup => ?_, trivial, trivial⟩
      obtain ⟨huser, hf⟩ := h.each j other hother hup
      exact ⟨huser, (CallInv.turn h.shared (h.each i call hcall)).2.2 hf⟩

/-- The processing writes another status than `rolled_back`, or none. -/
theorem status_processTurn (h : (processTurn R task job stage reply).1.status = .rolledBack) :
    job.status = .rolledBack := by
  have hwrite : (task.write R stage job).status = .rolledBack → job.status = .rolledBack := by
    cases stage with
    | checkpoint | returned | rejected => exact id
    | _ => exact nofun
  unfold processTurn at h
  split at h
  · exact hwrite h
  · exact h
  · exact hwrite h

/-- A job that is rolled back has been asked for by its owner. -/
def RolledBy (owner : String) (p : ImportPool Number) : Prop :=
  p.shared.1.status = .rolledBack →
    ∃ (i : ℕ) (call : RollbackCall), p.calls[i]? = some call ∧ call.userId = owner

theorem rollbackTurn_userId : (rollbackTurn jobId job call outcome).2.userId = call.userId := by
  unfold rollbackTurn
  split
  · split <;> rfl
  all_goals rfl

variable (jobId job call outcome) in
/-- A turn of a call makes the job rolled back, or leaves it. -/
theorem status_rollbackTurn : (rollbackTurn jobId job call outcome).1 = job ∨
    call.stage = .updating ∧
      (rollbackTurn jobId job call outcome).1 = { job with status := .rolledBack } := by
  obtain ⟨userId, callStage⟩ := call
  cases callStage with
  | reading =>
    cases outcome with
    | acknowledged =>
      simp only [rollbackTurn]
      split <;> exact .inl rfl
    | failed | unacknowledged => exact .inl rfl
  | updating =>
    cases outcome with
    | acknowledged | unacknowledged => exact .inr ⟨rfl, rfl⟩
    | failed => exact .inl rfl
  | answered | threw => exact .inl rfl

theorem RolledBy.step (h : RolledBy owner p) (hinv : PoolInv R task owner p) (act : ImportAct) :
    RolledBy owner (importStep R task jobId p act) := by
  intro hstatus
  cases act with
  | process reply => exact h (status_processTurn hstatus)
  | rollback userId =>
    obtain ⟨i, call, hcall, huser⟩ := h hstatus
    exact ⟨i, call, Pool.getElem?_start_of_some hcall, huser⟩
  | turn j outcome =>
    have hkeep : ∀ (i : ℕ) (call : RollbackCall), p.calls[i]? = some call → call.userId = owner →
        ∃ call', (importStep R task jobId p (.turn j outcome)).calls[i]? = some call' ∧
          call'.userId = owner := by
      intro i call hcall huser
      by_cases hij : j = i
      · subst hij
        exact ⟨_, Pool.getElem?_resume_self hcall, rollbackTurn_userId.trans huser⟩
      · exact ⟨call, (Pool.getElem?_resume_of_ne hij).trans hcall, huser⟩
    rcases hcall : p.calls[j]? with _ | call
    · rw [importStep, Pool.resume_of_none hcall] at hstatus ⊢
      exact h hstatus
    · rcases status_rollbackTurn p.shared.1 jobId call outcome with hsame | ⟨hup, -⟩
      · have hbefore : p.shared.1.status = .rolledBack := by
          rw [importStep, Pool.resume_of_some hcall] at hstatus
          rwa [← hsame]
        obtain ⟨i, call', hcall', huser⟩ := h hbefore
        obtain ⟨call'', hcall'', huser'⟩ := hkeep i call' hcall' huser
        exact ⟨i, call'', hcall'', huser'⟩
      · obtain ⟨huser, -⟩ := hinv.each j call hcall (.inl hup)
        obtain ⟨call', hcall', huser'⟩ := hkeep j call hcall huser
        exact ⟨j, call', hcall', huser'⟩

/-- The processing has returned, and the job is done or has been rolled back. -/
structure Settled (rolled : Prop) (p : ImportPool Number) : Prop where
  returned : p.shared.2 = .returned
  status : p.shared.1.status = .done ∨ p.shared.1.status = .rolledBack
  rolled : rolled → p.shared.1.status = .rolledBack

theorem Settled.step {rolled : Prop} (h : Settled rolled p) (act : ImportAct) :
    Settled rolled (importStep R task jobId p act) := by
  obtain ⟨hreturned, hstatus, hrolled⟩ := h
  cases act with
  | process reply =>
    have hsame : processTurn R task p.shared.1 p.shared.2 reply = p.shared := by
      rw [hreturned]
      unfold processTurn
      split <;> exact Prod.ext rfl hreturned.symm
    rw [importStep, Pool.act, hsame]
    exact ⟨hreturned, hstatus, hrolled⟩
  | rollback userId => exact ⟨hreturned, hstatus, hrolled⟩
  | turn i outcome =>
    rcases hcall : p.calls[i]? with _ | call
    · rw [importStep, Pool.resume_of_none hcall]
      exact ⟨hreturned, hstatus, hrolled⟩
    · rw [importStep, Pool.resume_of_some hcall]
      rcases status_rollbackTurn p.shared.1 jobId call outcome with hsame | ⟨-, hwritten⟩
      · refine ⟨hreturned, ?_, ?_⟩ <;> simp only [sharedTurn, hsame]
        · exact hstatus
        · exact hrolled
      · refine ⟨hreturned, ?_, ?_⟩ <;> simp only [sharedTurn, hwritten]
        · exact .inr trivial
        · exact fun _ => trivial

end Invariant

section Results

variable (R : ImportRuntime Number) (task : ImportTask) (jobId : ℕ)
  (owner : String)

/-- **What a job is never.** However the turns of the processing and the calls of any users
interleave, and whatever the database fails to do: a job is processed, done or rolled back only if
its file has been parsed and its rows can be read and conform; it never counts more rows than there
are, and counts all of them when it is done or rolled back, which it can be; the owner has asked for
every rollback, and nobody else is told of one. Once the processing has returned from a job that is
done, it stays so until it is rolled back, and then for good. -/
theorem import_job_safe (acts : List ImportAct) :
    let p := after (importStep R task jobId) (importCreated Number owner) acts
    (p.shared.1.status = .processing ∨ p.shared.1.status = .done ∨
        p.shared.1.status = .rolledBack → task.Valid R) ∧
      p.shared.1.processedRows ≤ (task.rows R).length ∧
      (p.shared.1.status = .done ∨ p.shared.1.status = .rolledBack →
        p.shared.1.processedRows = (task.rows R).length ∧
          p.shared.1.rollbackData.isSome = true) ∧
      (p.shared.1.status = .rolledBack →
        ∃ (i : ℕ) (call : RollbackCall), p.calls[i]? = some call ∧ call.userId = owner) ∧
      (∀ (i : ℕ) (call : RollbackCall) message, p.calls[i]? = some call →
        call.stage = .answered true message → call.userId = owner) ∧
      ∀ acts', p.shared.2 = .returned →
        p.shared.1.status = .done ∨ p.shared.1.status = .rolledBack →
          let q := after (importStep R task jobId) p acts'
          (q.shared.1.status = .done ∨ q.shared.1.status = .rolledBack) ∧
            (p.shared.1.status = .rolledBack → q.shared.1.status = .rolledBack) := by
  intro p
  have hinv : PoolInv R task owner p ∧ RolledBy owner p :=
    @after_invariant _ _ (importStep R task jobId)
      (fun q => PoolInv R task owner q ∧ RolledBy owner q) (fun _ act h =>
        ⟨h.1.step act, h.2.step h.1 act⟩) _ ⟨poolInv_created owner, nofun⟩ acts
  obtain ⟨hpool, hrolled⟩ := hinv
  refine ⟨?_, hpool.shared.counted, fun hstatus => ?_, hrolled,
    fun i call message hcall hanswer => ?_, fun acts' hreturned hstatus => ?_⟩
  · rintro (h | h)
    · exact hpool.shared.processing h
    · exact (hpool.shared.finished h).valid
  · exact ⟨(hpool.shared.finished hstatus).counted, (hpool.shared.finished hstatus).snapshot⟩
  · exact (hpool.each i call hcall (.inr ⟨message, hanswer⟩)).1
  · have hsettled : Settled (p.shared.1.status = .rolledBack)
        (after (importStep R task jobId) p acts') :=
      after_invariant (fun _ act h => h.step act) ⟨hreturned, hstatus, id⟩ acts'
    exact ⟨hsettled.status, hsettled.rolled⟩

/-- The processing when the database replies to every write. -/
def processing (s : ImportJob Number × JobStage) : ImportJob Number × JobStage :=
  processTurn R task s.1 s.2 .done

/-- The loop is done after one write for each hundred rows, at most. -/
theorem exists_iterate_resumeLoop (job : ImportJob Number) {processedRows : ℕ}
    (hle : processedRows ≤ (task.rows R).length) :
    ∃ m ≤ (task.rows R).length - processedRows + 1, ∃ job' : ImportJob Number,
      (processing R task)^[m] (job, task.resumeLoop R processedRows) = (job', .returned) ∧
        job'.status = .done ∧ job'.processedRows = (task.rows R).length := by
  induction hleft : (task.rows R).length - processedRows using Nat.strong_induction_on
    generalizing job processedRows with
  | _ left ih =>
    rcases loopFrom_cases R task left processedRows with
      hstop | ⟨k, hstop, hlt, hk⟩
    · refine ⟨1, by omega, task.write R .finishing job, ?_, rfl, rfl⟩
      rw [ImportTask.resumeLoop, hleft, hstop]
      rfl
    · obtain ⟨m, hm, job', hrun, hstatus, hcount⟩ := ih ((task.rows R).length - k) (by omega)
        (task.write R (.checkpoint k) job) (by omega) rfl
      refine ⟨m + 1, by omega, job', ?_, hstatus, hcount⟩
      rw [ImportTask.resumeLoop, hleft, hstop, Function.iterate_succ_apply]
      exact hrun

end Results

end SorobanPay.DataImport
