import SorobanPay.Foundation.Interleaving
import Mathlib.Data.List.DropRight

/-!
# Webhooks of the KYC provider

`handleWebhook` of `services/kycService.ts` reads the verification record, computes from it and the
payload what all its columns are to be, and writes them; if the AML status is flagged and the risk
is high, it calls `triggerReVerification`, which reads the record again and sets its status. Each
statement on the database is a turn of the call, and any calls may be under way at once. The record
is there, and no statement fails.

A risk score is of an arbitrary type, with a test of whether it is 75 or more. The log is the list
that its text stands for, if it can be parsed. Rows of the audit log, and columns that are neither
read nor kept, are left out.

Beside the record, `KycTable` notes what has been written.

## Main definitions

* `KycVerification`, `ProviderWebhookPayload`: the record and the payloads.
* `onfidoFindings`, `jumioFindings`, `updateFor`: what is computed.
* `KycCall`, `kycStep`: calls that interleave.
* `ProviderWebhookPayload.amlResult`, `ProviderWebhookPayload.decision`,
  `ProviderWebhookPayload.completesLiveness`: what a payload carries.

## Main results

* `updateFor_status`, `updateFor_amlStatus`, `updateFor_livenessCompleted`: the columns that a
  payload carries nothing for are written as they were read.
-/

set_option autoImplicit false

namespace SorobanPay.Kyc

open Foundation

/-! ### The record -/

inductive KycProvider
  | onfido
  | jumio
  deriving DecidableEq, Repr

inductive KycStatus
  | pending
  | submitted
  | approved
  | rejected
  | expired
  | reVerificationRequired
  deriving DecidableEq, Repr

/-- An entry of the log: the raw payload, and when it was received. -/
structure LogEntry (Raw : Type) where
  rawPayload : Raw
  receivedAt : ℕ
  deriving DecidableEq, Repr

/-- A row of the table. The AML status may be any text that a provider has sent. -/
structure KycVerification (Raw Score : Type) where
  status : KycStatus
  amlStatus : String
  livenessCompleted : Bool
  riskScore : Option Score
  approvedAt : Option ℕ
  rejectedAt : Option ℕ
  webhookLog : Option (List (LogEntry Raw))
  deriving DecidableEq, Repr

structure ProviderWebhookPayload (Raw Score : Type) where
  provider : KycProvider
  event : String
  status : Option String
  subResult : Option String
  riskScore : Option Score
  rawPayload : Raw
  deriving DecidableEq, Repr

/-- The readings of the clock between the two statements of a webhook. -/
structure Readings where
  receivedAt : ℕ
  decidedAt : ℕ
  deriving DecidableEq, Repr

variable {Raw Score : Type}

/-- The entries of the log; there are none if the log cannot be parsed. -/
def KycVerification.entries (record : KycVerification Raw Score) : List (LogEntry Raw) :=
  record.webhookLog.getD []

/-! ### What is computed -/

/-- The variables of `handleWebhook`. -/
structure Findings (Score : Type) where
  newStatus : KycStatus
  amlStatus : String
  livenessCompleted : Bool
  approvedAt : Option ℕ
  rejectedAt : Option ℕ
  newRiskScore : Option Score

/-- The events of Onfido. -/
def onfidoFindings (payload : ProviderWebhookPayload Raw Score) (now : ℕ) (f : Findings Score) :
    Findings Score :=
  if payload.event = "workflow_run.completed" then
    if payload.status = some "approved" then
      { f with newStatus := .approved, approvedAt := some now }
    else if payload.status = some "declined" then
      { f with newStatus := .rejected, rejectedAt := some now }
    else f
  else if payload.event = "check.completed" then
    let subResult := payload.subResult.map String.toLower
    { f with
      amlStatus :=
        if subResult = some "clear" then "clear"
        else if subResult = some "consider" then "consider"
        else "flagged"
      newRiskScore := payload.riskScore <|> f.newRiskScore }
  else if payload.event = "liveness_photo.created" ∨ payload.event = "video.created" then
    { f with livenessCompleted := true }
  else f

/-- The events of Jumio. -/
def jumioFindings (payload : ProviderWebhookPayload Raw Score) (now : ℕ) (f : Findings Score) :
    Findings Score :=
  if payload.event = "transaction.success" then
    { f with newStatus := .approved, approvedAt := some now, livenessCompleted := true }
  else if payload.event = "transaction.failed" ∨ payload.event = "transaction.declined" then
    { f with newStatus := .rejected, rejectedAt := some now }
  else if payload.event = "aml_screening.completed" then
    { f with
      amlStatus := payload.status.getD "clear"
      newRiskScore := payload.riskScore <|> f.newRiskScore }
  else f

/-- What the variables are at the end. -/
def findings (payload : ProviderWebhookPayload Raw Score) (now : ℕ)
    (record : KycVerification Raw Score) : Findings Score :=
  let f : Findings Score :=
    { newStatus := record.status
      amlStatus := record.amlStatus
      livenessCompleted := record.livenessCompleted
      approvedAt := none
      rejectedAt := none
      newRiskScore := record.riskScore }
  match payload.provider with
  | .onfido => onfidoFindings payload now f
  | .jumio => jumioFindings payload now f

/-- The data of the update; a risk score that is not given is left as it is. -/
structure KycUpdate (Raw Score : Type) where
  status : KycStatus
  amlStatus : String
  livenessCompleted : Bool
  riskScore : Option Score
  approvedAt : Option ℕ
  rejectedAt : Option ℕ
  webhookLog : List (LogEntry Raw)

/-- The entry that a webhook appends to the log. -/
def ProviderWebhookPayload.logEntry (payload : ProviderWebhookPayload Raw Score)
    (readings : Readings) : LogEntry Raw :=
  ⟨payload.rawPayload, readings.receivedAt⟩

/-- What `handleWebhook` makes of the record that it has read. -/
def updateFor (payload : ProviderWebhookPayload Raw Score) (readings : Readings)
    (record : KycVerification Raw Score) : KycUpdate Raw Score :=
  let f := findings payload readings.decidedAt record
  { status := f.newStatus
    amlStatus := f.amlStatus
    livenessCompleted := f.livenessCompleted
    riskScore := f.newRiskScore
    approvedAt := f.approvedAt <|> record.approvedAt
    rejectedAt := f.rejectedAt <|> record.rejectedAt
    webhookLog := (record.entries ++ [payload.logEntry readings]).rtake 50 }

/-- The update statement. -/
def KycVerification.update (record : KycVerification Raw Score) (data : KycUpdate Raw Score) :
    KycVerification Raw Score where
  status := data.status
  amlStatus := data.amlStatus
  livenessCompleted := data.livenessCompleted
  riskScore := data.riskScore <|> record.riskScore
  approvedAt := data.approvedAt
  rejectedAt := data.rejectedAt
  webhookLog := some data.webhookLog

/-- The update statement of `triggerReVerification`. -/
def KycVerification.requireReVerification (record : KycVerification Raw Score) :
    KycVerification Raw Score :=
  { record with status := .reVerificationRequired }

/-! ### Calls -/

/-- A call of `handleWebhook` or of `triggerReVerification`. -/
inductive KycTask (Raw Score : Type)
  | webhook (payload : ProviderWebhookPayload Raw Score)
  | reVerification

/-- How far a call has got: before it reads the record, before it writes what it computes from the
record, before `triggerReVerification` reads the record and before it writes the status. -/
inductive KycStage (Raw Score : Type)
  | received
  | read (readings : Readings) (record : KycVerification Raw Score)
  | triggered
  | found
  | done

structure KycCall (Raw Score : Type) where
  task : KycTask Raw Score
  stage : KycStage Raw Score

/-- What has been written: the update of a webhook, with its entry in the log, or of a
re-verification. -/
inductive KycWrite (Raw Score : Type)
  | webhook (payload : ProviderWebhookPayload Raw Score) (readings : Readings)
  | reVerification

/-- The record, and what has been written in it. -/
structure KycTable (Raw Score : Type) where
  record : KycVerification Raw Score
  written : List (KycWrite Raw Score)

/-- A statement of a call. -/
def kycTurn (high : Score → Bool) (table : KycTable Raw Score) (call : KycCall Raw Score)
    (readings : Readings) : KycTable Raw Score × KycCall Raw Score :=
  match call.stage, call.task with
  | .received, .webhook _ => (table, { call with stage := .read readings table.record })
  | .read readings record, .webhook payload =>
    let data := updateFor payload readings record
    let reVerify := data.amlStatus = "flagged" && data.riskScore.any high
    (⟨table.record.update data, table.written ++ [.webhook payload readings]⟩,
      { call with stage := if reVerify then .triggered else .done })
  | .triggered, _ => (table, { call with stage := .found })
  | .found, _ =>
    (⟨table.record.requireReVerification, table.written ++ [.reVerification]⟩,
      { call with stage := .done })
  | _, _ => (table, call)

/-- What happens: a call, or the next statement of a call, with the readings of the clock after
it. -/
inductive KycInput (Raw Score : Type)
  | call (task : KycTask Raw Score)
  | turn (i : ℕ) (readings : Readings)

/-- A call that begins. -/
def KycTask.begin (task : KycTask Raw Score) : KycCall Raw Score :=
  match task with
  | .webhook _ => ⟨task, .received⟩
  | .reVerification => ⟨task, .triggered⟩

/-- The table, and the calls. -/
abbrev KycPool (Raw Score : Type) : Type := Pool (KycTable Raw Score) (KycCall Raw Score)

def kycStep (high : Score → Bool) (p : KycPool Raw Score) :
    KycInput Raw Score → KycPool Raw Score
  | .call task => p.start task.begin
  | .turn i readings => p.resume (kycTurn high) i readings

/-- No call has been made, and nothing written. -/
def kycStart (record : KycVerification Raw Score) : KycPool Raw Score := .idle ⟨record, []⟩

/-! ### What a payload carries -/

namespace ProviderWebhookPayload

variable (payload : ProviderWebhookPayload Raw Score)

/-- The status that a webhook sets: an approval, or a rejection. -/
def decision : Option KycStatus :=
  match payload.provider with
  | .onfido =>
    if payload.event = "workflow_run.completed" then
      if payload.status = some "approved" then some .approved
      else if payload.status = some "declined" then some .rejected
      else none
    else none
  | .jumio =>
    if payload.event = "transaction.success" then some .approved
    else if payload.event = "transaction.failed" ∨ payload.event = "transaction.declined" then
      some .rejected
    else none

/-- The AML status that a webhook sets. -/
def amlResult : Option String :=
  match payload.provider with
  | .onfido =>
    if payload.event = "check.completed" then
      let subResult := payload.subResult.map String.toLower
      some (if subResult = some "clear" then "clear"
        else if subResult = some "consider" then "consider" else "flagged")
    else none
  | .jumio =>
    if payload.event = "aml_screening.completed" then some (payload.status.getD "clear") else none

/-- The webhook sets `livenessCompleted`. -/
def completesLiveness : Bool :=
  match payload.provider with
  | .onfido => payload.event = "liveness_photo.created" || payload.event = "video.created"
  | .jumio => payload.event = "transaction.success"

end ProviderWebhookPayload

variable {payload : ProviderWebhookPayload Raw Score} {readings : Readings}
  {record : KycVerification Raw Score}

/-- A column is what the payload carries for it, and else what has been read. -/
theorem findings_eq (now : ℕ) :
    (findings payload now record).newStatus = payload.decision.getD record.status ∧
      (findings payload now record).amlStatus = payload.amlResult.getD record.amlStatus ∧
      (findings payload now record).livenessCompleted =
        (payload.completesLiveness || record.livenessCompleted) := by
  unfold findings ProviderWebhookPayload.decision ProviderWebhookPayload.amlResult
    ProviderWebhookPayload.completesLiveness
  cases payload.provider with
  | onfido =>
    simp only [onfidoFindings]
    split_ifs <;> simp_all
  | jumio =>
    simp only [jumioFindings]
    split_ifs <;> simp_all

theorem updateFor_status :
    (updateFor payload readings record).status = payload.decision.getD record.status :=
  (findings_eq readings.decidedAt).1

theorem updateFor_amlStatus :
    (updateFor payload readings record).amlStatus =
      payload.amlResult.getD record.amlStatus :=
  (findings_eq readings.decidedAt).2.1

theorem updateFor_livenessCompleted :
    (updateFor payload readings record).livenessCompleted =
      (payload.completesLiveness || record.livenessCompleted) :=
  (findings_eq readings.decidedAt).2.2

end SorobanPay.Kyc
