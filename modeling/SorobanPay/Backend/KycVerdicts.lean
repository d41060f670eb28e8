import SorobanPay.Backend.KycUpdates
import SorobanPay.Foundation.Run

/-!
# KYC verdicts

`initiateVerification` of `services/kycService.ts` makes the verification record of a wallet, or
writes a new submission into it unless the wallet is approved; `isVerified` reads the status, the
AML status and the day on which the verification expires. This day is written when the record is
made, and by no later submission. So a wallet is judged by its first submission, where the last one
should count: `verdictFollows_iff` says in which histories that makes no difference.

The calls are for one wallet and do not overlap, and each reads the clock once. A record is found
for a webhook that carries its applicant or its workflow run; an id that a webhook does not carry
finds nothing. What the table puts into the columns that are not given is left open.

## Main definitions

* `KycRow`, `initiateVerification`, `handleWebhook`, `triggerReVerification`, `isVerified`: the
  record and the operations.
* `KycRequest`, `kycServe`: calls one after the other.
* `KycAct`, `kycActs`: what a call does.
* `Deserved`, `VerdictFollows`: the verdict that the history gives.
* `ExpiryTold`: the first submission tells what the last one does.

## Main results

* `shared_after_turns`: a webhook that no other call overlaps.
* `isVerified_iff`: what the verdict depends on.
* `verdictFollows_iff`: when it follows the history.
* `not_isVerified_of_expired`: after a year there is no verdict but the negative one.
-/

set_option autoImplicit false

namespace SorobanPay.Kyc

open Foundation

/-! ### The record -/

inductive DocumentType
  | passport
  | nationalId
  | drivingLicense
  deriving DecidableEq, Repr

/-- A row of the table, with the columns that a submission writes. -/
structure KycRow (Raw Score : Type) where
  provider : KycProvider
  providerApplicantId : Option String
  providerWorkflowRunId : Option String
  documentType : Option DocumentType
  submittedAt : Option ℕ
  expiresAt : Option ℕ
  verification : KycVerification Raw Score
  deriving DecidableEq, Repr

/-- What a provider answers when it makes an applicant. -/
structure ProviderApplicantResult where
  applicantId : String
  sdkToken : Option String
  workflowRunId : Option String
  deriving DecidableEq, Repr

structure KycVerificationResult (Score : Type) where
  walletAddress : String
  status : KycStatus
  provider : KycProvider
  providerApplicantId : Option String
  sdkToken : Option String
  workflowRunId : Option String
  amlStatus : String
  livenessCompleted : Bool
  documentType : Option DocumentType
  riskScore : Option Score
  message : String
  deriving DecidableEq, Repr

/-- A webhook, with the ids by which it finds its record. -/
structure AddressedWebhook (Raw Score : Type) where
  applicantId : Option String
  workflowRunId : Option String
  payload : ProviderWebhookPayload Raw Score
  deriving DecidableEq, Repr

variable {Raw Score : Type}

/-! ### The operations -/

/-- One year, in milliseconds. -/
def year : ℕ := 365 * 24 * 60 * 60 * 1000

/-- `buildResult`. -/
def buildResult (walletAddress : String) (row : KycRow Raw Score) (message : String) :
    KycVerificationResult Score where
  walletAddress := walletAddress
  status := row.verification.status
  provider := row.provider
  providerApplicantId := row.providerApplicantId
  sdkToken := none
  workflowRunId := none
  amlStatus := row.verification.amlStatus
  livenessCompleted := row.verification.livenessCompleted
  documentType := row.documentType
  riskScore := row.verification.riskScore
  message := message

/-- The `create` of the upsert. -/
def KycRow.create (defaults : KycVerification Raw Score) (provider : KycProvider)
    (documentType : DocumentType) (applicant : ProviderApplicantResult) (now : ℕ) :
    KycRow Raw Score where
  provider := provider
  providerApplicantId := some applicant.applicantId
  providerWorkflowRunId := applicant.workflowRunId
  documentType := some documentType
  submittedAt := some now
  expiresAt := some (now + year)
  verification := { defaults with status := .submitted, amlStatus := "pending" }

/-- The `update` of the upsert; a workflow run that is not given is left as it is. -/
def KycRow.resubmit (row : KycRow Raw Score) (provider : KycProvider)
    (documentType : DocumentType) (applicant : ProviderApplicantResult) (now : ℕ) :
    KycRow Raw Score :=
  { row with
    provider := provider
    providerApplicantId := some applicant.applicantId
    providerWorkflowRunId := applicant.workflowRunId <|> row.providerWorkflowRunId
    documentType := some documentType
    submittedAt := some now
    verification := { row.verification with status := .submitted, amlStatus := "pending" } }

/-- `initiateVerification`: the record afterwards, and the result. -/
def initiateVerification (defaults : KycVerification Raw Score) (walletAddress : String)
    (provider : KycProvider) (documentType : DocumentType) (applicant : ProviderApplicantResult)
    (now : ℕ) (existing : Option (KycRow Raw Score)) :
    KycRow Raw Score × KycVerificationResult Score :=
  let initiated (row : KycRow Raw Score) :=
    (row,
      { buildResult walletAddress row
          "KYC verification initiated. Complete the document upload flow." with
        sdkToken := applicant.sdkToken
        workflowRunId := applicant.workflowRunId })
  match existing with
  | none => initiated (.create defaults provider documentType applicant now)
  | some row =>
    if row.verification.status = .approved then
      (row, buildResult walletAddress row "Already verified.")
    else initiated (row.resubmit provider documentType applicant now)

/-- The record is found for a webhook. -/
def KycRow.foundBy (row : KycRow Raw Score) (webhook : AddressedWebhook Raw Score) : Bool :=
  (webhook.applicantId.isSome && webhook.applicantId = row.providerApplicantId) ||
    (webhook.workflowRunId.isSome && webhook.workflowRunId = row.providerWorkflowRunId)

/-- `triggerReVerification`. -/
def triggerReVerification (walletAddress : String) (existing : Option (KycRow Raw Score)) :
    Except String (KycRow Raw Score) :=
  match existing with
  | none => .error ("No KYC record found for wallet " ++ walletAddress)
  | some row => .ok { row with verification := row.verification.requireReVerification }

/-- The update of a webhook is followed by a re-verification. -/
def reVerifies (high : Score → Bool) (data : KycUpdate Raw Score) : Bool :=
  data.amlStatus = "flagged" && data.riskScore.any high

/-- What is made of the record that a webhook finds. -/
def KycVerification.handled (high : Score → Bool) (record : KycVerification Raw Score)
    (payload : ProviderWebhookPayload Raw Score) (readings : Readings) :
    KycVerification Raw Score :=
  let data := updateFor payload readings record
  let updated := record.update data
  if reVerifies high data then updated.requireReVerification else updated

/-- `handleWebhook`. -/
def handleWebhook (high : Score → Bool) (webhook : AddressedWebhook Raw Score)
    (readings : Readings) (existing : Option (KycRow Raw Score)) : Option (KycRow Raw Score) :=
  existing.map fun row =>
    if row.foundBy webhook then
      { row with verification := row.verification.handled high webhook.payload readings }
    else row

/-- `isVerified`. -/
def isVerified (now : ℕ) (existing : Option (KycRow Raw Score)) : Bool :=
  match existing with
  | none => false
  | some row =>
    if row.verification.status ≠ .approved then false
    else if row.verification.amlStatus = "flagged" then false
    else if row.expiresAt.any (· < now) then false
    else true

/-! ### Calls one after the other -/

inductive KycRequest (Raw Score : Type)
  | initiate (provider : KycProvider) (documentType : DocumentType)
      (applicant : ProviderApplicantResult)
  | webhook (webhook : AddressedWebhook Raw Score)
  | reVerify
  deriving DecidableEq, Repr

variable (high : Score → Bool) (defaults : KycVerification Raw Score) (wallet : String)

/-- The record after a call, with the time of the call. -/
def kycServe (row : Option (KycRow Raw Score)) (call : ℕ × KycRequest Raw Score) :
    Option (KycRow Raw Score) :=
  match call with
  | (now, .initiate provider documentType applicant) =>
    some (initiateVerification defaults wallet provider documentType applicant now row).1
  | (now, .webhook webhook) => handleWebhook high webhook ⟨now, now⟩ row
  | (_, .reVerify) => (triggerReVerification wallet row).toOption.or row

/-- What a call does: a submission, or what is written into the record. -/
inductive KycAct (Raw Score : Type)
  | submitted (now : ℕ)
  | written (write : KycWrite Raw Score)

/-- What a call does to the record. A submission is skipped if the wallet is approved. -/
def kycActs (row : Option (KycRow Raw Score)) (call : ℕ × KycRequest Raw Score) :
    List (KycAct Raw Score) :=
  match call with
  | (now, .initiate ..) =>
    if row.any fun row => row.verification.status = .approved then [] else [.submitted now]
  | (now, .webhook webhook) =>
    match row with
    | none => []
    | some row =>
      if row.foundBy webhook then
        .written (.webhook webhook.payload ⟨now, now⟩) ::
          if reVerifies high (updateFor webhook.payload ⟨now, now⟩ row.verification) then
            [.written .reVerification]
          else []
      else []
  | (_, .reVerify) => if row.isSome then [.written .reVerification] else []

/-- What some calls do to a wallet without a record. -/
abbrev kycHistory (calls : List (ℕ × KycRequest Raw Score)) : List (KycAct Raw Score) :=
  history (kycServe high defaults wallet) (kycActs high) none calls

/-! ### The verdict -/

namespace KycAct

/-- The status that an act sets. -/
def decision : KycAct Raw Score → Option KycStatus
  | submitted _ => some .submitted
  | written write => write.decision

/-- The AML status that a webhook sets. -/
def amlResult : KycAct Raw Score → Option String
  | submitted _ => none
  | written write => write.amlResult

/-- The time of a submission. -/
def submittedAt : KycAct Raw Score → Option ℕ
  | submitted now => some now
  | written _ => none

end KycAct

/-- The latest AML result since the last submission. -/
def latestAml (acts : List (KycAct Raw Score)) : Option String :=
  ((acts.rtakeWhile fun act => act.submittedAt.isNone).filterMap KycAct.amlResult).getLast?

/-- The verdict that a history deserves at a time: the latest decision is an approval, nothing has
been flagged since the last submission, and this is less than a year ago. -/
structure Deserved (acts : List (KycAct Raw Score)) (now : ℕ) : Prop where
  approved : (acts.filterMap KycAct.decision).getLast? = some .approved
  notFlagged : latestAml acts ≠ some "flagged"
  recent : ∃ t, (acts.filterMap KycAct.submittedAt).getLast? = some t ∧ now < t + year

/-- After some calls the wallet is verified if and only if it deserves to be. -/
def VerdictFollows (calls : List (ℕ × KycRequest Raw Score)) (now : ℕ) : Prop :=
  isVerified now (after (kycServe high defaults wallet) none calls) = true ↔
    Deserved (kycHistory high defaults wallet calls) now

/-- A year after the first submission the last one is a year ago, too, and the year after the first
one is not just over. -/
def ExpiryTold (acts : List (KycAct Raw Score)) (now : ℕ) : Prop :=
  ∀ first last, (acts.filterMap KycAct.submittedAt).head? = some first →
    (acts.filterMap KycAct.submittedAt).getLast? = some last →
      (first + year < now → last + year ≤ now) ∧ (now = first + year → first < last)

/-! ### The record and the history -/

section Tells

variable {high defaults wallet} {acts : List (KycAct Raw Score)} {row : KycRow Raw Score}

/-- The record says what its history does. -/
structure Tells (acts : List (KycAct Raw Score)) (row : KycRow Raw Score) : Prop where
  status : (acts.filterMap KycAct.decision).getLast? = some row.verification.status
  amlStatus : row.verification.amlStatus = (latestAml acts).getD "pending"
  expiresAt : ∃ first, (acts.filterMap KycAct.submittedAt).head? = some first ∧
    row.expiresAt = some (first + year)

/-- Where there is no record, nothing has been done. -/
def Told (acts : List (KycAct Raw Score)) (row : Option (KycRow Raw Score)) : Prop :=
  row.elim (acts = []) (Tells acts)

theorem getLast?_filterMap_concat {A B : Type} (f : A → Option B) (l : List A) (a : A) :
    ((l ++ [a]).filterMap f).getLast? = (f a).or (l.filterMap f).getLast? := by
  rw [List.filterMap_append, List.getLast?_append]
  rcases h : f a with _ | b <;> simp [h]

theorem latestAml_submitted (acts : List (KycAct Raw Score)) (now : ℕ) :
    latestAml (acts ++ [.submitted now]) = none := by
  rw [latestAml, List.rtakeWhile_concat_neg _ _ _ (by simp [KycAct.submittedAt])]
  rfl

theorem latestAml_written (acts : List (KycAct Raw Score)) (write : KycWrite Raw Score) :
    latestAml (acts ++ [.written write]) = write.amlResult.or (latestAml acts) := by
  rw [latestAml, List.rtakeWhile_concat_pos _ _ _ (by simp [KycAct.submittedAt]),
    getLast?_filterMap_concat]
  rfl

/-- What is written sets the columns for which it carries something. -/
theorem Tells.written (h : Tells acts row) {write : KycWrite Raw Score}
    {record : KycVerification Raw Score}
    (hstatus : record.status = write.decision.getD row.verification.status)
    (haml : record.amlStatus = write.amlResult.getD row.verification.amlStatus) :
    Tells (acts ++ [.written write]) { row with verification := record } where
  status := by
    rw [getLast?_filterMap_concat, h.status, hstatus]
    change write.decision.or _ = _
    cases write.decision <;> rfl
  amlStatus := by
    rw [latestAml_written, haml, h.amlStatus]
    cases write.amlResult <;> rfl
  expiresAt := by
    rw [List.filterMap_append]
    exact (List.append_nil _).symm ▸ h.expiresAt

theorem Tells.reVerification (h : Tells acts row) :
    Tells (acts ++ [.written .reVerification])
      { row with verification := row.verification.requireReVerification } :=
  h.written rfl rfl

theorem Tells.webhook (h : Tells acts row) (payload : ProviderWebhookPayload Raw Score)
    (readings : Readings) :
    Tells (acts ++ [.written (.webhook payload readings)])
      { row with
        verification := row.verification.update (updateFor payload readings row.verification) } :=
  h.written updateFor_status updateFor_amlStatus

/-- A later submission changes the status and the AML status, and nothing about the expiry. -/
theorem Tells.resubmit (h : Tells acts row) (provider : KycProvider) (documentType : DocumentType)
    (applicant : ProviderApplicantResult) (now : ℕ) :
    Tells (acts ++ [.submitted now]) (row.resubmit provider documentType applicant now) where
  status := by
    rw [getLast?_filterMap_concat]
    rfl
  amlStatus := by
    rw [latestAml_submitted]
    rfl
  expiresAt := by
    obtain ⟨first, hfirst, hexpires⟩ := h.expiresAt
    refine ⟨first, ?_, hexpires⟩
    rw [List.filterMap_append, List.head?_append, hfirst]
    rfl

theorem tells_create (provider : KycProvider) (documentType : DocumentType)
    (applicant : ProviderApplicantResult) (now : ℕ) :
    Tells [.submitted now] (.create defaults provider documentType applicant now) where
  status := rfl
  amlStatus := rfl
  expiresAt := ⟨now, rfl, rfl⟩

/-- After each call the record says what its history does. -/
theorem Told.serve {row : Option (KycRow Raw Score)} (h : Told acts row)
    (call : ℕ × KycRequest Raw Score) :
    Told (acts ++ kycActs high row call) (kycServe high defaults wallet row call) := by
  obtain ⟨now, request⟩ := call
  rcases row with _ | row
  · obtain rfl : acts = [] := h
    cases request with
    | initiate provider documentType applicant =>
      exact tells_create provider documentType applicant now
    | webhook webhook => exact rfl
    | reVerify => exact rfl
  · have h : Tells acts row := h
    cases request with
    | initiate provider documentType applicant =>
      simp only [kycActs, kycServe, initiateVerification, Option.any_some, decide_eq_true_eq]
      split_ifs
      · rwa [List.append_nil]
      · exact h.resubmit provider documentType applicant now
    | webhook webhook =>
      simp only [kycActs, kycServe, handleWebhook, Option.map_some, KycVerification.handled]
      split_ifs
      · have hupdated := (h.webhook webhook.payload ⟨now, now⟩).reVerification
        rwa [List.append_assoc] at hupdated
      · exact h.webhook webhook.payload ⟨now, now⟩
      · rwa [List.append_nil]
    | reVerify => exact h.reVerification

variable (high defaults wallet) in
/-- **The record and the history.** -/
theorem told (calls : List (ℕ × KycRequest Raw Score)) :
    Told (kycHistory high defaults wallet calls)
      (after (kycServe high defaults wallet) none calls) := by
  have hstep : ∀ (t : Option (KycRow Raw Score) × List (KycAct Raw Score)) call,
      Told t.2 t.1 → Told (logged (kycServe high defaults wallet) (kycActs high) t call).2
        (logged (kycServe high defaults wallet) (kycActs high) t call).1 :=
    fun _ call h => h.serve call
  have hend := after_invariant hstep (s := (none, [])) rfl calls
  rwa [after_logged, List.nil_append] at hend

end Tells

/-! ### The verdict and the history -/

section Verdicts

variable {calls : List (ℕ × KycRequest Raw Score)} {now : ℕ}

/-- **What the verdict depends on**: the latest decision, the latest AML result, and the first
submission. -/
theorem isVerified_iff :
    isVerified now (after (kycServe high defaults wallet) none calls) = true ↔
      ((kycHistory high defaults wallet calls).filterMap KycAct.decision).getLast? =
          some .approved ∧
        latestAml (kycHistory high defaults wallet calls) ≠ some "flagged" ∧
          ∃ first, ((kycHistory high defaults wallet calls).filterMap
            KycAct.submittedAt).head? = some first ∧ now ≤ first + year := by
  have htold := told high defaults wallet calls
  generalize after (kycServe high defaults wallet) none calls = row at htold ⊢
  rcases row with _ | row
  · have hnil : kycHistory high defaults wallet calls = [] := htold
    simp [hnil, isVerified]
  · have htells : Tells (kycHistory high defaults wallet calls) row := htold
    obtain ⟨first, hfirst, hexpires⟩ := htells.expiresAt
    have haml : row.verification.amlStatus ≠ "flagged" ↔
        latestAml (kycHistory high defaults wallet calls) ≠ some "flagged" := by
      rw [htells.amlStatus]
      rcases latestAml (kycHistory high defaults wallet calls) with _ | result <;> simp
    have hany : (row.expiresAt.any (· < now)) = true ↔ ¬ now ≤ first + year := by
      rw [hexpires, Option.any_some, decide_eq_true_eq, Nat.not_le]
    have hverdict : isVerified now (some row) = true ↔ row.verification.status = .approved ∧
        row.verification.amlStatus ≠ "flagged" ∧ now ≤ first + year := by
      rw [isVerified]
      split_ifs with hstatus hflagged hover
      · exact iff_of_false not_false fun h => hstatus h.1
      · exact iff_of_false not_false fun h => h.2.1 hflagged
      · exact iff_of_false not_false fun h => hany.1 hover h.2.2
      · exact iff_of_true rfl ⟨not_not.1 hstatus, hflagged, not_not.1 (mt hany.2 hover)⟩
    rw [hverdict, htells.status, ← haml, hfirst, Option.some_inj]
    refine and_congr_right' (and_congr_right' ⟨fun h => ⟨first, rfl, h⟩, ?_⟩)
    rintro ⟨first', hfirst', h⟩
    rwa [Option.some.inj hfirst']

/-- **No renewal.** When a year has passed since the first submission, the wallet is not verified,
whatever is submitted and approved later. -/
theorem not_isVerified_of_expired {first : ℕ}
    (hfirst : ((kycHistory high defaults wallet calls).filterMap KycAct.submittedAt).head? =
      some first) (hnow : first + year < now) :
    isVerified now (after (kycServe high defaults wallet) none calls) = false := by
  refine Bool.eq_false_iff.2 fun h => ?_
  obtain ⟨-, -, first', hfirst', hle⟩ := (isVerified_iff high defaults wallet).1 h
  obtain rfl := Option.some.inj (hfirst.symm.trans hfirst')
  exact absurd hle (Nat.not_le.2 hnow)

/-- A list in ascending order is empty, or its first member is not larger than its last one. -/
theorem head?_getLast?_cases {l : List ℕ} (hl : l.Pairwise (· ≤ ·)) :
    l.head? = none ∧ l.getLast? = none ∨
      ∃ first last, l.head? = some first ∧ l.getLast? = some last ∧ first ≤ last := by
  rcases l with _ | ⟨first, l⟩
  · exact .inl ⟨rfl, rfl⟩
  · refine .inr ⟨first, _, rfl, List.getLast?_cons .., ?_⟩
    have hlast : (first :: l).getLast? = some (l.getLast?.getD first) := List.getLast?_cons ..
    rcases List.mem_cons.1 (List.mem_of_getLast? hlast) with heq | hmem
    · exact heq.ge
    · exact List.rel_of_pairwise_cons hl hmem

/-- The submissions come in the order of time. -/
theorem pairwise_submittedAt (hclock : calls.Pairwise fun call call' => call.1 ≤ call'.1) :
    ((kycHistory high defaults wallet calls).filterMap KycAct.submittedAt).Pairwise (· ≤ ·) := by
  suffices hstamp : ∀ (row : Option (KycRow Raw Score)) call,
      ∀ t ∈ (kycActs high row call).filterMap KycAct.submittedAt, id t = call.1 by
    rw [kycHistory, filterMap_history]
    exact pairwise_history Prod.fst hstamp hclock
  intro row call t ht
  obtain ⟨act, hact, htime⟩ := List.mem_filterMap.1 ht
  obtain ⟨now, request⟩ := call
  cases act with
  | written write => cases htime
  | submitted now' =>
    obtain rfl : now' = t := Option.some.inj htime
    cases request with
    | initiate provider documentType applicant =>
      simp only [kycActs] at hact
      split_ifs at hact
      · cases hact
      · exact (KycAct.submitted.inj (List.mem_singleton.1 hact)).symm ▸ rfl
    | webhook webhook =>
      rcases row with _ | row
      · cases hact
      · simp only [kycActs] at hact
        split_ifs at hact <;> simp at hact
    | reVerify =>
      simp only [kycActs] at hact
      split_ifs at hact <;> simp at hact

/-- **When the verdict follows the history.** It does exactly if the wallet is not approved, or
flagged, or the first submission tells what the last one does. -/
theorem verdictFollows_iff (hclock : calls.Pairwise fun call call' => call.1 ≤ call'.1) (now : ℕ) :
    VerdictFollows high defaults wallet calls now ↔
      (((kycHistory high defaults wallet calls).filterMap KycAct.decision).getLast? =
          some .approved →
        latestAml (kycHistory high defaults wallet calls) ≠ some "flagged" →
          ExpiryTold (kycHistory high defaults wallet calls) now) := by
  have hsorted := pairwise_submittedAt high defaults wallet hclock
  rw [VerdictFollows, isVerified_iff]
  generalize kycHistory high defaults wallet calls = acts at hsorted ⊢
  rcases head?_getLast?_cases hsorted with ⟨hfirst, hlast⟩ | ⟨first, last, hfirst, hlast, hle⟩
  · -- without a submission there is no verdict, and nothing is deserved
    refine iff_of_true (iff_of_false ?_ ?_) fun _ _ first last h => ?_
    · rintro ⟨-, -, first, h, -⟩
      exact absurd (hfirst.symm.trans h) (by simp)
    · rintro ⟨-, -, last, h, -⟩
      exact absurd (hlast.symm.trans h) (by simp)
    · exact absurd (hfirst.symm.trans h) (by simp)
  · have hdeserved : Deserved acts now ↔ (acts.filterMap KycAct.decision).getLast? =
        some .approved ∧ latestAml acts ≠ some "flagged" ∧ now < last + year := by
      refine ⟨fun ⟨happroved, hflagged, last', hlast', hrecent⟩ => ?_, fun h => ?_⟩
      · obtain rfl := Option.some.inj (hlast.symm.trans hlast')
        exact ⟨happroved, hflagged, hrecent⟩
      · exact ⟨h.1, h.2.1, last, hlast, h.2.2⟩
    have hexpiry : ExpiryTold acts now ↔ (now ≤ first + year ↔ now < last + year) := by
      constructor
      · intro h
        have hends := h first last hfirst hlast
        omega
      · intro h first' last' hfirst' hlast'
        obtain rfl := Option.some.inj (hfirst.symm.trans hfirst')
        obtain rfl := Option.some.inj (hlast.symm.trans hlast')
        omega
    simp only [hdeserved, hexpiry, hfirst, Option.some.injEq, exists_eq_left',
      and_congr_right_iff]

end Verdicts

/-! ### Webhooks that no other call overlaps -/

/-- The statements of a webhook, with none of another call in between, make of the record what
`handleWebhook` does. -/
theorem shared_after_turns (record : KycVerification Raw Score)
    (payload : ProviderWebhookPayload Raw Score) (readings : Readings) :
    (after (kycStep high) (kycStart record)
        (.call (.webhook payload) :: List.replicate 4 (.turn 0 readings))).shared.record =
      record.handled high payload readings := by
  have hflag : (((updateFor payload readings record).amlStatus = "flagged" &&
      (updateFor payload readings record).riskScore.any high) : Bool) =
      reVerifies high (updateFor payload readings record) := rfl
  cases hhigh : reVerifies high (updateFor payload readings record) <;>
    simp [kycStart, kycStep, KycTask.begin, Pool.idle, Pool.start, Pool.resume, kycTurn,
      KycVerification.handled, hflag, hhigh, List.replicate]

/-! ### A sample -/

/-- A wallet that is approved, and after a year verified again with another provider. -/
def sampleRenewal : List (ℕ × KycRequest Unit ℕ) :=
  [(0, .initiate .onfido .passport ⟨"a", none, some "run"⟩),
    (1, .webhook ⟨some "a", none,
      ⟨.onfido, "workflow_run.completed", some "approved", none, none, ()⟩⟩),
    (year + 1, .reVerify),
    (year + 2, .initiate .jumio .nationalId ⟨"b", none, none⟩),
    (year + 3, .webhook ⟨some "b", none, ⟨.jumio, "transaction.success", none, none, none, ()⟩⟩)]

/-- Though it has just been approved again, the wallet is not verified. -/
theorem not_verdictFollows_renewal :
    ¬ VerdictFollows (75 ≤ ·) sampleRecord "wallet" sampleRenewal (year + 4) := by
  intro h
  have hdeserved : Deserved (kycHistory (75 ≤ ·) sampleRecord "wallet" sampleRenewal) (year + 4) :=
    ⟨by decide, by decide, year + 2, by decide, by decide⟩
  exact absurd (h.2 hdeserved) (by decide)

theorem verdictFollows_renewal_sample :
    VerdictFollows (75 ≤ ·) sampleRecord "wallet" sampleRenewal 2 ↔
      (((kycHistory (75 ≤ ·) sampleRecord "wallet" sampleRenewal).filterMap
          KycAct.decision).getLast? = some .approved →
        latestAml (kycHistory (75 ≤ ·) sampleRecord "wallet" sampleRenewal) ≠ some "flagged" →
          ExpiryTold (kycHistory (75 ≤ ·) sampleRecord "wallet" sampleRenewal) 2) :=
  verdictFollows_iff (75 ≤ ·) sampleRecord "wallet" (by decide) 2

end SorobanPay.Kyc
