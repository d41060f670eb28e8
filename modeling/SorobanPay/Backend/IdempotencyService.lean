import SorobanPay.Foundation.InsertionMap
import SorobanPay.Foundation.Listing
import SorobanPay.Foundation.Transaction

/-!
# The idempotency service

`payment_idempotency` has a row for each idempotency key: the payment that the key was first used
for, and how it has ended. `checkIdempotencyKey` looks a key up, `recordIdempotencySuccess` and
`recordIdempotencyFailure` write its row, and `handleIdempotencyCheck` says what a request under the
key should do: return the transaction that has already paid, or go on.

A call makes one statement, which the database carries out as a whole. So calls that overlap are
calls in a row, in the order of their statements. A statement may fail, or take effect without a
reply.

## Main definitions

* `IdempotencyTable`, `PaymentIdempotency`: the table and its rows.
* `checkIdempotencyKey`, `recordIdempotencySuccess`, `recordIdempotencyFailure`,
  `handleIdempotencyCheck`: the service.
* `IdempotencyCall`, `callStep`: calls in a row.

## Main results

* `get_callStep`: what a call does to the row of a key.
* `handleIdempotencyCheck_eq_some_iff`, `handleIdempotencyCheck_eq_none_iff`: when a request is told
  of a payment, and when it is let through.
* `UniqueHashes.callStep`: no transaction is recorded under two keys.
-/

set_option autoImplicit false

namespace SorobanPay.IdempotencyService

open Foundation

/-! ### The table -/

/-- The payment that a key stands for. -/
structure PaymentDetails where
  subscriber : String
  merchant : String
  token : String
  amount : String
  deriving DecidableEq, Repr

structure IdempotencyKeyParams extends PaymentDetails where
  idempotencyKey : String
  tenantId : Option String
  deriving DecidableEq, Repr

inductive IdempotencyStatus
  | pending
  | succeeded
  | failed
  deriving DecidableEq, Repr

/-- A row of `payment_idempotency`, without its key. -/
structure PaymentIdempotency extends PaymentDetails where
  status : IdempotencyStatus
  txHash : Option String
  error : Option String
  deriving DecidableEq, Repr

/-- The rows by their keys. -/
abbrev IdempotencyTable : Type := InsertionMap String PaymentIdempotency

/-- The column `tx_hash` is unique: the hash is that of the row of another key. -/
def HashTaken (table : IdempotencyTable) (key : String) (txHash : Option String) : Prop :=
  txHash ≠ none ∧ ∃ entry ∈ table.entries, entry.1 ≠ key ∧ entry.2.txHash = txHash

instance (table : IdempotencyTable) (key : String) (txHash : Option String) :
    Decidable (HashTaken table key txHash) :=
  inferInstanceAs (Decidable (_ ∧ _))

/-! ### The service -/

structure IdempotencyResult where
  txHash : String
  isRetry : Bool
  deriving DecidableEq, Repr

structure IdempotencyCheckResult where
  «exists» : Bool
  status : Option IdempotencyStatus
  txHash : Option String
  error : Option String
  isConflict : Option Bool
  deriving DecidableEq, Repr

/-- The errors of the service. -/
inductive IdempotencyFailure
  | error (text : String)
  | conflict (idempotencyKey : String) (stored incoming : PaymentDetails)
      (storedTenant incomingTenant : Option String)
  | authorization (idempotencyKey merchant : String) (tenantId : Option String)
  deriving DecidableEq, Repr

/-- `redactAddress` of the logger. -/
def redactAddress (address : String) : String :=
  if address.length ≤ 16 then address
  else (address.take 8).toString ++ "..." ++ (address.drop (address.length - 8)).toString

/-- The messages of the errors. -/
def IdempotencyFailure.message : IdempotencyFailure → String
  | .error text => text
  | .conflict idempotencyKey _ _ _ _ =>
    "Idempotency conflict: key \"" ++ idempotencyKey ++ "\" already used with different parameters"
  | .authorization idempotencyKey merchant _ =>
    "Authorization denied: merchant " ++ redactAddress merchant ++
      " cannot access idempotency key \"" ++ idempotencyKey ++ "\""

/-- Nothing is checked: the branch of a tenant writes a log line and lets the call pass as well. -/
def authorizeSubscriptionAccess (_merchant : String) (_tenantId : Option String) : Bool := true

def checkIdempotencyKey (table : IdempotencyTable) (params : IdempotencyKeyParams)
    (reply : DbReply) : Except IdempotencyFailure IdempotencyCheckResult :=
  if authorizeSubscriptionAccess params.merchant params.tenantId = false then
    .error (.authorization params.idempotencyKey params.merchant params.tenantId)
  else if reply.outcome ≠ .acknowledged then
    .error (.error ("Failed to check idempotency key: " ++ reply.err))
  else
    match table.get params.idempotencyKey with
    | none => .ok ⟨false, none, none, none, none⟩
    | some existing =>
      if existing.toPaymentDetails ≠ params.toPaymentDetails then
        .ok ⟨true, some existing.status, none, none, some true⟩
      else
        .ok ⟨true, some existing.status, existing.txHash.filter (· ≠ ""),
          existing.error.filter (· ≠ ""), some false⟩

/-- The row that an upsert leaves. -/
def upserted (table : IdempotencyTable) (key : String)
    (update : PaymentIdempotency → PaymentIdempotency) (create : PaymentIdempotency) :
    PaymentIdempotency :=
  (table.get key).elim create update

/-- An upsert by key; `failure` is what the service puts before the text of an error. -/
def upsert (failure key : String) (update : PaymentIdempotency → PaymentIdempotency)
    (create : PaymentIdempotency) (reply : DbReply) : Tx IdempotencyTable IdempotencyFailure Unit :=
  fun table =>
    if reply.outcome = .failed ∨ HashTaken table key (upserted table key update create).txHash then
      (.error (.error (failure ++ reply.err)), table)
    else
      (if reply.outcome = .acknowledged then .ok () else .error (.error (failure ++ reply.err)),
        table.set key (upserted table key update create))

def recordIdempotencySuccess (params : IdempotencyKeyParams) (txHash : String) (reply : DbReply) :
    Tx IdempotencyTable IdempotencyFailure Unit := do
  Tx.failIf (authorizeSubscriptionAccess params.merchant params.tenantId = false)
    (.authorization params.idempotencyKey params.merchant params.tenantId)
  upsert "Failed to record idempotency success: " params.idempotencyKey
    (fun existing => { existing with status := .succeeded, txHash := some txHash, error := none })
    ⟨params.toPaymentDetails, .succeeded, some txHash, none⟩ reply

def recordIdempotencyFailure (params : IdempotencyKeyParams) (error : String) (reply : DbReply) :
    Tx IdempotencyTable IdempotencyFailure Unit := do
  Tx.failIf (authorizeSubscriptionAccess params.merchant params.tenantId = false)
    (.authorization params.idempotencyKey params.merchant params.tenantId)
  upsert "Failed to record idempotency failure: " params.idempotencyKey
    (fun existing => { existing with status := .failed, error := some error })
    ⟨params.toPaymentDetails, .failed, none, some error⟩ reply

def handleIdempotencyCheck (table : IdempotencyTable) (params : IdempotencyKeyParams)
    (reply : DbReply) : Except IdempotencyFailure (Option IdempotencyResult) :=
  match checkIdempotencyKey table params reply with
  | .error failure => .error failure
  | .ok check =>
    if check.exists = false then .ok none
    else if check.isConflict = some true then
      -- both sides of the conflict are filled with the parameters that come in
      .error (.conflict params.idempotencyKey params.toPaymentDetails params.toPaymentDetails
        params.tenantId params.tenantId)
    else
      match check.status, check.txHash with
      | some .succeeded, some txHash => .ok (some ⟨txHash, true⟩)
      | _, _ => .ok none

/-! ### Calls in a row -/

inductive IdempotencyCall
  | check (params : IdempotencyKeyParams) (reply : DbReply)
  | handle (params : IdempotencyKeyParams) (reply : DbReply)
  | success (params : IdempotencyKeyParams) (txHash : String) (reply : DbReply)
  | failure (params : IdempotencyKeyParams) (error : String) (reply : DbReply)
  deriving DecidableEq, Repr

def IdempotencyCall.params : IdempotencyCall → IdempotencyKeyParams
  | .check params _ | .handle params _ | .success params _ _ | .failure params _ _ => params

/-- The table after a call. -/
def callStep (table : IdempotencyTable) : IdempotencyCall → IdempotencyTable
  | .check _ _ | .handle _ _ => table
  | .success params txHash reply => ((recordIdempotencySuccess params txHash reply).run table).2
  | .failure params error reply => ((recordIdempotencyFailure params error reply).run table).2

/-- The result of a call that looks a key up. -/
inductive Answer
  | checked (result : Except IdempotencyFailure IdempotencyCheckResult)
  | handled (result : Except IdempotencyFailure (Option IdempotencyResult))
  deriving DecidableEq, Repr

/-- What a call shows of the table. -/
def callAnswer (table : IdempotencyTable) : IdempotencyCall → List Answer
  | .check params reply => [.checked (checkIdempotencyKey table params reply)]
  | .handle params reply => [.handled (handleIdempotencyCheck table params reply)]
  | .success _ _ _ | .failure _ _ _ => []

/-! ### What a call does -/

variable {table : IdempotencyTable} {key key' : String} {txHash : Option String}
  {params : IdempotencyKeyParams} {result : IdempotencyResult}

theorem hashTaken_iff : HashTaken table key txHash ↔
    txHash ≠ none ∧ ∃ k row, k ≠ key ∧ table.get k = some row ∧ row.txHash = txHash := by
  simp only [HashTaken, Prod.exists, InsertionMap.mem_entries_iff]
  refine and_congr_right fun _ => exists_congr fun k => exists_congr fun row => ?_
  tauto

/-- The row that a success leaves. -/
def successRow (table : IdempotencyTable) (params : IdempotencyKeyParams) (txHash : String) :
    PaymentIdempotency :=
  upserted table params.idempotencyKey
    (fun existing => { existing with status := .succeeded, txHash := some txHash, error := none })
    ⟨params.toPaymentDetails, .succeeded, some txHash, none⟩

/-- The row that a failure leaves. -/
def failureRow (table : IdempotencyTable) (params : IdempotencyKeyParams) (error : String) :
    PaymentIdempotency :=
  upserted table params.idempotencyKey
    (fun existing => { existing with status := .failed, error := some error })
    ⟨params.toPaymentDetails, .failed, none, some error⟩

@[simp] theorem successRow_status (hash : String) :
    (successRow table params hash).status = .succeeded := by
  unfold successRow upserted
  cases table.get params.idempotencyKey <;> rfl

@[simp] theorem successRow_txHash (hash : String) :
    (successRow table params hash).txHash = some hash := by
  unfold successRow upserted
  cases table.get params.idempotencyKey <;> rfl

@[simp] theorem failureRow_status (error : String) :
    (failureRow table params error).status = .failed := by
  unfold failureRow upserted
  cases table.get params.idempotencyKey <;> rfl

@[simp] theorem failureRow_txHash (error : String) :
    (failureRow table params error).txHash =
      (table.get params.idempotencyKey).bind (·.txHash) := by
  unfold failureRow upserted
  cases table.get params.idempotencyKey <;> rfl

theorem successRow_details {existing : PaymentIdempotency} (hash : String)
    (h : table.get params.idempotencyKey = some existing) :
    (successRow table params hash).toPaymentDetails = existing.toPaymentDetails := by
  rw [successRow, upserted, h, Option.elim_some]

theorem successRow_congr {table' : IdempotencyTable} {hash : String}
    (h : table.get params.idempotencyKey = table'.get params.idempotencyKey) :
    successRow table params hash = successRow table' params hash := by
  rw [successRow, successRow, upserted, upserted, h]

theorem failureRow_congr {table' : IdempotencyTable} {error : String}
    (h : table.get params.idempotencyKey = table'.get params.idempotencyKey) :
    failureRow table params error = failureRow table' params error := by
  rw [failureRow, failureRow, upserted, upserted, h]

/-- The row that a call writes for its key, if it writes one. -/
def IdempotencyCall.written (table : IdempotencyTable) :
    IdempotencyCall → Option PaymentIdempotency
  | .check _ _ | .handle _ _ => none
  | .success params txHash reply =>
    if reply.outcome = .failed ∨ HashTaken table params.idempotencyKey (some txHash) then none
    else some (successRow table params txHash)
  | .failure params error reply =>
    if reply.outcome = .failed ∨
      HashTaken table params.idempotencyKey (failureRow table params error).txHash then none
    else some (failureRow table params error)

theorem run_upsert_snd (failure : String) (update : PaymentIdempotency → PaymentIdempotency)
    (create : PaymentIdempotency) (reply : DbReply) :
    ((upsert failure key update create reply).run table).2 =
      if reply.outcome = .failed ∨ HashTaken table key (upserted table key update create).txHash
      then table else table.set key (upserted table key update create) := by
  simp only [upsert, Tx.run]
  split_ifs <;> rfl

theorem callStep_eq (c : IdempotencyCall) : callStep table c =
    (c.written table).elim table (table.set c.params.idempotencyKey) := by
  cases c with
  | check | handle => rfl
  | success params txHash reply =>
    simp only [callStep, recordIdempotencySuccess, Tx.run_bind, authorizeSubscriptionAccess,
      Tx.failIf, Bool.true_eq_false, if_false, Tx.run_pure, IdempotencyCall.written]
    rw [run_upsert_snd, ← successRow, successRow_txHash]
    split_ifs <;> rfl
  | failure params error reply =>
    simp only [callStep, recordIdempotencyFailure, Tx.run_bind, authorizeSubscriptionAccess,
      Tx.failIf, Bool.true_eq_false, if_false, Tx.run_pure, IdempotencyCall.written]
    rw [run_upsert_snd, ← failureRow]
    split_ifs <;> rfl

/-- What a call does to the row of a key. -/
theorem get_callStep (c : IdempotencyCall) : (callStep table c).get key =
    if c.params.idempotencyKey = key then (c.written table).or (table.get key)
    else table.get key := by
  rw [callStep_eq]
  rcases c.written table with _ | row
  · simp
  · rw [Option.elim_some, InsertionMap.get_set, Option.some_or]
    exact if_congr eq_comm rfl rfl

/-- **What a request is told.** A request is told of a payment exactly if the row of its key is
that of a payment like its own, which has succeeded with a transaction hash. -/
theorem handleIdempotencyCheck_eq_some_iff :
    handleIdempotencyCheck table params .done = .ok (some result) ↔
      ∃ row, table.get params.idempotencyKey = some row ∧
        row.toPaymentDetails = params.toPaymentDetails ∧ row.status = .succeeded ∧
        row.txHash = some result.txHash ∧ result.txHash ≠ "" ∧ result.isRetry = true := by
  obtain ⟨txHash, isRetry⟩ := result
  unfold handleIdempotencyCheck checkIdempotencyKey
  rcases table.get params.idempotencyKey with _ | row
  · simp [authorizeSubscriptionAccess, DbReply.done]
  · by_cases hdetails : row.toPaymentDetails = params.toPaymentDetails
    · rcases hhash : row.txHash with _ | h
      · simp [authorizeSubscriptionAccess, DbReply.done, hdetails, hhash]
      · rcases hstatus : row.status with _ | _ | _ <;> by_cases hempty : h = "" <;>
          simp [authorizeSubscriptionAccess, DbReply.done, hdetails, hhash, hstatus, hempty,
            Option.filter] <;> grind
    · simp [authorizeSubscriptionAccess, DbReply.done, hdetails]

/-- The row of the key is that of a payment that has succeeded with this transaction. -/
def SucceededWith (table : IdempotencyTable) (key : String) (row : PaymentIdempotency)
    (txHash : String) : Prop :=
  table.get key = some row ∧ row.status = .succeeded ∧ row.txHash = some txHash

/-- The key has not paid: its row, if there is one, is that of a payment like this one, and that has
not succeeded with a transaction hash. -/
def Unpaid (table : IdempotencyTable) (params : IdempotencyKeyParams) : Prop :=
  ∀ row, table.get params.idempotencyKey = some row →
    row.toPaymentDetails = params.toPaymentDetails ∧
      ∀ hash, row.status = .succeeded → row.txHash = some hash → hash = ""

/-- **When a request is let through.** A request goes on exactly if its key can be looked up and has
not paid. -/
theorem handleIdempotencyCheck_eq_none_iff {reply : DbReply} :
    handleIdempotencyCheck table params reply = .ok none ↔
      reply.outcome = .acknowledged ∧ Unpaid table params := by
  unfold handleIdempotencyCheck checkIdempotencyKey Unpaid
  by_cases hreply : reply.outcome = .acknowledged
  · rcases table.get params.idempotencyKey with _ | row
    · simp [authorizeSubscriptionAccess, hreply]
    · by_cases hdetails : row.toPaymentDetails = params.toPaymentDetails
      · rcases hhash : row.txHash with _ | h
        · simp [authorizeSubscriptionAccess, hreply, hdetails, hhash]
        · rcases hstatus : row.status with _ | _ | _ <;> by_cases hempty : h = "" <;>
            simp [authorizeSubscriptionAccess, hreply, hdetails, hhash, hstatus, hempty,
              Option.filter]
      · simp [authorizeSubscriptionAccess, hreply, hdetails]
  · simp [authorizeSubscriptionAccess, hreply]

/-- No transaction is recorded under two keys. -/
def UniqueHashes (table : IdempotencyTable) : Prop :=
  ∀ k k' row row', table.get k = some row → table.get k' = some row' → row.txHash ≠ none →
    row.txHash = row'.txHash → k = k'

theorem uniqueHashes_empty : UniqueHashes .empty := fun _ _ _ _ h => by simp at h

theorem UniqueHashes.not_hashTaken (h : UniqueHashes table) :
    ¬ HashTaken table key ((table.get key).bind (·.txHash)) := by
  rw [hashTaken_iff]
  rintro ⟨hsome, k, row, hk, hrow, heq⟩
  obtain ⟨existing, hexisting, hhash⟩ : ∃ existing, table.get key = some existing ∧
      existing.txHash = row.txHash := by
    rcases hget : table.get key with _ | existing
    · simp [hget] at hsome
    · exact ⟨existing, rfl, by rw [heq, hget, Option.bind_some]⟩
  exact hk (h k key row existing hrow hexisting (heq ▸ hsome) hhash.symm)

theorem not_hashTaken_of_written {c : IdempotencyCall} {row : PaymentIdempotency}
    (h : c.written table = some row) : ¬ HashTaken table c.params.idempotencyKey row.txHash := by
  cases c with
  | check | handle => cases h
  | success params txHash =>
    simp only [IdempotencyCall.written] at h
    split_ifs at h with htaken
    rw [← Option.some.inj h, successRow_txHash]
    exact fun hrow => htaken (.inr hrow)
  | failure =>
    simp only [IdempotencyCall.written] at h
    split_ifs at h with htaken
    rw [← Option.some.inj h]
    exact fun hrow => htaken (.inr hrow)

theorem UniqueHashes.callStep (h : UniqueHashes table) (c : IdempotencyCall) :
    UniqueHashes (callStep table c) := by
  intro k k' row row' hrow hrow' hsome heq
  rw [get_callStep] at hrow hrow'
  rcases hwritten : c.written table with _ | new
  · simp only [hwritten, Option.none_or, ite_self] at hrow hrow'
    exact h k k' row row' hrow hrow' hsome heq
  · have hfree := not_hashTaken_of_written hwritten
    rw [hashTaken_iff] at hfree
    simp only [hwritten, Option.some_or] at hrow hrow'
    split_ifs at hrow hrow' with hk hk' hk'
    · exact hk.symm.trans hk'
    · obtain rfl := Option.some.inj hrow
      exact absurd ⟨hsome, k', row', Ne.symm hk', hrow', heq.symm⟩ hfree
    · obtain rfl := Option.some.inj hrow'
      exact absurd ⟨heq ▸ hsome, k, row, Ne.symm hk, hrow, heq⟩ hfree
    · exact h k k' row row' hrow hrow' hsome heq

end SorobanPay.IdempotencyService
