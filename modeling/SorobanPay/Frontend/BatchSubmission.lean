import SorobanPay.Foundation.Grouping
import SorobanPay.Frontend.NativeValues

/-!
# The submission of a batch of payments

`buildAndSubmitBatchExecutePayment` of `lib/transaction_builder.ts` collects payments for a list of
entries. An entry with an address that is not valid has an error at once, an entry without a token
has a transaction of its own at once, and the others are put into groups by merchant and token.
Then one transaction is submitted for each group, and its simulation says whom it charges.

Entries are taken with their positions in the list, which the code does not look at; a result says
which position it is for. The replies to one transaction are `SubmitRpc`: the calls are retried, and
what counts is what comes of them in the end. A call that throws is replied to by the text that the
code makes of what is thrown.

## Main definitions

* `assertValidGAddress`, `assertValidCAddress`: the checks of addresses.
* `batchOutcome`, `submitAtomicBatchPayment`: the transaction for a group.
* `executePaymentOutcome`: the transaction for one entry.
* `buildAndSubmitBatchExecutePayment`: the function.

## Main results

* `merchant_eq_of_entryKind`: a group has one merchant.
-/

set_option autoImplicit false

namespace SorobanPay.Frontend

open Foundation WebhookNotifier

/-! ### Addresses -/

/-- The texts `/^c[A-Z2-7]{55}$/` of a first character, with white space around them. -/
def isValidAddress (first : Char) (addr : String) : Bool :=
  match trim addr.toList with
  | [] => false
  | c :: cs => c = first && cs.length = 55 &&
      cs.all fun c => ('A' ≤ c && c ≤ 'Z') || ('2' ≤ c && c ≤ '7')

/-- `assertValidGAddress`. -/
def assertValidGAddress (addr label : String) : Except String String :=
  let normalized := String.ofList (trim addr.toList)
  if isValidAddress 'G' normalized then .ok normalized
  else .error ("Invalid " ++ label ++ " address: " ++ addr)

/-- `assertValidCAddress`. -/
def assertValidCAddress (addr label : String) : Except String String :=
  let normalized := String.ofList (trim addr.toList)
  if isValidAddress 'C' normalized then .ok normalized
  else .error ("Invalid " ++ label ++ " address: " ++ addr)

theorem not_mem_of_isValidAddress {first c : Char} {addr : String}
    (h : isValidAddress first addr = true) (htrim : isTrimmed c = false) (hfirst : c ≠ first)
    (hc : (('A' ≤ c && c ≤ 'Z') || ('2' ≤ c && c ≤ '7')) = false) : c ∉ addr.toList := by
  intro hmem
  have hmem := mem_trim hmem htrim
  unfold isValidAddress at h
  rcases htext : trim addr.toList with _ | ⟨c', cs⟩
  · rw [htext] at hmem
    cases hmem
  · rw [htext] at h hmem
    simp only [Bool.and_eq_true, decide_eq_true_eq] at h
    obtain ⟨⟨rfl, -⟩, hall⟩ := h
    rcases List.mem_cons.1 hmem with rfl | hmem
    · exact hfirst rfl
    · rw [List.all_eq_true.1 hall c hmem] at hc
      cases hc

/-- No null character is in an address that is valid. -/
theorem null_not_mem_of_assertValidGAddress {addr label normalized : String}
    (h : assertValidGAddress addr label = .ok normalized) : '\x00' ∉ addr.toList := by
  unfold assertValidGAddress at h
  dsimp only at h
  split_ifs at h with hvalid
  intro hmem
  refine not_mem_of_isValidAddress hvalid (c := '\x00') ?_ ?_ ?_ ?_
  · decide
  · decide
  · decide
  · rw [String.toList_ofList]
    exact mem_trim hmem (by decide)

/-! ### One transaction -/

/-- The hash of a transaction, a text that is not empty. -/
abbrev TxId : Type := {text : String // text ≠ ""}

/-- The replies to one transaction: to `getAccount`, to the encoding of the arguments, to the
simulation, to the preparation, to the signing, to `sendTransaction`, and to the polling until it is
confirmed. A simulation fails with an error or returns a value, if it can be decoded; a transaction
that is sent is refused with an XDR or has a hash. -/
structure SubmitRpc (N : Type) where
  account : Except String Unit
  build : Except String Unit
  simulation : Except String (Except (Option String) (Option (Option (Native N))))
  prepared : Except String Unit
  signed : Except String Unit
  sent : Except String (Except (Option String) TxId)
  confirmed : Except String Unit

variable {N : Type} (J : JsNumber N)

/-- One pair of the value that `batch_execute_payment` returns. -/
def decodePair (pair : Native N) : Option (String × Bool) :=
  let cells :=
    match pair with
    | .array cells => cells
    | _ => []
  let subscriber :=
    match cells with
    | [] => some ""
    | cell :: _ => cell.toText J
  let success :=
    match cells with
    | _ :: cell :: _ => cell.truthy J
    | _ => false
  subscriber.map fun text => (text, success)

/-- `decodeBatchOutcomes`. -/
def decodeBatchOutcomes (retval : Option (Option (Native N))) : List (String × Bool) :=
  match retval with
  | some (some (.array native)) =>
    ((native.mapM (decodePair J)).getD []).filter fun o => o.1 ≠ ""
  | _ => []

/-- The hash of a transaction that has been sent. -/
def sentHash (prefixText : String) (sent : Except String (Except (Option String) TxId)) :
    Except String TxId :=
  match sent with
  | .error msg => .error (prefixText ++ msg)
  | .ok (.error xdr) => .error ("Transaction submission failed: " ++ xdr.getD "unknown error")
  | .ok (.ok hash) => .ok hash

/-- What comes of the transaction for a group: an error for all its entries, or the hash with the
outcomes of the simulation. -/
def batchOutcome (rpc : SubmitRpc N) : Except String (TxId × List (String × Bool)) := do
  rpc.account
  rpc.build
  let simResult ← rpc.simulation
  let retval ←
    match simResult with
    | .error msg => .error (msg.getD "batch_execute_payment simulation failed")
    | .ok retval => .ok retval
  let outcomes := decodeBatchOutcomes J retval
  rpc.prepared.mapError ("Transaction preparation failed: " ++ ·)
  rpc.signed
  let hash ← sentHash "Transaction submission failed: " rpc.sent
  rpc.confirmed
  return (hash, outcomes)

/-! ### Results -/

/-- `BatchPaymentEntry`. -/
structure BatchPaymentEntry where
  subscriber : String
  merchant : String
  token : Option String
  deriving DecidableEq, Repr

/-- An entry with its position. -/
abbrev Numbered : Type := BatchPaymentEntry × ℕ

/-- The result for an entry. -/
structure EntryResult where
  position : ℕ
  subscriber : String
  merchant : String
  txHash : Option String
  error : Option String
  deriving DecidableEq, Repr

/-- The result of an entry that failed, under a merchant. -/
def failed (merchant message : String) (e : Numbered) : EntryResult :=
  ⟨e.2, e.1.subscriber, merchant, none, some message⟩

/-- The result of an entry that succeeded, under a merchant. -/
def succeeded (merchant : String) (hash : TxId) (e : Numbered) : EntryResult :=
  ⟨e.2, e.1.subscriber, merchant, some hash.val, none⟩

/-- The error of an entry that the simulation does not charge. -/
def skippedOnChain : String :=
  "Skipped on-chain: subscription not due, not found, or insufficient allowance/balance."

/-- `submitAtomicBatchPayment`. -/
def submitAtomicBatchPayment (rpc : SubmitRpc N) (entries : List Numbered) : List EntryResult :=
  let merchant := (entries.head?.map fun e => e.1.merchant).getD ""
  match batchOutcome J rpc with
  | .error message => entries.map (failed merchant message)
  | .ok (txHash, outcomes) =>
    let outcomeBySubscriber := InsertionMap.ofList outcomes
    entries.map fun e =>
      let success := (outcomeBySubscriber.get e.1.subscriber).getD false
      if success then succeeded merchant txHash e else failed merchant skippedOnChain e

/-- `buildAndSubmitExecutePayment`: the hash, or the error that is thrown. -/
def executePaymentOutcome (entry : BatchPaymentEntry) (rpc : SubmitRpc N) : Except String TxId := do
  let _ ← assertValidGAddress entry.subscriber "subscriber"
  let _ ← assertValidGAddress entry.merchant "merchant"
  rpc.account
  rpc.build
  rpc.prepared.mapError ("Transaction preparation failed after retries: " ++ ·)
  rpc.signed
  let hash ← sentHash "Transaction submission failed after retries: " rpc.sent
  rpc.confirmed
  return hash

/-! ### The batch -/

/-- What is done with an entry. -/
inductive EntryKind
  | invalid (message : String)
  | legacy
  | atomic (groupKey : String)
  deriving DecidableEq, Repr

/-- The checks of an entry. -/
def entryKind (entry : BatchPaymentEntry) : EntryKind :=
  match assertValidGAddress entry.subscriber "subscriber",
      assertValidGAddress entry.merchant "merchant" with
  | .error message, _ => .invalid message
  | .ok _, .error message => .invalid message
  | .ok _, .ok _ =>
    match entry.token.filter (· ≠ "") with
    | none => .legacy
    | some token =>
      match assertValidCAddress token "token" with
      | .error message => .invalid message
      | .ok _ => .atomic (entry.merchant ++ "\x00" ++ token)

/-- The result of an entry that is in no group. -/
def immediateResult (legacyRpc : ℕ → SubmitRpc N) (e : Numbered) : Option EntryResult :=
  match entryKind e.1 with
  | .invalid message => some (failed e.1.merchant message e)
  | .legacy =>
    match executePaymentOutcome e.1 (legacyRpc e.2) with
    | .ok hash => some (succeeded e.1.merchant hash e)
    | .error message => some (failed e.1.merchant message e)
  | .atomic _ => none

/-- The body of the loop over the entries: the results so far, and the groups. -/
def processEntry (legacyRpc : ℕ → SubmitRpc N)
    (s : List EntryResult × InsertionMap String (List Numbered)) (e : Numbered) :
    List EntryResult × InsertionMap String (List Numbered) :=
  match entryKind e.1 with
  | .atomic groupKey => (s.1, s.2.push groupKey e)
  | _ => (s.1 ++ (immediateResult legacyRpc e).toList, s.2)

/-- `BatchExecutePaymentResult`. -/
structure BatchReport where
  results : List EntryResult
  successCount : ℕ
  failureCount : ℕ
  deriving DecidableEq, Repr

/-- `buildAndSubmitBatchExecutePayment`. The transactions of entries are replied to by position,
those of groups by key. -/
def buildAndSubmitBatchExecutePayment (legacyRpc : ℕ → SubmitRpc N)
    (groupRpc : String → SubmitRpc N) (entries : List BatchPaymentEntry) : BatchReport :=
  if entries = [] then ⟨[], 0, 0⟩
  else
    let (output, atomicGroups) :=
      entries.zipIdx.foldl (processEntry legacyRpc) ([], InsertionMap.empty)
    let output := output ++ atomicGroups.entries.flatMap fun group =>
      submitAtomicBatchPayment J (groupRpc group.1) group.2
    { results := output
      successCount := (output.filter fun r => r.txHash.getD "" ≠ "").length
      failureCount := (output.filter fun r => r.error.getD "" ≠ "").length }

/-! ### Kinds of entries -/

/-- An entry of a group has valid addresses, and the key of its merchant and its token. -/
theorem exists_of_entryKind_atomic {entry : BatchPaymentEntry} {groupKey : String}
    (h : entryKind entry = .atomic groupKey) :
    ∃ token subscriber merchant, groupKey = entry.merchant ++ "\x00" ++ token ∧
      assertValidGAddress entry.subscriber "subscriber" = .ok subscriber ∧
        assertValidGAddress entry.merchant "merchant" = .ok merchant := by
  unfold entryKind at h
  split at h
  · cases h
  · cases h
  · rename_i subscriber merchant hsubscriber hmerchant
    split at h
    · cases h
    · rename_i token htoken
      split at h
      · cases h
      · obtain rfl := EntryKind.atomic.inj h
        exact ⟨token, subscriber, merchant, rfl, hsubscriber, hmerchant⟩

/-- The entries of a group have the same merchant. -/
theorem merchant_eq_of_entryKind {entry entry' : BatchPaymentEntry} {groupKey : String}
    (h : entryKind entry = .atomic groupKey) (h' : entryKind entry' = .atomic groupKey) :
    entry.merchant = entry'.merchant := by
  obtain ⟨token, -, merchant, hkey, -, hvalid⟩ := exists_of_entryKind_atomic h
  obtain ⟨token', -, merchant', hkey', -, hvalid'⟩ := exists_of_entryKind_atomic h'
  -- the merchant is what comes before the null character
  have hbefore : ∀ {m t : String}, '\x00' ∉ m.toList →
      (m ++ "\x00" ++ t).toList.takeWhile (· ≠ '\x00') = m.toList := by
    intro m t hm
    have hother : ∀ c ∈ m.toList, decide (c ≠ '\x00') = true := by
      intro c hc
      simp only [ne_eq, decide_eq_true_eq]
      rintro rfl
      exact hm hc
    rw [String.toList_append, String.toList_append, List.append_assoc,
      List.takeWhile_append_of_pos hother]
    simp
  have htexts := congrArg (fun key : String => key.toList.takeWhile (· ≠ '\x00'))
    (hkey.symm.trans hkey')
  rw [hbefore (null_not_mem_of_assertValidGAddress hvalid),
    hbefore (null_not_mem_of_assertValidGAddress hvalid')] at htexts
  exact String.toList_inj.1 htexts

end SorobanPay.Frontend
