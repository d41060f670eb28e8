import Mathlib.Data.Fintype.EquivFin
import SorobanPay.Backend.IdempotencyService
import SorobanPay.Foundation.Interleaving

/-!
# Submitting a payment under an idempotency key

`submitExecutePayment` asks the idempotency service whether the key has paid already, and if not
builds a transaction on the sequence number of the signing account, simulates it, sends it, polls
for it, and records what has become of it. At each `await` other calls may take their turn, and the
network may do what it likes: it may take a transaction in and lose the reply, and a transaction may
be confirmed long after the last poll.

The key is looked up at the beginning and its row written at the end, so that two calls under way
at once both send a transaction, and a call whose outcome is unknown is recorded as failed and may
be repeated. `at_most_one_payment` says when at most one transaction that can succeed is sent all
the same: as long as no call is let through while another one may still send, or while a transaction
that has been sent may still succeed. `exists_second_payment` says that each such call can end in a
second payment.

## Main definitions

* `Ledger`, `Ledger.CanSucceed`: the network, and the transactions on it that can succeed.
* `Call`, `submitExecutePayment`, `callTurn`: a call between two awaits.
* `Input`, `paymentStep`: the calls under one key.
* `Quiet`: nothing is let through that should not be.

## Main results

* `at_most_one_payment`: when at most one transaction is sent that can succeed.
* `exists_second_payment`: otherwise there may be a second one.
-/

set_option autoImplicit false

namespace SorobanPay.ExecutePaymentHelper

open Foundation IdempotencyService

/-! ### The network -/

/-- A transaction that calls `execute_payment`. -/
structure PaymentTx where
  hash : String
  sequence : ℕ
  subscriber : String
  merchant : String
  deriving DecidableEq, Repr

/-- The sequence number of the signing account, and the transactions of the key that the network has
taken in, applied with success, and applied with failure or dropped. -/
structure Ledger where
  sequence : ℕ
  sent : List PaymentTx
  succeeded : List PaymentTx
  failed : List PaymentTx
  deriving DecidableEq, Repr

namespace Ledger

variable {ledger : Ledger} {tx tx' : PaymentTx}

/-- The transaction has succeeded, or it may still do so: it has not failed, and its sequence
number has not been used up. -/
def CanSucceed (ledger : Ledger) (tx : PaymentTx) : Prop :=
  tx ∈ ledger.succeeded ∨
    tx ∈ ledger.sent ∧ tx ∉ ledger.failed ∧ ledger.sequence < tx.sequence

instance : DecidablePred ledger.CanSucceed := fun _ => inferInstanceAs (Decidable (_ ∨ _))

/-- The network takes a transaction in. -/
def take (ledger : Ledger) (tx : PaymentTx) : Ledger :=
  { ledger with sent := if tx ∈ ledger.sent then ledger.sent else ledger.sent ++ [tx] }

/-- The transaction is one that the network can apply next. -/
def IsNext (ledger : Ledger) (tx : PaymentTx) : Prop :=
  tx ∈ ledger.sent ∧ tx ∉ ledger.failed ∧ tx.sequence = ledger.sequence + 1

instance : DecidablePred ledger.IsNext := fun _ => inferInstanceAs (Decidable (_ ∧ _))

/-- What happens on the network: a transaction is applied, with success or failure, or dropped, or
the account makes another one. -/
inductive Event
  | succeeds (tx : PaymentTx)
  | fails (tx : PaymentTx)
  | dropped (tx : PaymentTx)
  | otherTransaction
  deriving DecidableEq, Repr

def event (ledger : Ledger) : Event → Ledger
  | .succeeds tx =>
    if ledger.IsNext tx then
      { ledger with sequence := tx.sequence, succeeded := ledger.succeeded ++ [tx] }
    else ledger
  | .fails tx =>
    if ledger.IsNext tx then
      { ledger with sequence := tx.sequence, failed := ledger.failed ++ [tx] }
    else ledger
  | .dropped tx =>
    if tx ∈ ledger.sent ∧ tx ∉ ledger.succeeded then
      { ledger with failed := ledger.failed ++ [tx] }
    else ledger
  | .otherTransaction => { ledger with sequence := ledger.sequence + 1 }

/-- At most one transaction can succeed. -/
def AtMostOne (ledger : Ledger) : Prop :=
  ∀ tx tx', ledger.CanSucceed tx → ledger.CanSucceed tx' → tx = tx'

/-- What the network takes in can succeed if it is still in time. -/
theorem canSucceed_take (h : (ledger.take tx).CanSucceed tx') :
    ledger.CanSucceed tx' ∨ tx' = tx ∧ tx ∉ ledger.failed ∧ ledger.sequence < tx.sequence := by
  unfold take CanSucceed at h
  split_ifs at h with hmem
  · exact .inl h
  · rcases h with h | ⟨hsent, hfailed, hlt⟩
    · exact .inl (.inl h)
    · rcases List.mem_append.1 hsent with hsent | hsent
      · exact .inl (.inr ⟨hsent, hfailed, hlt⟩)
      · obtain rfl := List.mem_singleton.1 hsent
        exact .inr ⟨rfl, hfailed, hlt⟩

theorem CanSucceed.take (h : ledger.CanSucceed tx) : (ledger.take tx').CanSucceed tx := by
  unfold Ledger.take
  refine h.imp id fun ⟨hsent, hfailed, hlt⟩ => ⟨?_, hfailed, hlt⟩
  split_ifs
  · exact hsent
  · exact List.mem_append_left _ hsent

/-- A transaction that is in time can succeed once the network has taken it in. -/
theorem canSucceed_take_self (hfailed : tx ∉ ledger.failed) (hlt : ledger.sequence < tx.sequence) :
    (ledger.take tx).CanSucceed tx := by
  refine .inr ⟨?_, hfailed, hlt⟩
  unfold Ledger.take
  split_ifs with hmem
  · exact hmem
  · exact List.mem_append_right _ (List.mem_singleton_self tx)

theorem sequence_le_event (e : Event) : ledger.sequence ≤ (ledger.event e).sequence := by
  cases e with
  | succeeds tx | fails tx =>
    simp only [event]
    split_ifs with hnext
    · exact hnext.2.2 ▸ Nat.le_succ ledger.sequence
    · exact Nat.le_refl _
  | dropped tx =>
    simp only [event]
    split_ifs <;> exact Nat.le_refl _
  | otherTransaction => exact Nat.le_succ _

theorem mem_failed_event {e : Event} (h : tx ∈ ledger.failed) : tx ∈ (ledger.event e).failed := by
  cases e with
  | succeeds | fails | dropped =>
    simp only [event]
    split_ifs <;> simp [h]
  | otherTransaction => exact h

theorem sent_event (e : Event) : (ledger.event e).sent = ledger.sent := by
  cases e with
  | succeeds | fails | dropped =>
    simp only [event]
    split_ifs <;> rfl
  | otherTransaction => rfl

/-- No transaction can succeed again. -/
theorem canSucceed_of_event {e : Event} (h : (ledger.event e).CanSucceed tx) :
    ledger.CanSucceed tx := by
  rcases h with h | ⟨hsent, hfailed, hlt⟩
  · cases e with
    | succeeds tx' =>
      simp only [event] at h
      split_ifs at h with hnext
      · obtain ⟨hsent, hfailed, hsequence⟩ := hnext
        rcases List.mem_append.1 h with h | h
        · exact .inl h
        · obtain rfl := List.mem_singleton.1 h
          exact .inr ⟨hsent, hfailed, by omega⟩
      · exact .inl h
    | fails | dropped =>
      simp only [event] at h
      split_ifs at h <;> exact .inl h
    | otherTransaction => exact .inl h
  · rw [sent_event] at hsent
    exact .inr ⟨hsent, fun hmem => hfailed (mem_failed_event hmem),
      (sequence_le_event e).trans_lt hlt⟩

end Ledger

/-! ### One call -/

structure ExecutePaymentParams where
  subscriber : String
  merchant : String
  idempotencyKey : Option String
  deriving DecidableEq, Repr

structure ExecutePaymentResult where
  txHash : String
  isRetry : Bool
  deriving DecidableEq, Repr

/-- What `submitExecutePayment` throws: an error of its own, of the idempotency service, or of the
network. -/
inductive ExecutePaymentError
  | helper (message : String)
  | idempotency (failure : IdempotencyFailure)
  | network (message : String)
  deriving DecidableEq, Repr

/-- The idempotency key, if one is used: the empty text counts as none. -/
def ExecutePaymentParams.key (params : ExecutePaymentParams) : Option String :=
  params.idempotencyKey.filter (· ≠ "")

def ExecutePaymentParams.idempotencyParams (params : ExecutePaymentParams) (key : String) :
    IdempotencyKeyParams where
  idempotencyKey := key
  subscriber := params.subscriber
  merchant := params.merchant
  token := "token_placeholder"
  amount := "amount_placeholder"
  tenantId := none

/-- What a call waits for. -/
inductive Call
  | check
  | getAccount
  | simulate (sequence : ℕ)
  | send (tx : PaymentTx)
  | poll (txHash : String) (polls : ℕ)
  | recordSuccess (txHash : String)
  | recordFailure (message : String)
  | ended (result : Except ExecutePaymentError ExecutePaymentResult)
  deriving DecidableEq, Repr

/-- The answer of `simulateTransaction`; a transaction that is prepared has its hash. -/
inductive SimulateResult
  | thrown (msg : String)
  | error (detail : Option String)
  | prepared (hash : String)
  deriving DecidableEq, Repr

/-- The answer of `sendTransaction`. The request, or the reply to it, may be lost; the network may
refuse the transaction (status `ERROR`), take it in, or neither (`TRY_AGAIN_LATER`). -/
inductive SendResult
  | lost (msg : String)
  | replyLost (msg : String)
  | refused (errorResult : Option String)
  | notQueued
  | accepted
  deriving DecidableEq, Repr

/-- The network has taken the transaction in. -/
def SendResult.Reached : SendResult → Prop
  | .lost _ | .refused _ | .notQueued => False
  | .replyLost _ | .accepted => True

instance : DecidablePred SendResult.Reached
  | .lost _ | .refused _ | .notQueued => instDecidableFalse
  | .replyLost _ | .accepted => instDecidableTrue

/-- The answer of `getTransaction`: what has become of the transaction is seen, or not yet. -/
inductive StatusResult
  | thrown (msg : String)
  | notFound
  | seen
  deriving DecidableEq, Repr

/-- What a call is answered. -/
inductive Reply
  | db (reply : DbReply)
  | account (err : Option String)
  | simulated (result : SimulateResult)
  | sent (result : SendResult)
  | status (result : StatusResult)
  deriving DecidableEq, Repr

/-- The idempotency table and the network. -/
structure World where
  table : IdempotencyTable
  ledger : Ledger

/-- The call throws, and records the failure first if there is a key. -/
def ExecutePaymentParams.fail (params : ExecutePaymentParams) (message : String) : Call :=
  if params.key = none then .ended (.error (.helper message)) else .recordFailure message

/-- `submitExecutePayment` up to its first await. `addressError` is what the constructor of
`Address` throws for a text. -/
def submitExecutePayment (addressError : String → Option String) (params : ExecutePaymentParams) :
    Call :=
  if params.subscriber = "" ∨ params.merchant = "" then
    .ended (.error (.helper "subscriber and merchant are required for execute_payment"))
  else
    match (addressError params.subscriber).or (addressError params.merchant) with
    | some msg => .ended (.error (.helper ("Invalid execute_payment addresses: " ++ msg)))
    | none => if params.key = none then .getAccount else .check

/-- The idempotency check has been answered. -/
def afterCheck : Except IdempotencyFailure (Option IdempotencyResult) → Call
  | .ok (some cachedResult) => .ended (.ok ⟨cachedResult.txHash, cachedResult.isRetry⟩)
  | .ok none => .getAccount
  | .error (.conflict idempotencyKey stored incoming tenant tenant') =>
    .ended (.error (.helper ("Idempotency conflict: " ++
      (IdempotencyFailure.conflict idempotencyKey stored incoming tenant tenant').message)))
  | .error failure => .ended (.error (.idempotency failure))

/-- The largest number of polls. -/
def maxPolls : ℕ := 20

/-- A poll has been answered. -/
def afterPoll (params : ExecutePaymentParams) (ledger : Ledger) (txHash : String) (polls : ℕ) :
    StatusResult → Call
  | .thrown msg => .ended (.error (.network msg))
  | result =>
    if result = .seen ∧ ∃ tx ∈ ledger.succeeded, tx.hash = txHash then
      if params.key = none then .ended (.ok ⟨txHash, false⟩) else .recordSuccess txHash
    else if result = .seen ∧ ∃ tx ∈ ledger.failed, tx.hash = txHash then
      params.fail ("Transaction failed on-chain: " ++ txHash)
    else if polls + 1 < maxPolls then .poll txHash (polls + 1)
    else params.fail ("Transaction " ++ txHash ++ " not confirmed after 30 s")

/-- A call goes on to its next await. -/
def callTurn (params : ExecutePaymentParams) (w : World) : Call → Reply → World × Call
  | .check, .db reply =>
    (w, afterCheck
      (handleIdempotencyCheck w.table (params.idempotencyParams (params.key.getD "")) reply))
  | .getAccount, .account err =>
    (w, err.elim (.simulate w.ledger.sequence) fun msg =>
      .ended (.error (.helper ("Failed to fetch signing account: " ++ msg))))
  | .simulate sequence, .simulated result =>
    (w, match result with
      | .thrown msg => params.fail ("Simulation failed: " ++ msg)
      | .error detail => params.fail
          ("Simulation failed: " ++ (detail.filter (· ≠ "")).getD "unknown simulation error")
      | .prepared hash => .send ⟨hash, sequence + 1, params.subscriber, params.merchant⟩)
  | .send tx, .sent result =>
    ({ w with ledger := if result.Reached then w.ledger.take tx else w.ledger },
      match result with
      | .lost msg | .replyLost msg => params.fail ("Send failed: " ++ msg)
      | .refused errorResult => params.fail ("Send failed: " ++ errorResult.getD "unknown error")
      | .notQueued | .accepted => .poll tx.hash 0)
  | .poll txHash polls, .status result => (w, afterPoll params w.ledger txHash polls result)
  | .recordSuccess txHash, .db reply =>
    -- what the recording throws is ignored
    ({ w with table := ((recordIdempotencySuccess
        (params.idempotencyParams (params.key.getD "")) txHash reply).run w.table).2 },
      .ended (.ok ⟨txHash, false⟩))
  | .recordFailure message, .db reply =>
    ({ w with table := ((recordIdempotencyFailure
        (params.idempotencyParams (params.key.getD "")) message reply).run w.table).2 },
      .ended (.error (.helper message)))
  | call, _ => (w, call)

/-! ### The calls under one key -/

/-- What can happen next: a request is made, a call is answered, or the network moves on. -/
inductive Input
  | submit
  | answer (i : ℕ) (reply : Reply)
  | network (e : Ledger.Event)
  deriving DecidableEq, Repr

/-- One step of the calls with the same parameters. -/
def paymentStep (addressError : String → Option String) (params : ExecutePaymentParams)
    (p : Pool World Call) : Input → Pool World Call
  | .submit => p.start (submitExecutePayment addressError params)
  | .answer i reply => p.resume (callTurn params) i reply
  | .network e => p.act fun w => { w with ledger := w.ledger.event e }

/-- Nothing has been sent under the key. -/
def PaymentStart (p : Pool World Call) : Prop :=
  p.calls = [] ∧ p.shared.ledger.sent = [] ∧ p.shared.ledger.succeeded = []

/-! ### What a call may still send -/

/-- The call may still send a transaction that can succeed. -/
def Call.MaySend (ledger : Ledger) : Call → Prop
  | .getAccount => True
  | .simulate sequence => ledger.sequence ≤ sequence
  | .send tx => tx ∉ ledger.failed ∧ ledger.sequence < tx.sequence
  | _ => False

variable {params : ExecutePaymentParams} {addressError : String → Option String} {w : World}
  {call : Call} {ledger : Ledger} {tx : PaymentTx}

theorem not_maySend_fail (message : String) : ¬ (params.fail message).MaySend ledger := by
  unfold ExecutePaymentParams.fail
  split_ifs <;> exact id

theorem not_maySend_afterPoll (txHash : String) (polls : ℕ) (result : StatusResult) :
    ¬ (afterPoll params w.ledger txHash polls result).MaySend ledger := by
  cases result with
  | thrown => exact id
  | notFound | seen =>
    simp only [afterPoll]
    split_ifs <;> first | exact id | exact not_maySend_fail _

theorem not_maySend_submit (hkey : params.key ≠ none) :
    ¬ (submitExecutePayment addressError params).MaySend ledger := by
  unfold submitExecutePayment
  rw [if_neg hkey]
  cases (addressError params.subscriber).or (addressError params.merchant) <;>
    split_ifs <;> exact id

theorem maySend_take : call.MaySend (ledger.take tx) ↔ call.MaySend ledger := by
  cases call <;> exact Iff.rfl

theorem maySend_of_event {e : Ledger.Event} (h : call.MaySend (ledger.event e)) :
    call.MaySend ledger := by
  cases call with
  | getAccount => trivial
  | simulate sequence => exact (Ledger.sequence_le_event e).trans h
  | send tx =>
    exact ⟨fun hfailed => h.1 (Ledger.mem_failed_event hfailed),
      (Ledger.sequence_le_event e).trans_lt h.2⟩
  | check | poll | recordSuccess | recordFailure | ended => exact h

/-- The answer to its check lets the call through. -/
def LetThrough (params : ExecutePaymentParams) (table : IdempotencyTable) : Reply → Prop
  | .db reply => reply.outcome = .acknowledged ∧
      Unpaid table (params.idempotencyParams (params.key.getD ""))
  | _ => False

/-- **What a turn does.** Either it leaves the network alone, and the call may send afterwards only
if it might before or its check lets it through; or the call sends its transaction, and never sends
again. -/
theorem callTurn_cases (params : ExecutePaymentParams) (w : World) (call : Call) (reply : Reply) :
    ((callTurn params w call reply).1.ledger = w.ledger ∧
      ((callTurn params w call reply).2.MaySend w.ledger →
        call.MaySend w.ledger ∨ call = .check ∧ LetThrough params w.table reply)) ∨
    ∃ tx, call = .send tx ∧ (callTurn params w call reply).1.ledger = w.ledger.take tx ∧
      ∀ ledger, ¬ (callTurn params w call reply).2.MaySend ledger := by
  cases call with
  | check =>
    refine .inl ?_
    cases reply with
    | db reply =>
      refine ⟨rfl, fun h => .inr ⟨rfl, ?_⟩⟩
      simp only [callTurn] at h
      rcases hcheck : handleIdempotencyCheck w.table
        (params.idempotencyParams (params.key.getD "")) reply with failure | _ | result
      · rw [hcheck] at h
        cases failure <;> exact h.elim
      · exact handleIdempotencyCheck_eq_none_iff.1 hcheck
      · rw [hcheck] at h
        exact h.elim
    | account | simulated | sent | status => exact ⟨rfl, fun h => h.elim⟩
  | getAccount => exact .inl ⟨by cases reply <;> rfl, fun _ => .inl trivial⟩
  | simulate sequence =>
    refine .inl ⟨by cases reply <;> rfl, fun h => .inl ?_⟩
    cases reply with
    | simulated result =>
      cases result with
      | prepared hash => exact Nat.le_of_lt_succ h.2
      | thrown | error => exact absurd h (not_maySend_fail _)
    | db | account | sent | status => exact h
  | send tx =>
    cases reply with
    | sent result =>
      by_cases hreached : result.Reached
      · refine .inr ⟨tx, rfl, by simp [callTurn, hreached], fun ledger => ?_⟩
        cases result with
        | replyLost | lost | refused => exact not_maySend_fail _
        | accepted | notQueued => exact id
      · refine .inl ⟨by simp [callTurn, hreached], fun h => ?_⟩
        cases result with
        | replyLost | lost | refused => exact absurd h (not_maySend_fail _)
        | accepted | notQueued => exact h.elim
    | db | account | simulated | status => exact .inl ⟨rfl, fun h => .inl h⟩
  | poll txHash polls =>
    refine .inl ?_
    cases reply with
    | status result => exact ⟨rfl, fun h => absurd h (not_maySend_afterPoll _ _ _)⟩
    | db | account | simulated | sent => exact ⟨rfl, fun h => .inl h⟩
  | recordSuccess | recordFailure =>
    cases reply <;> exact .inl ⟨rfl, fun h => h.elim⟩
  | ended result => exact .inl ⟨by cases reply <;> rfl, fun h => .inl (by cases reply <;> exact h)⟩

/-! ### At most one payment -/

/-- No other call may still send, and no transaction can succeed. -/
def Undisturbed (p : Pool World Call) (i : ℕ) : Prop :=
  (∀ (j : ℕ) (call : Call), j ≠ i → p.calls[j]? = some call →
    ¬ call.MaySend p.shared.ledger) ∧
  ∀ tx, ¬ p.shared.ledger.CanSucceed tx

/-- A call whose check lets it through is undisturbed. -/
def Quiet (params : ExecutePaymentParams) (p : Pool World Call) : Input → Prop
  | .answer i reply =>
    p.calls[i]? = some .check → LetThrough params p.shared.table reply → Undisturbed p i
  | .submit | .network _ => True

/-- At most one transaction can succeed; it and the calls that may still send exclude each other. -/
abbrev OneSender (p : Pool World Call) : Prop :=
  p.Holds (fun w => w.ledger.AtMostOne)
    (fun w call => call.MaySend w.ledger → ∀ tx, ¬ w.ledger.CanSucceed tx)
    fun w call call' => ¬ (call.MaySend w.ledger ∧ call'.MaySend w.ledger)

theorem oneSender_paymentStep (hkey : params.key ≠ none) {p : Pool World Call} {input : Input}
    (h : OneSender p) (hquiet : Quiet params p input) :
    OneSender (paymentStep addressError params p input) := by
  cases input with
  | submit =>
    have hnew := @not_maySend_submit params addressError p.shared.ledger hkey
    exact h.start (fun hmay => absurd hmay hnew)
      fun _ _ _ => ⟨fun hmay => hnew hmay.1, fun hmay => hnew hmay.2⟩
  | network e =>
    refine Pool.Holds.act (f := fun w => { w with ledger := w.ledger.event e }) h
      (fun tx tx' htx htx' => ?_) (fun call _ hcall hmay tx htx => ?_)
      fun call call' hcalls hmay => ?_
    · exact h.shared tx tx' (Ledger.canSucceed_of_event htx) (Ledger.canSucceed_of_event htx')
    · exact hcall (maySend_of_event hmay) tx (Ledger.canSucceed_of_event htx)
    · exact hcalls ⟨maySend_of_event hmay.1, maySend_of_event hmay.2⟩
  | answer i reply =>
    refine h.resume (fun call hcall => ?_) (fun call hcall j k hj hk => ?_)
      fun call hcall k k' => ?_
    · rcases callTurn_cases params p.shared call reply with
        ⟨hledger, hmay⟩ | ⟨tx, rfl, hledger, hend⟩
      · rw [hledger]
        refine ⟨h.shared, fun hnext => ?_⟩
        rcases hmay hnext with hold | ⟨rfl, hlet⟩
        · exact h.each i call hcall hold
        · exact (hquiet hcall hlet).2
      · rw [hledger]
        refine ⟨fun tx' tx'' htx' htx'' => ?_, fun hnext => absurd hnext (hend _)⟩
        have hsend := h.each i _ hcall
        rcases Ledger.canSucceed_take htx' with hold' | ⟨rfl, hmay⟩ <;>
          rcases Ledger.canSucceed_take htx'' with hold'' | ⟨rfl, hmay'⟩
        · exact h.shared _ _ hold' hold''
        · exact absurd hold' (hsend hmay' _)
        · exact absurd hold'' (hsend hmay _)
        · rfl
    · rcases callTurn_cases params p.shared call reply with
        ⟨hledger, hmay⟩ | ⟨tx, rfl, hledger, hend⟩
      · rw [hledger]
        have hk' : (callTurn params p.shared call reply).2.MaySend p.shared.ledger →
            ¬ k.MaySend p.shared.ledger := by
          intro hnext hother
          rcases hmay hnext with hold | ⟨rfl, hlet⟩
          · exact h.apart i j call k hj.symm hcall hk ⟨hold, hother⟩
          · exact (hquiet hcall hlet).1 j k hj hk hother
        exact ⟨h.each j k hk, fun hboth => hk' hboth.1 hboth.2, fun hboth => hk' hboth.2 hboth.1⟩
      · rw [hledger]
        refine ⟨fun hother tx' htx' => ?_, fun hboth => hend _ hboth.1, fun hboth => hend _ hboth.2⟩
        rw [maySend_take] at hother
        rcases Ledger.canSucceed_take htx' with hold' | ⟨rfl, hmay⟩
        · exact h.each j k hk hother tx' hold'
        · exact h.apart i j _ k hj.symm hcall hk ⟨hmay, hother⟩
    · rcases callTurn_cases params p.shared call reply with
        ⟨hledger, -⟩ | ⟨tx, -, hledger, -⟩
      · rw [hledger]
        exact id
      · rw [hledger, maySend_take, maySend_take]
        exact id

/-- **At most one payment.** If every call whose check lets it through is undisturbed, at most one
transaction that can succeed is sent under the key. -/
theorem at_most_one_payment (hkey : params.key ≠ none) {p : Pool World Call} {inputs : List Input}
    (hstart : PaymentStart p)
    (hquiet : Along (paymentStep addressError params) (Quiet params) p inputs) :
    Throughout (paymentStep addressError params) (fun p => p.shared.ledger.AtMostOne) p inputs := by
  have hinit : OneSender p := by
    obtain ⟨hcalls, hsent, hsucceeded⟩ := hstart
    refine ⟨fun tx tx' htx => ?_, fun i call hcall => ?_, fun i j call call' _ hcall => ?_⟩
    · simp [Ledger.CanSucceed, hsent, hsucceeded] at htx
    · simp [hcalls] at hcall
    · simp [hcalls] at hcall
  rintro pre post rfl
  have hpre := (along_append.1 hquiet).1
  exact (hpre.invariant (fun _ _ => oneSender_paymentStep hkey) hinit).shared

/-- A payment with a key. -/
def sampleExecutePaymentParams : ExecutePaymentParams where
  subscriber := "GAAAAAAAAAAAAAAAAAAAAAAAAAAAAAAAAAAAAAAAAAAAAAAAAAAAAWHF"
  merchant := "GAAQCAIBAEAQCAIBAEAQCAIBAEAQCAIBAEAQCAIBAEAQCAIBAEAQDZ7H"
  idempotencyKey := some "key-1"

/-- Nothing has been asked for. -/
def emptyWorld : World := ⟨.empty, ⟨7, [], [], []⟩⟩

/-- A call gets as far as sending its transaction. -/
def sampleSend (i : ℕ) (hash : String) (result : SendResult) : List Input :=
  [.submit, .answer i (.db .done), .answer i (.account none),
    .answer i (.simulated (.prepared hash)), .answer i (.sent result)]

theorem at_most_one_payment_sample :
    Throughout (paymentStep (fun _ => none) sampleExecutePaymentParams)
      (fun p => p.shared.ledger.AtMostOne) (.idle emptyWorld) (sampleSend 0 "tx1" .accepted) := by
  refine at_most_one_payment (by decide) ⟨rfl, rfl, rfl⟩ ⟨trivial, fun _ _ => ⟨?_, ?_⟩, ?_⟩
  · intro j call hj hcall
    have hnone : ([Call.check] : List Call)[j]? = none := List.getElem?_eq_none (by simp; omega)
    cases hnone.symm.trans hcall
  · rintro tx (htx | ⟨htx, -⟩) <;> cases htx
  · exact ⟨by rintro ⟨⟩, by rintro ⟨⟩, by rintro ⟨⟩, trivial⟩

/-- The reply to the first transaction is lost, and the call is made again. -/
theorem not_at_most_one_payment_replyLost :
    PaymentStart (.idle emptyWorld) ∧
      ¬ Throughout (paymentStep (fun _ => none) sampleExecutePaymentParams)
        (fun p => p.shared.ledger.AtMostOne) (.idle emptyWorld)
        (sampleSend 0 "tx1" (.replyLost "socket hang up") ++
          [.answer 0 (.db .done),
            .network (.succeeds ⟨"tx1", 8, sampleExecutePaymentParams.subscriber,
              sampleExecutePaymentParams.merchant⟩)] ++
          sampleSend 1 "tx2" .accepted) := by
  refine ⟨⟨rfl, rfl, rfl⟩, fun h => ?_⟩
  have hsame := h _ [] (List.append_nil _).symm
    ⟨"tx1", 8, sampleExecutePaymentParams.subscriber, sampleExecutePaymentParams.merchant⟩
    ⟨"tx2", 9, sampleExecutePaymentParams.subscriber, sampleExecutePaymentParams.merchant⟩
    (by decide) (by decide)
  exact absurd hsame (by decide)

/-! ### Where there may be a second payment -/

variable {p : Pool World Call} {i j : ℕ}

/-- There is a hash that no given transaction has. -/
theorem exists_fresh_hash (txs : List PaymentTx) : ∃ hash, ∀ tx ∈ txs, tx.hash ≠ hash := by
  obtain ⟨hash, hnot⟩ := Infinite.exists_notMem_finset (txs.map (·.hash)).toFinset
  refine ⟨hash, fun tx htx heq => hnot ?_⟩
  simpa using ⟨tx, htx, heq⟩

/-- From `p` on, the call `i` alone takes turns, and the network takes its transaction in. -/
def Sends (addressError : String → Option String) (params : ExecutePaymentParams)
    (p : Pool World Call) (i : ℕ) (tx : PaymentTx) : Prop :=
  ∃ inputs, (after (paymentStep addressError params) p inputs).shared.ledger =
      p.shared.ledger.take tx ∧
    ∀ (j : ℕ), j ≠ i →
      (after (paymentStep addressError params) p inputs).calls[j]? = p.calls[j]?

theorem sends_of_answer (reply : Reply) (hcall : p.calls[i]? = some call)
    (hledger : (callTurn params p.shared call reply).1.ledger = p.shared.ledger)
    (h : Sends addressError params (paymentStep addressError params p (.answer i reply)) i tx) :
    Sends addressError params p i tx := by
  obtain ⟨inputs, htake, hothers⟩ := h
  have hnext : paymentStep addressError params p (.answer i reply) =
      ⟨(callTurn params p.shared call reply).1,
        p.calls.set i (callTurn params p.shared call reply).2⟩ := Pool.resume_of_some hcall
  refine ⟨.answer i reply :: inputs, ?_, fun j hj => ?_⟩
  · rw [after_cons, htake, hnext, hledger]
  · rw [after_cons, hothers j hj, hnext, List.getElem?_set_ne hj.symm]

theorem sends_of_send (hcall : p.calls[i]? = some (.send tx)) :
    Sends addressError params p i tx := by
  have hnext : paymentStep addressError params p (.answer i (.sent .accepted)) =
      ⟨{ p.shared with ledger := p.shared.ledger.take tx }, p.calls.set i (.poll tx.hash 0)⟩ :=
    Pool.resume_of_some hcall
  refine ⟨[.answer i (.sent .accepted)], ?_, fun j hj => ?_⟩
  · rw [after_cons, after_nil, hnext]
  · rw [after_cons, after_nil, hnext, List.getElem?_set_ne hj.symm]

/-- A call that may still send can get a transaction to the network that can succeed, and a new one
unless its transaction is prepared already. -/
theorem exists_sends (addressError : String → Option String) (params : ExecutePaymentParams)
    (hcall : p.calls[i]? = some call) (hmay : call.MaySend p.shared.ledger) (old : PaymentTx) :
    ∃ tx, (tx ≠ old ∨ call = .send tx) ∧ tx ∉ p.shared.ledger.failed ∧
      p.shared.ledger.sequence < tx.sequence ∧ Sends addressError params p i tx := by
  have hlt : i < p.calls.length := (List.getElem?_eq_some_iff.1 hcall).1
  obtain ⟨hash, hfresh⟩ := exists_fresh_hash (old :: p.shared.ledger.failed)
  have hsimulate : ∀ {q : Pool World Call} (sequence : ℕ), i < q.calls.length →
      q.calls[i]? = some (.simulate sequence) →
      Sends addressError params q i ⟨hash, sequence + 1, params.subscriber, params.merchant⟩ := by
    intro q sequence hlt hq
    refine sends_of_answer (.simulated (.prepared hash)) hq rfl (sends_of_send ?_)
    rw [paymentStep, Pool.resume_of_some hq, List.getElem?_set_self hlt]
    rfl
  have hnew : ∀ sequence, (⟨hash, sequence + 1, params.subscriber, params.merchant⟩ : PaymentTx) ≠
      old ∧ ⟨hash, sequence + 1, params.subscriber, params.merchant⟩ ∉ p.shared.ledger.failed := by
    intro sequence
    exact ⟨fun heq => hfresh old List.mem_cons_self (by rw [← heq]),
      fun hmem => hfresh _ (List.mem_cons_of_mem old hmem) rfl⟩
  cases call with
  | getAccount =>
    refine ⟨_, .inl (hnew p.shared.ledger.sequence).1, (hnew _).2, Nat.lt_succ_self _,
      sends_of_answer (.account none) hcall rfl (hsimulate _ ?_ ?_)⟩
    · rw [paymentStep, Pool.resume_of_some hcall, List.length_set]
      exact hlt
    · rw [paymentStep, Pool.resume_of_some hcall, List.getElem?_set_self hlt]
      rfl
  | simulate sequence =>
    exact ⟨_, .inl (hnew sequence).1, (hnew _).2, Nat.lt_succ_of_le hmay,
      hsimulate sequence hlt hcall⟩
  | send tx => exact ⟨tx, .inr rfl, hmay.1, hmay.2, sends_of_send hcall⟩
  | check | poll | recordSuccess | recordFailure | ended => exact hmay.elim

/-- **A second payment.** A call that is let through but not undisturbed can be one of two that
pay. -/
theorem exists_second_payment {reply : Reply} (hcheck : p.calls[i]? = some .check)
    (hlet : LetThrough params p.shared.table reply) (hdisturbed : ¬ Undisturbed p i) :
    ∃ inputs, ¬ (after (paymentStep addressError params) p
      (.answer i reply :: inputs)).shared.ledger.AtMostOne := by
  have hlt : i < p.calls.length := (List.getElem?_eq_some_iff.1 hcheck).1
  obtain ⟨reply, rfl⟩ : ∃ r, reply = .db r := by
    cases reply with
    | db r => exact ⟨r, rfl⟩
    | account | simulated | sent | status => exact hlet.elim
  have hnext : paymentStep addressError params p (.answer i (.db reply)) =
      ⟨p.shared, p.calls.set i .getAccount⟩ := by
    rw [paymentStep, Pool.resume_of_some hcheck, callTurn,
      handleIdempotencyCheck_eq_none_iff.2 hlet, afterCheck]
  -- once the other transaction is known to the network, this call can send one of its own
  have hsecond : ∀ {q : Pool World Call} (tx : PaymentTx), q.calls[i]? = some .getAccount →
      q.shared.ledger.CanSucceed tx →
      ∃ inputs, ¬ (after (paymentStep addressError params) q inputs).shared.ledger.AtMostOne := by
    intro q tx hq htx
    obtain ⟨tx', hne | hsend, hfailed, hlt, inputs, htake, -⟩ :=
      exists_sends addressError params hq trivial tx
    · refine ⟨inputs, fun hone => hne ?_⟩
      rw [htake] at hone
      exact hone tx' tx (Ledger.canSucceed_take_self hfailed hlt) htx.take
    · cases hsend
  simp only [after_cons, hnext]
  by_cases htx : ∃ tx, p.shared.ledger.CanSucceed tx
  · obtain ⟨tx, htx⟩ := htx
    exact hsecond tx (List.getElem?_set_self hlt) htx
  · obtain ⟨j, call, hj, hcall, hmay⟩ : ∃ (j : ℕ) (call : Call), j ≠ i ∧
        p.calls[j]? = some call ∧ call.MaySend p.shared.ledger := by
      by_contra hnone
      push Not at hnone htx
      exact hdisturbed ⟨hnone, htx⟩
    have hother : (⟨p.shared, p.calls.set i .getAccount⟩ : Pool World Call).calls[j]? = some call :=
      (List.getElem?_set_ne hj.symm).trans hcall
    obtain ⟨tx, -, hfailed, hseq, inputs, htake, hothers⟩ :=
      exists_sends addressError params hother hmay ⟨"", 0, params.subscriber, params.merchant⟩
    obtain ⟨inputs', hmore⟩ := hsecond tx
      ((hothers i hj.symm).trans (List.getElem?_set_self hlt))
      (by rw [htake]; exact Ledger.canSucceed_take_self hfailed hseq)
    exact ⟨inputs ++ inputs', by rwa [after_append]⟩

end SorobanPay.ExecutePaymentHelper
