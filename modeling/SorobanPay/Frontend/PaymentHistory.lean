import Mathlib.Data.List.Basic
import SorobanPay.Frontend.EventDecoder

/-!
# The payment history of the frontend

`decodeExecutedEvent` of `hooks/usePaymentHistory.ts` decodes the `executed` events for the payment
history. It expects the amount alone as the data of the event. The contract publishes the amount
with the number of the payment, a pair, which is no number as a text, and the event is left out.

## Main definitions

* `PaymentEvent`, `decodeExecutedEvent`: the decoder of the history.
* `HistoryAgrees`: the history shows what `decodeContractEvent` decodes.

## Main results

* `decodeExecutedEvent_of_received`: no `executed` event of the contract is in the history.
* `not_historyAgrees`: the two decoders agree on none of them.
-/

set_option autoImplicit false

namespace SorobanPay.Frontend

open Foundation

variable {N Address : Type} {J : JsNumber N}

/-! ### The decoder -/

/-- `RawEventResponse`, with topics and data in XDR. -/
structure RawEventResponse extends RawSorobanEvent where
  ledger : ℕ
  ledgerClosedAt : Option String
  id : String
  txHash : Option String

/-- `PaymentEvent`; `eventType` is never set here. -/
structure PaymentEvent where
  ledger : ℕ
  timestamp : String
  subscriber : String
  merchant : String
  token : String
  amount : String
  amountStroops : String
  txHash : String
  id : String
  deriving DecidableEq, Repr

/-- `STROOPS_PER_TOKEN`. -/
def stroopsPerToken : ℤ := 10000000

/-- `stroopsToTokens`. -/
def stroopsToTokens (stroops : ℤ) : String :=
  let whole := stroops.tdiv stroopsPerToken
  let fractional := stroops.tmod stroopsPerToken
  let frac := String.ofList ((toString fractional).toList.leftpad 7 '0')
  toString whole ++ "." ++ frac

/-- The amount that the data of an event stands for. -/
def amountBigInt (J : JsNumber N) : Native N → Option ℤ
  | .bigint n => some n
  | v => (v.toText J).bind bigIntOfText

/-- `decodeExecutedEvent`. -/
def decodeExecutedEvent (sdk : StellarSdk J) (rawEvent : RawEventResponse) : Option PaymentEvent :=
  if rawEvent.topic.length < 4 then none
  else do
    let natives ← rawEvent.topic.mapM sdk.native
    match natives with
    | .string "executed" :: subscriberVal :: merchantVal :: tokenVal :: _ =>
      let amountRaw ← sdk.native rawEvent.value
      let amount ← amountBigInt J amountRaw
      let subscriber ← subscriberVal.toText J
      let merchant ← merchantVal.toText J
      let token ← tokenVal.toText J
      return {
        ledger := rawEvent.ledger
        timestamp := rawEvent.ledgerClosedAt.getD "1970-01-01T00:00:00.000Z"
        subscriber, merchant, token
        amount := stroopsToTokens amount
        amountStroops := toString amount
        txHash := rawEvent.txHash.getD ""
        id := rawEvent.id }
    | _ => none

/-! ### Agreement -/

/-- The history has the event, with the parties, the token and the amount that
`decodeContractEvent` decodes. -/
def HistoryAgrees (sdk : StellarSdk J) (rawEvent : RawEventResponse) : Prop :=
  ∃ payment subscriber merchant token amount nonce,
    decodeExecutedEvent sdk rawEvent = some payment ∧
      decodeContractEvent sdk rawEvent.toRawSorobanEvent =
        some (.executed subscriber merchant token amount nonce) ∧
      payment.subscriber = subscriber ∧ payment.merchant = merchant ∧ payment.token = token ∧
        payment.amountStroops = toString amount

variable {sdk : StellarSdk J} {W : Wire Address} {rawEvent : RawEventResponse} {s m token : Address}
  {amount : ℤ} {nonce : ℕ}

/-- The text of a pair has a comma, so that a pair stands for no amount. -/
theorem amountBigInt_pair (a b : Native N) : amountBigInt J (.array [a, b]) = none := by
  have htext : (Native.array [a, b]).toText J =
      (Native.elementTexts J [a, b]).map (String.intercalate ",") := by rw [Native.toText]
  simp only [amountBigInt, htext]
  rcases htexts : Native.elementTexts J [a, b] with _ | texts
  · rfl
  · obtain ⟨ta, tb, rfl⟩ := List.length_eq_two.1 (Native.length_elementTexts J htexts)
    refine bigIntOfText_eq_none_of_comma ?_
    rw [String.intercalate_cons_cons]
    simp

/-- **No `executed` event is in the history.** -/
theorem decodeExecutedEvent_of_received (hfits : Fits (.executed s m token amount nonce))
    (h : Received sdk W rawEvent.topic rawEvent.value (.executed s m token amount nonce)) :
    decodeExecutedEvent sdk rawEvent = none := by
  have hvalue : sdk.native rawEvent.value =
      some (.array [.bigint amount, .number (J.ofBigInt nonce)]) :=
    h.native_value.trans
      (scValToNative_pair (scValToNative_ofI128 hfits.1) (scValToNative_u32 hfits.2))
  unfold decodeExecutedEvent
  split_ifs
  · rfl
  · rcases rawEvent.topic.mapM sdk.native with _ | natives
    · rfl
    · simp only [hvalue, Option.bind_eq_bind, Option.bind_some, amountBigInt_pair,
        Option.bind_none]
      split <;> rfl

/-- **The two decoders never agree** on an `executed` event of the contract. -/
theorem not_historyAgrees (sdk : StellarSdk J) (W : Wire Address) (rawEvent : RawEventResponse)
    (s m token : Address) {amount : ℤ} {nonce : ℕ} (hpos : 0 < amount) (hmax : amount ≤ 10 ^ 18)
    (hnonce : nonce < 2 ^ 32)
    (h : Received sdk W rawEvent.topic rawEvent.value (.executed s m token amount nonce)) :
    ¬ HistoryAgrees sdk rawEvent := by
  rintro ⟨payment, _, _, _, _, _, hpayment, -⟩
  rw [decodeExecutedEvent_of_received ⟨⟨by omega, by omega⟩, hnonce⟩ h] at hpayment
  cases hpayment

/-- The sample, received with its place in the ledger. -/
def sampleRawEvent : RawEventResponse where
  topic := ["0", "1", "2", "3"]
  value := "data"
  ledger := 10
  ledgerClosedAt := some "2026-01-01T00:00:00Z"
  id := "1"
  txHash := some "a"

theorem not_historyAgrees_sample :
    ¬ HistoryAgrees (sampleStellarFor (.executed 1 2 9 (10 ^ 18) 7)) sampleRawEvent :=
  not_historyAgrees _ sampleWire sampleRawEvent 1 2 9 (by decide) (by decide) (by decide)
    (received_sample 1 2 9 (10 ^ 18) 7)

/-- The first payment of 100 is not in the history. -/
theorem first_payment_missing :
    ¬ HistoryAgrees (sampleStellarFor (.executed 1 2 9 100 1)) sampleRawEvent := by
  rintro ⟨payment, _, _, _, _, _, hpayment, -⟩
  have hnone : decodeExecutedEvent (sampleStellarFor (.executed 1 2 9 100 1)) sampleRawEvent =
      none := by decide
  rw [hnone] at hpayment
  cases hpayment

end SorobanPay.Frontend
