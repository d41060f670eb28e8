import SorobanPay.Backend.IndexerService

/-!
# What the indexer service reads in the events of the contract

The decoder recognizes four kinds of events by their names and reads the subscriber and the
merchant off the topics. Different addresses give it different texts. The amount it reads off the
value, which for `subscribe` is the amount itself. For `executed` and `payment_transfer_failure`
the contract publishes a tuple, the amount and one more number, and for a tuple the decoder answers
`0` (`amount_agreement_never`).

## Main definitions

* `Wire.text`: the text that the service has for an address.
* `Event.report`: the kind and the parties of the events that the service recognizes.
* `AmountAgrees`: the service reads the parties and the amount of a payment.

## Main results

* `Wire.text_injective`: different addresses have different texts.
* `decodeEvent_of_carries`: what is decoded of an event of the contract.
* `amount_agreement_never`: the amount of a payment is never read.
-/

set_option autoImplicit false

namespace SorobanPay

open Foundation

variable {Address : Type}

/-! ### Addresses -/

/-- The text that the service has for an address. -/
def Wire.text (W : Wire Address) (a : Address) : String := scAddressToString (W.toScAddress a)

/-- The text of an account has 44 characters and that of a contract 64. -/
theorem Wire.text_injective (W : Wire Address) : Function.Injective W.text := by
  intro a b h
  have hlengths : ∀ bs bs' : Bytes32, base64Text bs.val ≠ hexText bs'.val := by
    intro bs bs' heq
    have hlength := congrArg String.length heq
    rw [length_base64Text, length_hexText, bs.property, bs'.property] at hlength
    omega
  obtain ⟨bs, hbs⟩ := W.kind a
  obtain ⟨bs', hbs'⟩ := W.kind b
  refine W.injective ?_
  unfold Wire.text at h
  rcases hbs with hbs | hbs <;> rcases hbs' with hbs' | hbs' <;> rw [hbs, hbs'] at h ⊢
  · rw [Subtype.ext (base64Text_injective h)]
  · exact (hlengths bs bs' h).elim
  · exact (hlengths bs' bs h.symm).elim
  · rw [Subtype.ext (hexText_injective h)]

/-! ### Events -/

/-- The kind and the parties of an event, if the service recognizes it. -/
def Event.report : Event Address → Option (EventType × Address × Address)
  | .subscribe s m _ _ => some (.subscribe, s, m)
  | .executed s m _ _ _ => some (.executed, s, m)
  | .cancel s m _ => some (.cancel, s, m)
  | .paymentTransferFailure s m _ _ => some (.paymentTransferFailure, s, m)
  | _ => none

variable {W : Wire Address} {sdk : Sdk} {now : ℕ} {raw : EventResponse} {event : Event Address}

/-- **What is decoded of an event of the contract.** -/
theorem decodeEvent_of_carries (h : Carries W raw event) :
    decodeEvent sdk now raw = event.report.map fun report =>
      { type := report.1
        subscriber := W.text report.2.1
        merchant := W.text report.2.2
        amount := scValToAmount event.value
        txHash := raw.txHash.getD ""
        ledgerSeq := raw.ledger
        occurredAt := raw.ledgerClosedAt.getD now } := by
  simp only [decodeEvent, h.topic, h.value]
  cases event <;> rfl

theorem scValToAmount_ofI128 {a : ℤ} (hlow : -2 ^ 127 ≤ a) (hhigh : a < 2 ^ 127) :
    scValToAmount (.ofI128 a) = toString a := by
  rw [ScVal.ofI128, scValToAmount, ScVal.i128Value_ofI128 hlow hhigh]

/-! ### Payments -/

/-- The event reports a payment of `a`, collected or attempted. -/
def Event.ReportsPayment (event : Event Address) (s m : Address) (a : ℤ) : Prop :=
  (∃ token nonce, event = .executed s m token a nonce) ∨
    ∃ overdueSince, event = .paymentTransferFailure s m a overdueSince

/-- The service reads the parties and the amount of a payment. -/
def AmountAgrees (W : Wire Address) (sdk : Sdk) (now : ℕ) (raw : EventResponse) (s m : Address)
    (a : ℤ) : Prop :=
  ∃ decoded, decodeEvent sdk now raw = some decoded ∧ decoded.amount = toString a ∧
    decoded.subscriber = W.text s ∧ decoded.merchant = W.text m

/-- The value of an event that reports a payment is a tuple. -/
theorem Event.ReportsPayment.amount_eq {s m : Address} {a : ℤ} (h : event.ReportsPayment s m a) :
    scValToAmount event.value = "0" := by
  rcases h with ⟨token, nonce, rfl⟩ | ⟨overdueSince, rfl⟩ <;> rfl

/-- **The amount of a payment is never read.** -/
theorem amount_agreement_never (W : Wire Address) (sdk : Sdk) (now : ℕ) {raw : EventResponse}
    {event : Event Address} (hraw : Carries W raw event) {s m : Address} {a : ℤ}
    (hevent : event.ReportsPayment s m a) (ha : 0 < a) :
    ¬ AmountAgrees W sdk now raw s m a := by
  rintro ⟨decoded, hdecoded, hamount, -, -⟩
  rw [decodeEvent_of_carries hraw, Option.map_eq_some_iff] at hdecoded
  obtain ⟨report, -, rfl⟩ := hdecoded
  have hzero : toString (0 : ℤ) = toString a := hevent.amount_eq.symm.trans hamount
  exact Int.ne_of_lt ha (toString_int_injective hzero)

/-- An XDR encoding for the samples. -/
def sampleSdk : Sdk where
  toXDR _ := []

/-- The first payment of a subscription with the amount 100. -/
def sampleExecuted : EventResponse := sampleResponse "1" 86401 (.executed 1 2 9 100 1)

/-- It is decoded with the amount 0. -/
theorem not_amountAgrees_executed :
    ¬ AmountAgrees sampleWire sampleSdk 0 sampleExecuted (1 : UInt8) 2 100 := by
  rintro ⟨decoded, hdecoded, hamount, -⟩
  have hzero : (decodeEvent sampleSdk 0 sampleExecuted).map (·.amount) = some "0" := rfl
  rw [hdecoded, Option.map_some, hamount] at hzero
  exact absurd hzero (by decide)

theorem amount_agreement_sample :
    ¬ AmountAgrees sampleWire sampleSdk 0
      (sampleResponse "2" 172801 (.paymentTransferFailure 1 2 100 172801)) (1 : UInt8) 2 100 :=
  amount_agreement_never sampleWire sampleSdk 0 (carries_sampleResponse _ _ _)
    (.inr ⟨172801, rfl⟩) (by decide)

end SorobanPay
