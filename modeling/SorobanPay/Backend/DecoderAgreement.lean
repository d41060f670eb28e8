import SorobanPay.Backend.Decoding
import SorobanPay.Backend.EventIndexer

/-!
# The two decoders of the backend

`IndexerService.decodeEvent` and the decoding step of `EventIndexer.processEvent` read the same
events. The first writes an address as its bytes and puts an amount together from its two words; the
second takes the texts that the SDK gives for the two objects. Where the value of an event is no
number that they know, the first answers `0` and the second nothing. The tuples of `executed` and
`payment_transfer_failure` and the reason of `cancel` are no such numbers, so that the decoders can
agree on `subscribe` only (`decodeAlike_iff`).

## Main definitions

* `decodedTexts`, `EventIndexer.decodedTexts`: what the two decoders read off an event.
* `DecodeAlike`: they accept the event both or neither, and read the same.

## Main results

* `decodedTexts_of_carries`, `EventIndexer.decodedTexts_of_carries`: what they read off the events
  of the contract.
* `decodeAlike_iff`: when they agree.
-/

set_option autoImplicit false

namespace SorobanPay

open Foundation

variable {Address : Type} {W : Wire Address} {event : Event Address} {raw : EventResponse}

/-! ### What is read -/

/-- The subscriber, the merchant and the amount that `IndexerService` decodes, if it accepts the
event. -/
def decodedTexts (sdk : Sdk) (now : ℕ) (raw : EventResponse) :
    Option (String × String × Option String) :=
  (decodeEvent sdk now raw).map fun decoded =>
    (decoded.subscriber, decoded.merchant, some decoded.amount)

/-- The subscriber, the merchant and the amount that `EventIndexer` decodes, if it accepts the
event. -/
def EventIndexer.decodedTexts (texts : EventIndexer.SdkTexts) (raw : EventResponse) :
    Option (String × String × Option String) := do
  let fields ← decodeFields texts raw
  let subscriber ← present fields.subscriber
  let merchant ← present fields.merchant
  some (subscriber, merchant, fields.amount)

/-- The two decoders accept the event both or neither, and read the same. -/
def DecodeAlike (sdk : Sdk) (texts : EventIndexer.SdkTexts) (now : ℕ) (raw : EventResponse) :
    Prop :=
  decodedTexts sdk now raw = EventIndexer.decodedTexts texts raw

instance (sdk : Sdk) (texts : EventIndexer.SdkTexts) (now : ℕ) (raw : EventResponse) :
    Decidable (DecodeAlike sdk texts now raw) :=
  inferInstanceAs (Decidable (_ = _))

/-- The SDK writes the address as `IndexerService` does. -/
def WritesAddress (W : Wire Address) (texts : EventIndexer.SdkTexts) (a : Address) : Prop :=
  texts.addressText (W.toScAddress a) = W.text a

/-- The SDK writes the two words of the amount as its decimal. -/
def WritesAmount (texts : EventIndexer.SdkTexts) (amount : ℤ) : Prop :=
  EventIndexer.scValToAmount texts (.ofI128 amount) = some (scValToAmount (.ofI128 amount))

/-! ### The events of the contract -/

theorem decodedTexts_of_carries (sdk : Sdk) (now : ℕ) (hraw : Carries W raw event) :
    decodedTexts sdk now raw = event.report.map fun report =>
      (W.text report.2.1, W.text report.2.2, some (scValToAmount event.value)) := by
  rw [decodedTexts, decodeEvent_of_carries hraw, Option.map_map]
  rfl

theorem EventIndexer.decodedTexts_of_carries (texts : EventIndexer.SdkTexts)
    (hraw : Carries W raw event) :
    EventIndexer.decodedTexts texts raw = event.report.bind fun report =>
      (present (some (texts.addressText (W.toScAddress report.2.1)))).bind fun subscriber =>
        (present (some (texts.addressText (W.toScAddress report.2.2)))).bind fun merchant =>
          some (subscriber, merchant, EventIndexer.scValToAmount texts event.value) := by
  simp only [EventIndexer.decodedTexts, decodeFields, hraw.topic, hraw.value]
  cases event <;> rfl

/-- The text of an address is not empty. -/
theorem Wire.text_ne_empty (W : Wire Address) (a : Address) : W.text a ≠ "" := by
  intro hempty
  have hlength := congrArg String.length hempty
  obtain ⟨bs, hbs⟩ := W.kind a
  rcases hbs with hbs | hbs
  · rw [Wire.text, hbs, scAddressToString, length_base64Text, bs.property] at hlength
    exact absurd hlength (by decide)
  · rw [Wire.text, hbs, scAddressToString, length_hexText, bs.property] at hlength
    exact absurd hlength (by decide)

/-- The events whose value is a number that both decoders know. -/
theorem amount_eq_iff (texts : EventIndexer.SdkTexts) (hkind : event.report ≠ none) :
    EventIndexer.scValToAmount texts event.value = some (scValToAmount event.value) ↔
      ∃ s m token amount, event = .subscribe s m token amount ∧ WritesAmount texts amount := by
  cases event with
  | subscribe s m token amount =>
    constructor
    · intro h
      exact ⟨s, m, token, amount, rfl, h⟩
    · rintro ⟨s', m', token', amount', heq, h⟩
      obtain ⟨-, -, -, rfl⟩ := Event.subscribe.inj heq
      exact h
  | executed | paymentTransferFailure | cancel =>
    refine iff_of_false nofun ?_
    rintro ⟨s', m', token', amount', heq, -⟩
    cases heq
  | _ => exact absurd rfl hkind

/-- A text that is written as `IndexerService` does is taken as it is, and no other text becomes one
of these. -/
theorem present_eq_some_text_iff (texts : EventIndexer.SdkTexts) (a : Address) :
    EventIndexer.present (some (texts.addressText (W.toScAddress a))) = some (W.text a) ↔
      WritesAddress W texts a := by
  rw [EventIndexer.present, Option.filter_eq_some_iff, Option.some.injEq, and_iff_left]
  · rfl
  · simpa using W.text_ne_empty a

/-- **Two decoders.** On the events of the four types that they support, the decoders agree exactly
if the event is a subscription, and the SDK writes its parties and its amount as `IndexerService`
does. -/
theorem decodeAlike_iff (W : Wire Address) (sdk : Sdk) (texts : EventIndexer.SdkTexts) (now : ℕ)
    (hraw : Carries W raw event) (hkind : event.report ≠ none) :
    DecodeAlike sdk texts now raw ↔
      ∃ s m token amount, event = .subscribe s m token amount ∧ WritesAddress W texts s ∧
        WritesAddress W texts m ∧ WritesAmount texts amount := by
  obtain ⟨⟨type, s, m⟩, hreport⟩ := Option.ne_none_iff_exists'.1 hkind
  have hparts : DecodeAlike sdk texts now raw ↔ WritesAddress W texts s ∧
      WritesAddress W texts m ∧
        EventIndexer.scValToAmount texts event.value = some (scValToAmount event.value) := by
    rw [DecodeAlike, decodedTexts_of_carries sdk now hraw,
      EventIndexer.decodedTexts_of_carries texts hraw, hreport, eq_comm, Option.map_some,
      Option.bind_some, ← present_eq_some_text_iff, ← present_eq_some_text_iff]
    simp only [Option.bind_eq_some_iff, Option.some.injEq, Prod.mk.injEq]
    constructor
    · rintro ⟨subscriber, hs, merchant, hm, rfl, rfl, hamount⟩
      exact ⟨hs, hm, hamount⟩
    · rintro ⟨hs, hm, hamount⟩
      exact ⟨_, hs, _, hm, rfl, rfl, hamount⟩
  rw [hparts, amount_eq_iff texts hkind]
  constructor
  · rintro ⟨hs, hm, s', m', token, amount, rfl, hamount⟩
    obtain ⟨-, rfl, rfl⟩ := Option.some.inj hreport
    exact ⟨s, m, token, amount, rfl, hs, hm, hamount⟩
  · rintro ⟨s', m', token, amount, rfl, hs, hm, hamount⟩
    obtain ⟨-, rfl, rfl⟩ := Option.some.inj hreport
    exact ⟨hs, hm, s, m, token, amount, rfl, hamount⟩

/-- A subscription is read alike if the SDK writes everything as `IndexerService` does. -/
theorem decodeAlike_sample :
    DecodeAlike sampleSdk EventIndexer.sampleTexts 0
        (sampleResponse "1" 1 (.subscribe 1 2 9 100)) ↔
      ∃ s m token amount, Event.subscribe (1 : UInt8) 2 9 100 = .subscribe s m token amount ∧
        WritesAddress sampleWire EventIndexer.sampleTexts s ∧
          WritesAddress sampleWire EventIndexer.sampleTexts m ∧
            WritesAmount EventIndexer.sampleTexts amount :=
  decodeAlike_iff sampleWire sampleSdk EventIndexer.sampleTexts 0 (carries_sampleResponse _ _ _)
    nofun

/-- A payment is not: its amount is `0` for the one and missing for the other. -/
theorem not_decodeAlike_executed :
    ¬ DecodeAlike sampleSdk EventIndexer.sampleTexts 0 sampleExecuted := by
  intro h
  have hamount := congrArg (Option.map fun texts => texts.2.2) h
  cases hamount

end SorobanPay
