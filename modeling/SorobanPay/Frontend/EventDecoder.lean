import SorobanPay.Frontend.NativeValues

/-!
# The event decoder of the frontend

`decodeContractEvent` of `lib/event_decoder.ts` turns an event as the RPC returns it, in XDR, into a
typed event. What throws in the body of its `try` block becomes an `unknown` event; only `String` of
a first topic that is no text stands outside of it.

## Main definitions

* `DecodedContractEvent`: the typed events.
* `decodeContractEvent`: the decoder, without a result where it throws.
* `typedEvent`: the typed event of an event of the contract.

## Main results

* `decodeContractEvent_of_received`: the events of the contract are decoded to their typed events.
* `decodeContractEvent_total`: these, other names, and events that do not decode.
-/

set_option autoImplicit false

namespace SorobanPay.Frontend

open Foundation

variable {N Address : Type} {J : JsNumber N}

/-- `DecodedContractEvent`, with the numbers of the language where they are not big integers. -/
inductive DecodedContractEvent (N : Type)
  | subscribe (subscriber merchant token : String) (amount : ℤ)
  | executed (subscriber merchant token : String) (amount nonce : ℤ)
  | paymentTransferFailure (subscriber merchant : String) (amount overdueSince : ℤ)
  | paymentTransferSuccess (subscriber merchant : String) (amount : ℤ)
  | cancel (subscriber merchant : String) (reason : N) (reasonLabel : String)
  | expired (subscriber merchant : String)
  | lowAllowance (subscriber merchant token : String) (allowance required : ℤ)
  | batchExecuteInitiated (merchant : String) (batchSize : N)
  | contractMigrated (admin : String) (newVersion : N)
  | unknown (rawType : String)
  deriving DecidableEq

/-- `CANCEL_REASON_LABEL`, by the text of the reason. -/
def cancelReasonLabel : String → Option String
  | "1" => some "Subscriber voluntary"
  | "2" => some "Merchant initiated"
  | "3" => some "Grace period expired"
  | "4" => some "Admin forced"
  | _ => none

/-- `RawSorobanEvent`; topics that are missing are the same as none. -/
structure RawSorobanEvent where
  topic : List String
  value : String

section Decoder

variable (sdk : StellarSdk J)

/-- `decodeScVal`; a text that is missing is not decoded. -/
def decodeScVal (base64 : Option String) : Native N := (base64.bind sdk.native).getD .null

variable (J) in
/-- `toBigInt`. -/
def toBigInt : Native N → Option ℤ
  | .bigint n => some n
  | .number n => J.toBigInt n
  | .string s => bigIntOfText s
  | _ => none

variable (J) in
/-- `toNumber`. -/
def toNumber : Native N → Option N
  | .number n => some n
  | .bigint n => some (J.ofBigInt n)
  | .string s => some (J.ofText s)
  | _ => none

/-- `toAddress`. -/
def toAddress : Native N → Option String
  | .string s => some s
  | _ => none

/-- The body of the `try` block. -/
def decodeFields (raw : RawSorobanEvent) (eventType : String) : Option (DecodedContractEvent N) :=
  let address (i : ℕ) : Option String := toAddress (decodeScVal sdk raw.topic[i]?)
  let data : Native N := decodeScVal sdk raw.value
  match eventType with
  | "subscribe" => do
    let subscriber ← address 1
    let merchant ← address 2
    let token ← address 3
    let amount ← toBigInt J data
    return .subscribe subscriber merchant token amount
  | "executed" => do
    let subscriber ← address 1
    let merchant ← address 2
    let token ← address 3
    let (rawAmount, rawNonce) ← data.pair
    let amount ← toBigInt J rawAmount
    let nonce ← toBigInt J rawNonce
    return .executed subscriber merchant token amount nonce
  | "payment_transfer_failure" => do
    let subscriber ← address 1
    let merchant ← address 2
    let (rawAmount, rawOverdue) ← data.pair
    let amount ← toBigInt J rawAmount
    let overdueSince ← toBigInt J rawOverdue
    return .paymentTransferFailure subscriber merchant amount overdueSince
  | "payment_transfer_success" => do
    let subscriber ← address 1
    let merchant ← address 2
    let amount ← toBigInt J data
    return .paymentTransferSuccess subscriber merchant amount
  | "cancel" => do
    let subscriber ← address 1
    let merchant ← address 2
    let reason ← toNumber J data
    let key := J.text reason
    return .cancel subscriber merchant reason
      ((cancelReasonLabel key).getD ("Unknown reason (" ++ key ++ ")"))
  | "expired" => do
    let subscriber ← address 1
    let merchant ← address 2
    return .expired subscriber merchant
  | "low_allowance" => do
    let subscriber ← address 1
    let merchant ← address 2
    let token ← address 3
    let (rawAllowance, rawRequired) ← data.pair
    let allowance ← toBigInt J rawAllowance
    let required ← toBigInt J rawRequired
    return .lowAllowance subscriber merchant token allowance required
  | "batch_execute_initiated" => do
    let merchant ← address 1
    let batchSize ← toNumber J data
    return .batchExecuteInitiated merchant batchSize
  | "contract_migrated" => do
    let admin ← address 1
    let newVersion ← toNumber J data
    return .contractMigrated admin newVersion
  | _ => some (.unknown eventType)

/-- `decodeContractEvent`. -/
def decodeContractEvent (raw : RawSorobanEvent) : Option (DecodedContractEvent N) :=
  match raw.topic with
  | [] => some (.unknown "")
  | first :: _ =>
    match decodeScVal sdk first with
    | .string eventType => some ((decodeFields sdk raw eventType).getD (.unknown eventType))
    | .null | .undefined => some (.unknown "")
    | v => (v.toText J).map .unknown

end Decoder

/-! ### What is decoded -/

variable {sdk : StellarSdk J} {W : Wire Address} {raw : RawSorobanEvent} {event : Event Address}

theorem decodeContractEvent_of_name {eventType : String}
    (h : decodeScVal sdk raw.topic[0]? = .string eventType) :
    decodeContractEvent sdk raw =
      some ((decodeFields sdk raw eventType).getD (.unknown eventType)) := by
  unfold decodeContractEvent
  rcases htopic : raw.topic with _ | ⟨first, rest⟩
  · rw [htopic] at h
    cases h
  · rw [htopic, List.getElem?_cons_zero] at h
    simp only [h]

/-- The names that the decoder knows. -/
def decodedNames : List String :=
  ["subscribe", "executed", "payment_transfer_failure", "payment_transfer_success", "cancel",
    "expired", "low_allowance", "batch_execute_initiated", "contract_migrated"]

theorem decodeFields_of_other {eventType : String} (h : eventType ∉ decodedNames) :
    decodeFields sdk raw eventType = some (.unknown eventType) := by
  unfold decodeFields
  dsimp only
  split <;> first | rfl | exact (h (by decide)).elim

/-- The typed event of an event of the contract, if its name is known. -/
def typedEvent (sdk : StellarSdk J) (W : Wire Address) :
    Event Address → Option (DecodedContractEvent N)
  | .subscribe s m token amount =>
    some (.subscribe (sdk.textOf W s) (sdk.textOf W m) (sdk.textOf W token) amount)
  | .executed s m token amount nonce =>
    some (.executed (sdk.textOf W s) (sdk.textOf W m) (sdk.textOf W token) amount nonce)
  | .paymentTransferFailure s m amount overdueSince =>
    some (.paymentTransferFailure (sdk.textOf W s) (sdk.textOf W m) amount overdueSince)
  | .paymentTransferSuccess s m amount =>
    some (.paymentTransferSuccess (sdk.textOf W s) (sdk.textOf W m) amount)
  | .cancel s m reason =>
    some (.cancel (sdk.textOf W s) (sdk.textOf W m) (J.ofBigInt reason)
      ((cancelReasonLabel (toString (reason : ℤ))).getD
        ("Unknown reason (" ++ toString (reason : ℤ) ++ ")")))
  | .lowAllowance s m token allowance required =>
    some (.lowAllowance (sdk.textOf W s) (sdk.textOf W m) (sdk.textOf W token) allowance required)
  | .batchExecuteInitiated m batchSize =>
    some (.batchExecuteInitiated (sdk.textOf W m) (J.ofBigInt batchSize))
  | .contractMigrated admin newVersion =>
    some (.contractMigrated (sdk.textOf W admin) (J.ofBigInt newVersion))
  | _ => none

/-- What is decoded of a topic. -/
theorem decodeScVal_topic (h : Received sdk W raw.topic raw.value event) (i : ℕ) :
    decodeScVal sdk raw.topic[i]? =
      (((event.topics W)[i]?).bind sdk.scValToNative).getD .null := by
  have hi := congrArg (fun natives : List (Option (Native N)) => natives[i]?) h.map_native
  simp only [List.getElem?_map] at hi
  rw [decodeScVal]
  generalize raw.topic[i]? = t at hi ⊢
  generalize (event.topics W)[i]? = v at hi ⊢
  cases t <;> cases v <;> simp_all

theorem decodeScVal_value (h : Received sdk W raw.topic raw.value event) :
    decodeScVal sdk raw.value = (sdk.scValToNative event.value).getD .null := by
  rw [decodeScVal, Option.bind_some, h.native_value]

/-- A topic that is an address is decoded to its text. -/
theorem toAddress_of_topic (h : Received sdk W raw.topic raw.value event) {i : ℕ} {a : Address}
    (ha : (event.topics W)[i]? = some (.address (W.toScAddress a))) :
    toAddress (decodeScVal sdk raw.topic[i]?) = some (sdk.textOf W a) := by
  rw [decodeScVal_topic h, ha, Option.bind_some, sdk.address]
  rfl

theorem decodeContractEvent_of_received (hfits : Fits event)
    (h : Received sdk W raw.topic raw.value event) {decoded : DecodedContractEvent N}
    (hdecoded : typedEvent sdk W event = some decoded) :
    decodeContractEvent sdk raw = some decoded := by
  have hname : ∀ {name : String}, (event.topics W)[0]? = some (.symbol name) →
      decodeContractEvent sdk raw = some ((decodeFields sdk raw name).getD (.unknown name)) := by
    intro name hzero
    refine decodeContractEvent_of_name ?_
    rw [decodeScVal_topic h, hzero, Option.bind_some, sdk.symbol]
    rfl
  have hvalue := fun {v : Native N} (hv : sdk.scValToNative event.value = some v) =>
    (decodeScVal_value h).trans (congrArg (Option.getD · .null) hv)
  cases event with
  | subscribe s m token amount =>
    obtain rfl := Option.some.inj hdecoded
    have hs := toAddress_of_topic h (i := 1) (a := s) rfl
    have hm := toAddress_of_topic h (i := 2) (a := m) rfl
    have ht := toAddress_of_topic h (i := 3) (a := token) rfl
    rw [hname rfl]
    simp [decodeFields, hs, hm, ht, hvalue (scValToNative_ofI128 hfits), toBigInt]
  | executed s m token amount nonce =>
    obtain rfl := Option.some.inj hdecoded
    have hs := toAddress_of_topic h (i := 1) (a := s) rfl
    have hm := toAddress_of_topic h (i := 2) (a := m) rfl
    have ht := toAddress_of_topic h (i := 3) (a := token) rfl
    have hdata := hvalue
      (scValToNative_pair (scValToNative_ofI128 hfits.1) (scValToNative_u32 hfits.2))
    rw [hname rfl]
    simp [decodeFields, hs, hm, ht, hdata, Native.pair, Native.items, toBigInt,
      toBigInt_u32 hfits.2]
  | paymentTransferFailure s m amount overdueSince =>
    obtain rfl := Option.some.inj hdecoded
    have hs := toAddress_of_topic h (i := 1) (a := s) rfl
    have hm := toAddress_of_topic h (i := 2) (a := m) rfl
    have hdata := hvalue
      (scValToNative_pair (scValToNative_ofI128 hfits.1) (scValToNative_u64 hfits.2))
    rw [hname rfl]
    simp [decodeFields, hs, hm, hdata, Native.pair, Native.items, toBigInt]
  | paymentTransferSuccess s m amount =>
    obtain rfl := Option.some.inj hdecoded
    have hs := toAddress_of_topic h (i := 1) (a := s) rfl
    have hm := toAddress_of_topic h (i := 2) (a := m) rfl
    rw [hname rfl]
    simp [decodeFields, hs, hm, hvalue (scValToNative_ofI128 hfits), toBigInt]
  | cancel s m reason =>
    obtain rfl := Option.some.inj hdecoded
    have hs := toAddress_of_topic h (i := 1) (a := s) rfl
    have hm := toAddress_of_topic h (i := 2) (a := m) rfl
    rw [hname rfl]
    simp [decodeFields, hs, hm, hvalue (scValToNative_u32 hfits), toNumber, text_u32 hfits]
  | lowAllowance s m token allowance required =>
    obtain rfl := Option.some.inj hdecoded
    have hs := toAddress_of_topic h (i := 1) (a := s) rfl
    have hm := toAddress_of_topic h (i := 2) (a := m) rfl
    have ht := toAddress_of_topic h (i := 3) (a := token) rfl
    have hdata := hvalue
      (scValToNative_pair (scValToNative_ofI128 hfits.1) (scValToNative_ofI128 hfits.2))
    rw [hname rfl]
    simp [decodeFields, hs, hm, ht, hdata, Native.pair, Native.items, toBigInt]
  | batchExecuteInitiated m batchSize =>
    obtain rfl := Option.some.inj hdecoded
    have hm := toAddress_of_topic h (i := 1) (a := m) rfl
    rw [hname rfl]
    simp [decodeFields, hm, hvalue (scValToNative_ofI128 (isI128_u32 hfits)), toNumber]
  | contractMigrated admin newVersion =>
    obtain rfl := Option.some.inj hdecoded
    have hadmin := toAddress_of_topic h (i := 1) (a := admin) rfl
    rw [hname rfl]
    simp [decodeFields, hadmin, hvalue (scValToNative_ofI128 (isI128_u32 hfits)), toNumber]
  | _ => cases hdecoded

/-- **The decoder and the contract.** An event of the contract with a name that is known is decoded
to its typed event, an event with another name is unknown, and no event throws whose first topic is
missing, does not decode, or decodes to a text. -/
theorem contract_event_agreement (sdk : StellarSdk J) (W : Wire Address) :
    (∀ raw event decoded, Fits event → Received sdk W raw.topic raw.value event →
        typedEvent sdk W event = some decoded → decodeContractEvent sdk raw = some decoded) ∧
      (∀ raw eventType, decodeScVal sdk raw.topic[0]? = .string eventType →
        eventType ∉ decodedNames → decodeContractEvent sdk raw = some (.unknown eventType)) ∧
      ∀ raw, (∀ first, raw.topic[0]? = some first →
        sdk.native first = none ∨ ∃ eventType, sdk.native first = some (.string eventType)) →
          (decodeContractEvent sdk raw).isSome := by
  refine ⟨fun raw event decoded hfits h hdecoded => ?_, ?_, ?_⟩
  · exact decodeContractEvent_of_received hfits h hdecoded
  · intro raw eventType hname hother
    rw [decodeContractEvent_of_name hname, decodeFields_of_other hother]
    rfl
  · intro raw hfirst
    rcases htopic : raw.topic with _ | ⟨first, rest⟩
    · simp [decodeContractEvent, htopic]
    · rcases hfirst first (by rw [htopic]; rfl) with hnone | ⟨eventType, hname⟩
      · simp [decodeContractEvent, decodeScVal, htopic, hnone]
      · simp [decodeContractEvent, decodeScVal, htopic, hname]

/-- An `executed` event is decoded. -/
theorem contract_event_agreement_sample :
    decodeContractEvent (sampleStellarFor (.executed 1 2 9 100 1))
        ⟨["0", "1", "2", "3"], "data"⟩ =
      typedEvent (sampleStellarFor (.executed 1 2 9 100 1)) sampleWire (.executed 1 2 9 100 1) := by
  have hfits : Fits (.executed (1 : UInt8) 2 9 100 1) := ⟨⟨by decide, by decide⟩, by decide⟩
  exact (contract_event_agreement (sampleStellarFor (.executed 1 2 9 100 1)) sampleWire).1
    ⟨["0", "1", "2", "3"], "data"⟩ (.executed 1 2 9 100 1) _ hfits (received_sample ..) rfl

end SorobanPay.Frontend
