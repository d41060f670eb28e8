import SorobanPay.Backend.RetryOutcomes
import SorobanPay.Backend.TimestampReaders
import SorobanPay.Foundation.Encoding
import SorobanPay.Foundation.Grouping

/-!
# The ids of notifications

Merchants tell notifications apart by an event id, which should be the same wherever a notification
is sent and however often, and different for different occurrences. `notifyWebhooks` derives it from
the transaction hash and the index of the event, which a hash of 64 digits tells apart
(`deriveEventId_injective`), and takes a random id where there is no hash. But
`emitMaxRetriesExceeded` passes a marker in place of the hash, the same for all merchants and all
rounds of retries. So the ids of two occurrences differ exactly if not both are such escalations
(`identifiesNotifications_iff`).

## Main definitions

* `notifyMerchantsOfAtRiskSubscriptions`: the third caller of `notifyWebhooks`.
* `NotifyCall`, `Occurrence`: the calls, and what they are about.
* `IdentifiesNotifications`: what is asked for of the ids.

## Main results

* `deriveEventId_injective`: ids of events of transactions.
* `identifiesNotifications_iff`: when ids identify notifications.
-/

set_option autoImplicit false

namespace SorobanPay.WebhookNotifier

open Foundation RetryQueue EventIndexer

/-! ### The calls -/

/-- The texts that have the form of a transaction hash. -/
def IsTxHash (text : String) : Prop :=
  text.length = 64 ∧ ∀ c ∈ text.toList, c ∈ "0123456789abcdef".toList

instance (text : String) : Decidable (IsTxHash text) := inferInstanceAs (Decidable (_ ∧ _))

/-- What `notifyMerchantsOfAtRiskSubscriptions` sends: one notification for each merchant, about all
its entries. `stringify` makes the trace context of them. -/
def notifyMerchantsOfAtRiskSubscriptions (stringify : List TtlAtRiskEntry → String)
    (entries : List TtlAtRiskEntry) (now : ℕ) : List WebhookPayload :=
  (InsertionMap.group (entries.map fun entry => (entry.merchant, entry))).entries.map
    fun (merchant, subs) =>
      { event := .paymentFailed
        subscriber := ",".intercalate (subs.map TtlAtRiskEntry.subscriber)
        merchant := merchant
        amount := "0"
        timestamp := now / 1000
        traceContext := some (stringify subs) }

/-- A call of `notifyWebhooks`: for an event of a transaction, for a retry, for an escalation, or
for the subscriptions that are at risk. Retries belong to a round, and the last to a check. -/
inductive NotifyCall
  | transactionEvent (txHash : {text : String // IsTxHash text}) (payload : WebhookPayload)
  | retry (job : RetryJobData) (round : ℕ)
  | maxRetriesExceeded (params : RetryParams) (round : ℕ)
  | ttlAtRisk (payload : WebhookPayload) (stringify : List TtlAtRiskEntry → String)
      (entries : List TtlAtRiskEntry) (check now : ℕ)
      (sent : payload ∈ notifyMerchantsOfAtRiskSubscriptions stringify entries now)

/-- What a call is about: an event of a transaction, or the retries of a pair, or a merchant whose
subscriptions are at risk. -/
inductive Occurrence
  | event (txHash : String) (eventIndex : ℕ)
  | retries (subscriber merchant : String) (round : ℕ)
  | atRisk (subscribers merchant : String) (check : ℕ)
  deriving DecidableEq, Repr

namespace NotifyCall

/-- What is sent. -/
def payload (call : NotifyCall) (now : ℕ) : WebhookPayload :=
  match call with
  | transactionEvent txHash payload => { payload with txHash := some txHash.val }
  | retry job _ => job.payload now
  | maxRetriesExceeded params _ => params.escalation now
  | ttlAtRisk payload .. => payload

def occurrence : NotifyCall → Occurrence
  | transactionEvent txHash payload => .event txHash.val (payload.eventIndex.getD 0)
  | retry job round => .retries job.subscriber job.merchant round
  | maxRetriesExceeded params round => .retries params.subscriber params.merchant round
  | ttlAtRisk payload _ _ check _ _ => .atRisk payload.subscriber payload.merchant check

/-- The call is one of `emitMaxRetriesExceeded`. -/
def IsEscalation : NotifyCall → Prop
  | maxRetriesExceeded .. => True
  | transactionEvent .. | retry .. | ttlAtRisk .. => False

/-- The id under which a call sends. -/
def eventId (crypto : Crypto) (call : NotifyCall) (now : ℕ) (uuid : String) : String :=
  eventIdOf crypto (call.payload now) uuid

end NotifyCall

/-- A call made at some time, with what it meets. -/
structure MadeCall where
  call : NotifyCall
  now : ℕ
  input : NotifyInput

/-- The id under which the call sends. -/
def MadeCall.eventId (crypto : Crypto) (made : MadeCall) : String :=
  made.call.eventId crypto made.now made.input.uuid

/-- What the call sends. -/
def MadeCall.posts (crypto : Crypto) (made : MadeCall) : List Post :=
  (notifyWebhooks crypto made.input (made.call.payload made.now) made.now).1.posts

/-- What is asked for of two calls: their ids differ, each sends under one id, and the ids of events
of transactions determine them. -/
structure IdentifiesNotifications (crypto : Crypto) (made made' : MadeCall) : Prop where
  differ : made.eventId crypto ≠ made'.eventId crypto
  constant : (∀ post ∈ made.posts crypto, post.body.eventId = made.eventId crypto) ∧
    ∀ post ∈ made'.posts crypto, post.body.eventId = made'.eventId crypto
  injective : ∀ txHash txHash' eventIndex eventIndex', IsTxHash txHash → IsTxHash txHash' →
    deriveEventId crypto txHash eventIndex = deriveEventId crypto txHash' eventIndex' →
    txHash = txHash' ∧ eventIndex = eventIndex'

/-! ### Ids -/

variable {crypto : Crypto} {txHash txHash' : String} {eventIndex eventIndex' : ℕ}
  {made made' : MadeCall}

/-- What is hashed for an event, as the hash of its transaction and its index. -/
theorem append_index_injective (h : txHash.length = txHash'.length)
    (heq : txHash ++ toString eventIndex = txHash' ++ toString eventIndex') :
    txHash = txHash' ∧ eventIndex = eventIndex' := by
  have hlists := congrArg String.toList heq
  rw [String.toList_append, String.toList_append] at hlists
  obtain ⟨hhash, hindex⟩ := List.append_inj hlists h
  exact ⟨String.toList_inj.1 hhash, repr_eq_repr_iff.1 (String.toList_inj.1 hindex)⟩

/-- **Ids of events.** Different events of transactions have different ids. -/
theorem deriveEventId_injective (hsha : Function.Injective crypto.sha256Hex)
    (h : IsTxHash txHash) (h' : IsTxHash txHash')
    (heq : deriveEventId crypto txHash eventIndex = deriveEventId crypto txHash' eventIndex') :
    txHash = txHash' ∧ eventIndex = eventIndex' :=
  append_index_injective (h.1.trans h'.1.symm) (hsha heq)

/-- A call sends under its id, to all endpoints and at all attempts. -/
theorem eventId_of_mem_posts {post : Post} (h : post ∈ made.posts crypto) :
    post.body.eventId = made.eventId crypto := by
  rw [(exists_endpoint_and_body_of_mem_posts h).2]
  rfl

/-- The text that the id of a call is the hash of, if it is one. -/
def NotifyCall.hashed : NotifyCall → Option String
  | transactionEvent txHash payload => some (txHash.val ++ toString (payload.eventIndex.getD 0))
  | maxRetriesExceeded .. => some ("max_retries_exceeded" ++ toString 0)
  | retry .. | ttlAtRisk .. => none

theorem eventId_eq (crypto : Crypto) (made : MadeCall) :
    made.eventId crypto = made.call.hashed.elim made.input.uuid crypto.sha256Hex := by
  obtain ⟨call, now, input⟩ := made
  cases call with
  | transactionEvent txHash payload =>
    have hpresent : txHash.val ≠ "" := by
      intro hempty
      have hlength := txHash.property.1
      rw [hempty] at hlength
      exact absurd hlength (by decide)
    have hfilter : (some txHash.val).filter (· ≠ "") = some txHash.val := by
      rw [Option.filter_some, if_pos]
      simpa using hpresent
    simp only [MadeCall.eventId, NotifyCall.eventId, NotifyCall.payload, eventIdOf, hfilter]
    rfl
  | retry | maxRetriesExceeded => rfl
  | ttlAtRisk payload stringify entries check now' sent =>
    obtain ⟨group, -, rfl⟩ := List.mem_map.1 sent
    rfl

/-- Calls about different things hash different texts, unless both are escalations. -/
theorem hashed_eq_iff (hdifferent : made.call.occurrence ≠ made'.call.occurrence) {text : String}
    (h : made.call.hashed = some text) :
    made'.call.hashed = some text ↔ made.call.IsEscalation ∧ made'.call.IsEscalation := by
  have hmarker : ∀ (txHash : {text : String // IsTxHash text}) (eventIndex : ℕ),
      txHash.val ++ toString eventIndex ≠ "max_retries_exceeded" ++ toString 0 := by
    intro txHash eventIndex heq
    have hlength := congrArg String.length heq
    have hshort : ("max_retries_exceeded" ++ toString 0).length = 21 := by decide
    rw [String.length_append, txHash.property.1, hshort] at hlength
    omega
  obtain ⟨call, now, input⟩ := made
  obtain ⟨call', now', input'⟩ := made'
  cases call with
  | transactionEvent txHash payload =>
    obtain rfl := Option.some.inj h
    refine iff_of_false (fun h' => ?_) fun hboth => hboth.1
    cases call' with
    | transactionEvent txHash' payload' =>
      obtain ⟨hhash, hindex⟩ := append_index_injective
        (txHash'.property.1.trans txHash.property.1.symm) (Option.some.inj h')
      exact hdifferent (congrArg₂ Occurrence.event hhash.symm hindex.symm)
    | maxRetriesExceeded => exact hmarker _ _ (Option.some.inj h').symm
    | retry | ttlAtRisk => cases h'
  | maxRetriesExceeded params round =>
    obtain rfl := Option.some.inj h
    cases call' with
    | transactionEvent txHash' payload' =>
      exact iff_of_false (fun h' => hmarker _ _ (Option.some.inj h')) fun hboth => hboth.2
    | maxRetriesExceeded => exact iff_of_true rfl ⟨trivial, trivial⟩
    | retry | ttlAtRisk => exact iff_of_false nofun fun hboth => hboth.2
  | retry | ttlAtRisk => cases h

/-- **Ids of notifications.** Let the hash be injective, and random ids be different and no hashes.
For two calls about different things, ids identify notifications exactly if not both calls are
escalations. -/
theorem identifiesNotifications_iff (hsha : Function.Injective crypto.sha256Hex)
    (hrandom : ∀ text, crypto.sha256Hex text ≠ made.input.uuid)
    (hrandom' : ∀ text, crypto.sha256Hex text ≠ made'.input.uuid)
    (hfresh : made.input.uuid ≠ made'.input.uuid)
    (hdifferent : made.call.occurrence ≠ made'.call.occurrence) :
    IdentifiesNotifications crypto made made' ↔
      ¬ (made.call.IsEscalation ∧ made'.call.IsEscalation) := by
  have hsame : made.eventId crypto = made'.eventId crypto ↔
      made.call.IsEscalation ∧ made'.call.IsEscalation := by
    rw [eventId_eq, eventId_eq]
    cases h : made.call.hashed with
    | none =>
      have hno : ¬ made.call.IsEscalation := by
        intro hescalation
        cases hcall : made.call <;> simp [hcall, NotifyCall.hashed, NotifyCall.IsEscalation] at *
      refine iff_of_false (fun heq => ?_) fun hboth => hno hboth.1
      cases h' : made'.call.hashed with
      | none =>
        rw [h'] at heq
        exact hfresh heq
      | some text' =>
        rw [h'] at heq
        exact hrandom text' heq.symm
    | some text =>
      rw [← hashed_eq_iff hdifferent h]
      cases h' : made'.call.hashed with
      | none => exact iff_of_false (hrandom' text) nofun
      | some text' =>
        rw [Option.elim_some, Option.elim_some, hsha.eq_iff, Option.some.injEq]
        exact eq_comm
  rw [← hsame]
  exact ⟨fun h => h.differ, fun h => ⟨h, ⟨fun _ => eventId_of_mem_posts,
    fun _ => eventId_of_mem_posts⟩, fun _ _ _ _ htx htx' => deriveEventId_injective hsha htx htx'⟩⟩

/-- A hash for the samples. -/
def prefixCrypto : Crypto := ⟨fun text => "sha256:" ++ text, fun _ _ => .ok ""⟩

/-- The escalation of the first round of retries of a pair. -/
def sampleEscalation (subscriber merchant uuid : String) : MadeCall where
  call := .maxRetriesExceeded ⟨subscriber, merchant, "100", "CTOKEN"⟩ 1
  now := 604800000
  input := { sampleNotifyInput [] with uuid }

/-- The call of a retry. -/
def sampleRetry (uuid : String) : MadeCall where
  call := .retry sampleJob 2
  now := 86400000
  input := { sampleNotifyInput [] with uuid }

theorem sha256Hex_prefixCrypto_injective : Function.Injective prefixCrypto.sha256Hex :=
  fun _ _ h => (String.append_right_inj _).1 h

theorem sha256Hex_prefixCrypto_ne {uuid : String} (h : uuid.toList.head? ≠ some 's')
    (text : String) : prefixCrypto.sha256Hex text ≠ uuid := by
  rintro rfl
  refine h ?_
  rw [prefixCrypto, String.toList_append]
  rfl

theorem identifiesNotifications_sample :
    IdentifiesNotifications prefixCrypto (sampleEscalation "GSUB" "GMER" "1b4e28ba")
        (sampleRetry "6fa459ea") ↔
      ¬ ((sampleEscalation "GSUB" "GMER" "1b4e28ba").call.IsEscalation ∧
        (sampleRetry "6fa459ea").call.IsEscalation) :=
  identifiesNotifications_iff sha256Hex_prefixCrypto_injective
    (sha256Hex_prefixCrypto_ne (by decide)) (sha256Hex_prefixCrypto_ne (by decide)) (by decide)
    (by decide)

/-- The escalations of two subscribers of two merchants are sent under the same id. -/
theorem not_identifiesNotifications_escalations :
    (sampleEscalation "GSUB" "GMER" "1b4e28ba").call.occurrence ≠
        (sampleEscalation "GOTHER" "GSHOP" "6fa459ea").call.occurrence ∧
      ¬ IdentifiesNotifications prefixCrypto (sampleEscalation "GSUB" "GMER" "1b4e28ba")
        (sampleEscalation "GOTHER" "GSHOP" "6fa459ea") :=
  ⟨by decide, fun h => h.differ rfl⟩

end SorobanPay.WebhookNotifier
