import Mathlib.Data.Nat.Notation
import SorobanPay.Foundation.Transaction

/-!
# The webhook notifier

`notifyWebhooks` of `services/webhookNotifier.ts` sends an event to the endpoints that its merchant
has registered, and `deliverWithRetry` makes up to five attempts at each of them. The queue that
`notifyWebhooks` would prefer is not there, so that it delivers directly.

The hash and the signature are parameters. The name of the function that signs is exported again but
not imported, so that the reference to it may throw. What the endpoints answer, how the statements
end and how long an attempt takes is part of the input. Deliveries to several endpoints do not
share anything, and each of them is followed by itself.

## Main definitions

* `deriveEventId`, `applicableEndpoints`: what is sent, and where.
* `attemptDelivery`, `deliverWithRetry`: the attempts at one endpoint.
* `notifyWebhooks`: all endpoints of the merchant.
* `Swallowed`, `Silent`: failures that the caller does not learn of.

## Main results

* `silent_deliverWithRetry_iff`, `silent_notifyWebhooks_iff`: when a delivery reaches nobody and
  does not throw.
* `exists_endpoint_and_body_of_mem_posts`: where the POSTs go, and what they carry.
-/

set_option autoImplicit false

namespace SorobanPay.WebhookNotifier

open Foundation

/-! ### Events and endpoints -/

inductive WebhookEventType
  | paymentExecuted
  | paymentFailed
  | subscriptionCancelled
  deriving DecidableEq, Repr

def WebhookEventType.name : WebhookEventType → String
  | .paymentExecuted => "payment.executed"
  | .paymentFailed => "payment.failed"
  | .subscriptionCancelled => "subscription.cancelled"

structure WebhookPayload where
  event : WebhookEventType
  subscriber : String
  merchant : String
  amount : String
  txHash : Option String := none
  eventIndex : Option ℕ := none
  timestamp : ℕ
  traceContext : Option String := none
  deriving DecidableEq, Repr

/-- The body of a POST. -/
structure WebhookBody extends WebhookPayload where
  eventId : String
  deriving DecidableEq, Repr

/-- The body of the POSTs that send an event. -/
def WebhookPayload.body (payload : WebhookPayload) (eventId : String) : WebhookBody :=
  { payload with eventId }

/-- A row of the registered endpoints. -/
structure WebhookEndpoint where
  id : ℕ
  merchant : String
  url : String
  active : Bool
  secret : Option String
  events : String
  deriving DecidableEq, Repr

/-- The hash and the signature. -/
structure Crypto where
  sha256Hex : String → String
  signPayload : WebhookBody → String → Except String String

/-- The id of an event on the chain. -/
def deriveEventId (crypto : Crypto) (txHash : String) (eventIndex : ℕ) : String :=
  crypto.sha256Hex (txHash ++ toString eventIndex)

/-- The characters that `trim` removes. -/
def isTrimmed (c : Char) : Bool :=
  c.toNat ∈ [0x9, 0xa, 0xb, 0xc, 0xd, 0x20, 0xa0, 0x1680, 0x2028, 0x2029, 0x202f, 0x205f, 0x3000,
    0xfeff] ∨ 0x2000 ≤ c.toNat ∧ c.toNat ≤ 0x200a

/-- `trim`, on the characters of a text. -/
def trim (cs : List Char) : List Char :=
  ((cs.dropWhile isTrimmed).reverse.dropWhile isTrimmed).reverse

theorem toNat_of_isDigit {c : Char} (h : c.isDigit = true) : 48 ≤ c.toNat ∧ c.toNat ≤ 57 := by
  simpa [Char.isDigit, UInt32.le_iff_toNat_le] using h

theorem isTrimmed_of_isDigit {c : Char} (h : c.isDigit = true) : isTrimmed c = false := by
  have hrange := toNat_of_isDigit h
  simp [isTrimmed]
  omega

/-- A text without white space is not trimmed. -/
theorem trim_eq_self {cs : List Char} (h : ∀ c ∈ cs, isTrimmed c = false) : trim cs = cs := by
  have hdrop : ∀ cs : List Char, (∀ c ∈ cs, isTrimmed c = false) → cs.dropWhile isTrimmed = cs := by
    intro cs hcs
    rcases cs with _ | ⟨c, cs⟩
    · rfl
    · exact List.dropWhile_cons_of_neg (by simp [hcs c List.mem_cons_self])
  rw [trim, hdrop cs h, hdrop cs.reverse (by simpa using h), List.reverse_reverse]

/-- The endpoint is sent this event; an endpoint without a list of events is sent all of them. -/
def WebhookEndpoint.Wants (ep : WebhookEndpoint) (event : WebhookEventType) : Prop :=
  ep.events = "" ∨ event.name.toList ∈ (ep.events.toList.splitOn ',').map trim

instance (ep : WebhookEndpoint) (event : WebhookEventType) : Decidable (ep.Wants event) :=
  inferInstanceAs (Decidable (_ ∨ _))

/-- The endpoints that an event is sent to. -/
def applicableEndpoints (endpoints : List WebhookEndpoint) (payload : WebhookPayload) :
    List WebhookEndpoint :=
  (endpoints.filter fun ep => ep.merchant = payload.merchant ∧ ep.active = true).filter fun ep =>
    ep.Wants payload.event

/-! ### Deliveries -/

/-- The largest number of attempts at an endpoint. -/
def maxAttempts : ℕ := 5

/-- The delays before the attempts after the first, in milliseconds. -/
def retryDelaysMs : List ℕ := [1000, 5000, 15000, 60000, 300000]

/-- How `fetch` ends. -/
inductive FetchResult
  | response (status : ℕ)
  | error (msg : String)
  deriving DecidableEq, Repr

/-- The endpoint answers with a status of 200 to 299. -/
def FetchResult.Ok : FetchResult → Prop
  | .response status => 200 ≤ status ∧ status < 300
  | .error _ => False

instance : DecidablePred FetchResult.Ok
  | .response _ => inferInstanceAs (Decidable (_ ∧ _))
  | .error _ => instDecidableFalse

/-- What an attempt meets: its id, how long it takes, how the POST ends, and how the two statements
end that may record it, that of the `try` block and that of the `catch` block. -/
structure AttemptInput where
  deliveryId : String
  elapsed : ℕ
  result : FetchResult
  created : DbReply
  caught : DbReply
  deriving DecidableEq, Repr

/-- A POST, and how it ends. -/
structure Post where
  url : String
  deliveryId : String
  timestamp : ℕ
  signature : Option String
  body : WebhookBody
  result : FetchResult
  deriving DecidableEq, Repr

/-- The record of an attempt. -/
structure DeliveryRecord where
  eventId : String
  deliveryId : String
  url : String
  merchant : String
  event : WebhookEventType
  payload : WebhookBody
  statusCode : ℕ
  attempt : ℕ
  success : Bool
  error : Option String
  endpointId : ℕ
  deriving DecidableEq, Repr

/-- What has been sent and recorded. -/
structure Sent where
  posts : List Post
  records : List DeliveryRecord
  deriving DecidableEq, Repr

def Sent.append (sent sent' : Sent) : Sent :=
  ⟨sent.posts ++ sent'.posts, sent.records ++ sent'.records⟩

/-- The record that a statement leaves. -/
def recorded (reply : DbReply) (record : DeliveryRecord) : List DeliveryRecord :=
  if reply.outcome = .failed then [] else [record]

/-- The header with the signature, for an endpoint with a secret. -/
def signatureOf (crypto : Crypto) (ep : WebhookEndpoint) (body : WebhookBody) :
    Except String (Option String) :=
  match ep.secret.filter (· ≠ "") with
  | none => .ok none
  | some secret => (crypto.signPayload body secret).map some

/-- One round of the loop of `deliverWithRetry`, at the time `now`. It returns, throws, or leads to
the next round. -/
def attemptDelivery (crypto : Crypto) (ep : WebhookEndpoint) (body : WebhookBody) (attempt now : ℕ)
    (input : AttemptInput) : Sent × Option (Except String Unit) :=
  match signatureOf crypto ep body with
  | .error msg => (⟨[], []⟩, some (.error msg))
  | .ok signature =>
    let post : Post :=
      ⟨ep.url, input.deliveryId, now / 1000, signature, body, input.result⟩
    let record : ℕ → Bool → Option String → DeliveryRecord := fun statusCode success error =>
      ⟨body.eventId, input.deliveryId, ep.url, body.merchant, body.event, body, statusCode,
        attempt + 1, success, error, ep.id⟩
    let caught : List DeliveryRecord → String → Sent × Option (Except String Unit) :=
      fun records msg =>
        (⟨[post], records ++ recorded input.caught (record 0 false (some msg))⟩,
          if input.caught.outcome = .acknowledged then none else some (.error input.caught.err))
    match input.result with
    | .error msg => caught [] msg
    | .response status =>
      let created := recorded input.created (record status (decide input.result.Ok) none)
      if input.created.outcome = .acknowledged then
        (⟨[post], created⟩, if input.result.Ok then some (.ok ()) else none)
      else caught created input.created.err

/-- The rest of the loop of `deliverWithRetry`. When there are no attempts left, it returns. -/
def deliverFrom (crypto : Crypto) (ep : WebhookEndpoint) (body : WebhookBody)
    (inputs : ℕ → AttemptInput) : ℕ → List ℕ → Sent × Except String Unit
  | _, [] => (⟨[], []⟩, .ok ())
  | now, attempt :: rest =>
    let start := if 0 < attempt then now + retryDelaysMs.getD (attempt - 1) 0 else now
    match attemptDelivery crypto ep body attempt start (inputs attempt) with
    | (sent, some result) => (sent, result)
    | (sent, none) =>
      let after := deliverFrom crypto ep body inputs (start + (inputs attempt).elapsed) rest
      (sent.append after.1, after.2)

def deliverWithRetry (crypto : Crypto) (ep : WebhookEndpoint) (payload : WebhookPayload)
    (eventId : String) (inputs : ℕ → AttemptInput) (now : ℕ) : Sent × Except String Unit :=
  deliverFrom crypto ep (payload.body eventId) inputs now (List.range maxAttempts)

/-- What `notifyWebhooks` meets: how the query of the endpoints ends, a random id, the attempts at
each endpoint, and which of the deliveries that are rejected is so first. -/
structure NotifyInput where
  endpoints : List WebhookEndpoint
  query : DbReply
  uuid : String
  attempts : ℕ → ℕ → AttemptInput
  first : ℕ

/-- `Promise.all`: it is rejected as the first of the promises that are. -/
def promiseAll (first : ℕ) (results : List (Except String Unit)) : Except String Unit :=
  match results.filter (· ≠ .ok ()) with
  | [] => .ok ()
  | result :: rest => (result :: rest).getD first result

/-- The id that `notifyWebhooks` gives to an event. -/
def eventIdOf (crypto : Crypto) (payload : WebhookPayload) (uuid : String) : String :=
  match payload.txHash.filter (· ≠ "") with
  | some txHash => deriveEventId crypto txHash (payload.eventIndex.getD 0)
  | none => uuid

def notifyWebhooks (crypto : Crypto) (input : NotifyInput) (payload : WebhookPayload) (now : ℕ) :
    Sent × Except String Unit :=
  if input.query.outcome = .acknowledged then
    let eventId := eventIdOf crypto payload input.uuid
    let deliveries := (applicableEndpoints input.endpoints payload).map fun ep =>
      deliverWithRetry crypto ep payload eventId (input.attempts ep.id) now
    (⟨deliveries.flatMap fun delivery => delivery.1.posts,
        deliveries.flatMap fun delivery => delivery.1.records⟩,
      promiseAll input.first (deliveries.map Prod.snd))
  else (⟨[], []⟩, .error input.query.err)

/-! ### Failures that are swallowed -/

variable {crypto : Crypto} {ep : WebhookEndpoint} {body : WebhookBody} {payload : WebhookPayload}
  {attempt now : ℕ} {input : AttemptInput} {inputs : ℕ → AttemptInput}

/-- Some POST has been answered with success. -/
def Sent.Reaches (sent : Sent) : Prop := ∃ post ∈ sent.posts, post.result.Ok

/-- An attempt ends in the `catch` block, and its failure cannot be recorded. -/
def AttemptInput.Unrecorded (input : AttemptInput) : Prop :=
  (input.created.outcome ≠ .acknowledged ∨ ∃ msg, input.result = .error msg) ∧
    input.caught.outcome ≠ .acknowledged

/-- An attempt neither is answered with success nor throws. -/
structure Swallowed (crypto : Crypto) (ep : WebhookEndpoint) (body : WebhookBody)
    (input : AttemptInput) : Prop where
  signed : ∃ signature, signatureOf crypto ep body = .ok signature
  failed : ¬ input.result.Ok
  recorded : ¬ input.Unrecorded

/-- A delivery reaches nobody and does not throw. -/
def Silent (delivery : Sent × Except String Unit) : Prop :=
  ¬ delivery.1.Reaches ∧ delivery.2 = .ok ()

/-- An attempt that is signed makes one POST. -/
theorem posts_attemptDelivery {signature : Option String}
    (h : signatureOf crypto ep body = .ok signature) :
    (attemptDelivery crypto ep body attempt now input).1.posts =
      [⟨ep.url, input.deliveryId, now / 1000, signature, body, input.result⟩] := by
  simp only [attemptDelivery, h]
  cases input.result with
  | error msg => rfl
  | response status =>
    dsimp only
    split_ifs <;> rfl

/-- Where the POSTs of an attempt go, and what they carry. -/
theorem of_mem_posts_attemptDelivery {post : Post}
    (h : post ∈ (attemptDelivery crypto ep body attempt now input).1.posts) :
    post.url = ep.url ∧ post.body = body := by
  cases hsign : signatureOf crypto ep body with
  | error msg =>
    rw [attemptDelivery, hsign] at h
    cases h
  | ok signature =>
    rw [posts_attemptDelivery hsign, List.mem_singleton] at h
    rw [h]
    exact ⟨rfl, rfl⟩

/-- How an attempt that is signed ends. -/
theorem attemptDelivery_snd {signature : Option String}
    (h : signatureOf crypto ep body = .ok signature) :
    (input.Unrecorded → (attemptDelivery crypto ep body attempt now input).2 =
      some (.error input.caught.err)) ∧
    (¬ input.result.Ok → ¬ input.Unrecorded →
      (attemptDelivery crypto ep body attempt now input).2 = none) := by
  simp only [attemptDelivery, h, AttemptInput.Unrecorded]
  cases hresult : input.result with
  | error msg => simp
  | response status =>
    dsimp only
    split_ifs with hcreated hok hcaught <;> simp_all

theorem reaches_attemptDelivery_iff : (attemptDelivery crypto ep body attempt now input).1.Reaches ↔
    (∃ signature, signatureOf crypto ep body = .ok signature) ∧ input.result.Ok := by
  unfold Sent.Reaches
  cases hsign : signatureOf crypto ep body with
  | error msg =>
    rw [attemptDelivery, hsign]
    simp
  | ok signature =>
    rw [posts_attemptDelivery hsign]
    simp

/-- An attempt that is swallowed leads to the next one. -/
theorem swallowed_iff : Swallowed crypto ep body input ↔
    ¬ (attemptDelivery crypto ep body attempt now input).1.Reaches ∧
      (attemptDelivery crypto ep body attempt now input).2 = none := by
  rw [reaches_attemptDelivery_iff]
  constructor
  · rintro ⟨⟨signature, hsign⟩, hfailed, hrecorded⟩
    exact ⟨fun h => hfailed h.2, (attemptDelivery_snd hsign).2 hfailed hrecorded⟩
  · rintro ⟨hreaches, hnone⟩
    cases hsign : signatureOf crypto ep body with
    | error msg =>
      rw [attemptDelivery, hsign] at hnone
      cases hnone
    | ok signature =>
      refine ⟨⟨signature, hsign⟩, fun hok => hreaches ⟨⟨signature, hsign⟩, hok⟩, fun h => ?_⟩
      rw [(attemptDelivery_snd hsign).1 h] at hnone
      cases hnone

/-- An attempt returns only if it has been answered with success. -/
theorem reaches_of_attemptDelivery_eq_ok
    (h : (attemptDelivery crypto ep body attempt now input).2 = some (.ok ())) :
    (attemptDelivery crypto ep body attempt now input).1.Reaches := by
  by_contra hreaches
  have hsigned : ∃ signature, signatureOf crypto ep body = .ok signature := by
    cases hsign : signatureOf crypto ep body with
    | error msg =>
      rw [attemptDelivery, hsign] at h
      cases h
    | ok signature => exact ⟨signature, rfl⟩
  obtain ⟨signature, hsign⟩ := hsigned
  by_cases hrecorded : input.Unrecorded
  · rw [(attemptDelivery_snd hsign).1 hrecorded] at h
    cases h
  · rw [reaches_attemptDelivery_iff] at hreaches
    have hfailed : ¬ input.result.Ok := fun hok => hreaches ⟨⟨signature, hsign⟩, hok⟩
    rw [(attemptDelivery_snd hsign).2 hfailed hrecorded] at h
    cases h

theorem reaches_append {sent sent' : Sent} :
    (sent.append sent').Reaches ↔ sent.Reaches ∨ sent'.Reaches := by
  simp only [Sent.Reaches, Sent.append, List.mem_append, or_and_right, exists_or]

/-- The loop is silent if every attempt is swallowed. -/
theorem silent_deliverFrom_iff {attempts : List ℕ} :
    Silent (deliverFrom crypto ep body inputs now attempts) ↔
      ∀ attempt ∈ attempts, Swallowed crypto ep body (inputs attempt) := by
  induction attempts generalizing now with
  | nil => simp [Silent, deliverFrom, Sent.Reaches]
  | cons attempt rest ih =>
    rw [List.forall_mem_cons, deliverFrom]
    generalize (if 0 < attempt then now + retryDelaysMs.getD (attempt - 1) 0 else now) = start
    have hattempt : Swallowed crypto ep body (inputs attempt) ↔
        ¬ (attemptDelivery crypto ep body attempt start (inputs attempt)).1.Reaches ∧
          (attemptDelivery crypto ep body attempt start (inputs attempt)).2 = none := swallowed_iff
    have hreturn : (attemptDelivery crypto ep body attempt start (inputs attempt)).2 =
          some (.ok ()) →
        (attemptDelivery crypto ep body attempt start (inputs attempt)).1.Reaches :=
      reaches_of_attemptDelivery_eq_ok
    have hrest : Silent
          (deliverFrom crypto ep body inputs (start + (inputs attempt).elapsed) rest) ↔
        ∀ attempt ∈ rest, Swallowed crypto ep body (inputs attempt) := ih
    rw [hattempt, ← hrest]
    generalize attemptDelivery crypto ep body attempt start (inputs attempt) = ended at hreturn ⊢
    obtain ⟨sent, _ | result⟩ := ended
    · simp only [Silent, reaches_append, not_or, and_true, and_assoc]
    · refine ⟨fun h => ?_, fun h => ?_⟩
      · exact absurd (hreturn (congrArg some h.2)) h.1
      · cases h.1.2

theorem silent_deliverWithRetry_iff (now : ℕ) {eventId : String} :
    Silent (deliverWithRetry crypto ep payload eventId inputs now) ↔
      ∀ attempt < maxAttempts, Swallowed crypto ep (payload.body eventId) (inputs attempt) := by
  simp only [deliverWithRetry, silent_deliverFrom_iff, List.mem_range]

theorem promiseAll_eq_ok_iff {first : ℕ} {results : List (Except String Unit)} :
    promiseAll first results = .ok () ↔ ∀ result ∈ results, result = .ok () := by
  unfold promiseAll
  split
  · rename_i hnone
    simpa [List.filter_eq_nil_iff] using hnone
  · rename_i result rest hsome
    have herrors : ∀ failure ∈ result :: rest, failure ∈ results ∧ failure ≠ .ok () := by
      intro failure hfailure
      rw [← hsome, List.mem_filter] at hfailure
      exact ⟨hfailure.1, of_decide_eq_true hfailure.2⟩
    have hfirst : (result :: rest).getD first result ∈ result :: rest := by
      rw [List.getD_eq_getElem?_getD]
      cases hget : (result :: rest)[first]? with
      | none => exact List.mem_cons_self
      | some failure => exact List.mem_of_getElem? hget
    refine ⟨fun hok => absurd hok (herrors _ hfirst).2, fun hall => ?_⟩
    exact absurd (hall _ (herrors result List.mem_cons_self).1)
      (herrors result List.mem_cons_self).2

/-- **Silent notifications.** A notification reaches nobody and does not throw exactly if the
endpoints have been read and every attempt at those it applies to is swallowed. -/
theorem silent_notifyWebhooks_iff {input : NotifyInput} :
    Silent (notifyWebhooks crypto input payload now) ↔ input.query.outcome = .acknowledged ∧
      ∀ ep ∈ applicableEndpoints input.endpoints payload, ∀ attempt < maxAttempts,
        Swallowed crypto ep (payload.body (eventIdOf crypto payload input.uuid))
          (input.attempts ep.id attempt) := by
  unfold notifyWebhooks
  split_ifs with hquery
  · simp only [hquery, true_and, ← silent_deliverWithRetry_iff now, Silent, Sent.Reaches,
      promiseAll_eq_ok_iff, List.mem_flatMap, List.mem_map]
    constructor
    · rintro ⟨hreaches, hok⟩ ep hep
      refine ⟨?_, hok _ ⟨_, ⟨ep, hep, rfl⟩, rfl⟩⟩
      rintro ⟨post, hpost, hpostOk⟩
      exact hreaches ⟨post, ⟨_, ⟨ep, hep, rfl⟩, hpost⟩, hpostOk⟩
    · refine fun h => ⟨?_, ?_⟩
      · rintro ⟨post, ⟨_, ⟨ep, hep, rfl⟩, hpost⟩, hpostOk⟩
        exact (h ep hep).1 ⟨post, hpost, hpostOk⟩
      · rintro _ ⟨_, ⟨ep, hep, rfl⟩, rfl⟩
        exact (h ep hep).2
  · simp [Silent, hquery]

/-! ### Where the POSTs go -/

theorem of_mem_posts_deliverFrom {attempts : List ℕ} {post : Post}
    (h : post ∈ (deliverFrom crypto ep body inputs now attempts).1.posts) :
    post.url = ep.url ∧ post.body = body := by
  induction attempts generalizing now with
  | nil => cases h
  | cons attempt rest ih =>
    rw [deliverFrom] at h
    generalize (if 0 < attempt then now + retryDelaysMs.getD (attempt - 1) 0 else now) = start at h
    have hattempt : ∀ post ∈
        (attemptDelivery crypto ep body attempt start (inputs attempt)).1.posts,
        post.url = ep.url ∧ post.body = body := fun _ => of_mem_posts_attemptDelivery
    generalize attemptDelivery crypto ep body attempt start (inputs attempt) = ended at hattempt h
    obtain ⟨sent, _ | result⟩ := ended
    · rcases List.mem_append.1 h with h | h
      · exact hattempt post h
      · exact ih h
    · exact hattempt post h

/-- An event is sent to registered endpoints of its merchant, under its id. -/
theorem exists_endpoint_and_body_of_mem_posts {input : NotifyInput} {post : Post}
    (h : post ∈ (notifyWebhooks crypto input payload now).1.posts) :
    (∃ ep ∈ input.endpoints, ep.merchant = payload.merchant ∧ ep.url = post.url) ∧
      post.body = payload.body (eventIdOf crypto payload input.uuid) := by
  unfold notifyWebhooks at h
  split_ifs at h with hquery
  · simp only [List.mem_flatMap, List.mem_map] at h
    obtain ⟨_, ⟨ep, hep, rfl⟩, hpost⟩ := h
    simp only [applicableEndpoints, List.mem_filter, decide_eq_true_eq] at hep
    obtain ⟨hurl, hbody⟩ := of_mem_posts_deliverFrom hpost
    exact ⟨⟨ep, hep.1.1, hep.1.2.1, hurl.symm⟩, hbody⟩
  · cases h

end SorobanPay.WebhookNotifier
