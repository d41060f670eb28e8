import SorobanPay.Backend.RetryQueue

/-!
# The verification of incoming webhooks

`verifyWebhookSignature` of `routes/webhooks.ts` lets a request through if its timestamp is close to
the clock, its delivery ID has not been seen of late, and its signature is that of the timestamp and
the body. The delivery IDs are kept in a `ReplayCache`. An ID is marked before the signature is
checked, and a signature that is wrong empties the cache.

HMAC-SHA256 is a parameter: the hexadecimal digest under a secret. A request comes with the readings
of the clock at the check of its timestamp and in `markSeen`, in milliseconds. The header values are
texts, and a body that is no buffer is left out.

## Main definitions

* `ReplayCache`, `markSeenWith`, `markSeen`: the delivery IDs that have been seen.
* `computeSignature`, `verifySignature`: the signatures.
* `verifyWebhookSignature`: the middleware.

## Main results

* `hasSeen_markSeenWith`: what has been seen after an ID is marked.
* `verifySignature_iff`: which signatures are right.
* `outcome_verifyWebhookSignature`: what the middleware does.
-/

set_option autoImplicit false

namespace SorobanPay.WebhookIngestion

open Foundation

/-! ### The configuration -/

/-- The allowed skew of the clock, in seconds. -/
def timestampToleranceSeconds : ℕ := 300

/-- How long delivery IDs are kept, in seconds. -/
def replayWindowSeconds : ℕ := 600

def headerSignature : String := "x-sorobanpay-signature"

def headerTimestamp : String := "x-sorobanpay-timestamp"

def headerDeliveryId : String := "x-sorobanpay-delivery-id"

/-- The default of the constructor of `ReplayCache`. -/
def maxSize : ℕ := 10000

/-! ### The replay cache -/

/-- When each delivery ID has been seen. -/
abbrev ReplayCache : Type := InsertionMap String ℕ

/-- The last moment at which an ID that has been seen is taken for a replay. -/
def windowEnd (seenAt : ℕ) : ℕ := seenAt + 1000 * replayWindowSeconds

namespace ReplayCache

/-- `prune`. -/
def prune (cache : ReplayCache) (now : ℕ) : ReplayCache :=
  cache.filter fun _ seenAt => now ≤ windowEnd seenAt

/-- `hasSeen`. -/
def hasSeen (cache : ReplayCache) (now : ℕ) (deliveryId : String) : Bool :=
  (cache.get deliveryId).any fun seenAt => now ≤ windowEnd seenAt

/-- `markSeen` of a cache that was constructed with this size; the answer is whether the ID is new.
-/
def markSeenWith (size : ℕ) (cache : ReplayCache) (now : ℕ) (deliveryId : String) :
    ReplayCache × Bool :=
  if cache.hasSeen now deliveryId then (cache, false)
  else
    let cache := if size ≤ cache.entries.length then cache.prune now else cache
    (cache.set deliveryId now, true)

/-- `markSeen` of a cache of the default size. -/
def markSeen (cache : ReplayCache) (now : ℕ) (deliveryId : String) : ReplayCache × Bool :=
  cache.markSeenWith maxSize now deliveryId

end ReplayCache

/-! ### Signatures -/

section Signatures

variable (hmac : String → List UInt8 → String)

/-- `computeSignature`. -/
def computeSignature (secret timestamp : String) (rawBody : List UInt8) : String :=
  hmac secret ((timestamp ++ ".").toUTF8.data.toList ++ rawBody)

/-- `verifySignature`: the signature is brought to the expected length, compared, and then its
length is compared. -/
def verifySignature (secret timestamp : String) (rawBody : List UInt8) (signature : String) :
    Bool :=
  let expected := (computeSignature hmac secret timestamp rawBody).toList
  let received := (signature.toList.rightpad expected.length '\x00').take expected.length
  expected = received && signature.toList.length = expected.length

end Signatures

/-! ### The middleware -/

/-- The answers to a request that is not let through. -/
inductive Rejection
  | webhookSecretMissing
  | missingHeaders
  | invalidTimestamp
  | timestampTooOld
  | replayDetected
  | rawBodyMissing
  | invalidSignature
  deriving DecidableEq, Repr

namespace Rejection

def status : Rejection → ℕ
  | webhookSecretMissing => 503
  | missingHeaders | invalidTimestamp | timestampTooOld | replayDetected => 400
  | rawBodyMissing => 500
  | invalidSignature => 401

def code : Rejection → String
  | webhookSecretMissing => "WEBHOOK_SECRET_MISSING"
  | missingHeaders => "MISSING_HEADERS"
  | invalidTimestamp => "INVALID_TIMESTAMP"
  | timestampTooOld => "TIMESTAMP_TOO_OLD"
  | replayDetected => "REPLAY_DETECTED"
  | rawBodyMissing => "RAW_BODY_MISSING"
  | invalidSignature => "INVALID_SIGNATURE"

def error : Rejection → String
  | webhookSecretMissing => "Webhook verification unavailable"
  | missingHeaders => "Missing required headers"
  | invalidTimestamp => "Invalid timestamp"
  | timestampTooOld => "Timestamp outside tolerance window — possible replay attack"
  | replayDetected => "Delivery ID already seen — replay rejected"
  | rawBodyMissing => "Server configuration error"
  | invalidSignature => "Signature verification failed"

/-- The headers that an answer asks for. -/
def required : Rejection → List String
  | missingHeaders => [headerSignature, headerTimestamp, headerDeliveryId]
  | _ => []

end Rejection

/-- A request, and when the clock is read while it is verified. -/
structure Arrival where
  headers : String → Option String
  body : Option (List UInt8)
  received : ℕ
  marked : ℕ

namespace Arrival

variable (a : Arrival)

def signature : String := (a.headers headerSignature).getD ""

def timestamp : String := (a.headers headerTimestamp).getD ""

def deliveryId : String := (a.headers headerDeliveryId).getD ""

end Arrival

/-- `parseInt` of the header, in base 10. -/
def parseTimestamp (timestamp : String) : Option ℤ := RetryQueue.parseInt timestamp

section Middleware

variable (hmac : String → List UInt8 → String)

/-- `verifyWebhookSignature`: the cache, and the answer if the request is not let through. -/
def verifyWebhookSignature (webhookSecret : Option String) (cache : ReplayCache) (a : Arrival) :
    ReplayCache × Option Rejection :=
  match webhookSecret.filter (· ≠ "") with
  | none => (cache, some .webhookSecretMissing)
  | some secret =>
    if a.signature = "" ∨ a.timestamp = "" ∨ a.deliveryId = "" then (cache, some .missingHeaders)
    else
      match parseTimestamp a.timestamp with
      | none => (cache, some .invalidTimestamp)
      | some tsSeconds =>
        let nowSeconds : ℤ := a.received / 1000
        if timestampToleranceSeconds < (nowSeconds - tsSeconds).natAbs then
          (cache, some .timestampTooOld)
        else
          match cache.markSeen a.marked a.deliveryId with
          | (cache, false) => (cache, some .replayDetected)
          | (cache, true) =>
            match a.body with
            | none => (cache, some .rawBodyMissing)
            | some rawBody =>
              if verifySignature hmac secret a.timestamp rawBody a.signature then (cache, none)
              else (.empty, some .invalidSignature)

/-! ### What the middleware does -/

section Cache

variable {cache : ReplayCache} {now t : ℕ} {deliveryId id : String}

theorem markSeen_of_hasSeen (hseen : cache.hasSeen now deliveryId = true) :
    cache.markSeen now deliveryId = (cache, false) := by
  rw [ReplayCache.markSeen, ReplayCache.markSeenWith, if_pos hseen]

theorem markSeen_of_new (hnew : cache.hasSeen now deliveryId = false) :
    cache.markSeen now deliveryId = ((cache.markSeen now deliveryId).1, true) := by
  rw [ReplayCache.markSeen, ReplayCache.markSeenWith, if_neg (by simp [hnew])]

/-- What has been seen after a new ID is marked. Entries that are pruned are out of their window. -/
theorem hasSeen_markSeenWith (size : ℕ) (hnew : cache.hasSeen now deliveryId = false)
    (ht : now ≤ t) : (cache.markSeenWith size now deliveryId).1.hasSeen t id = true ↔
      if id = deliveryId then t ≤ windowEnd now else cache.hasSeen t id = true := by
  have hprune : (cache.prune now).hasSeen t id = cache.hasSeen t id := by
    rw [ReplayCache.hasSeen, ReplayCache.hasSeen, ReplayCache.prune, InsertionMap.get_filter]
    rcases cache.get id with _ | seenAt
    · rfl
    · by_cases hkept : now ≤ windowEnd seenAt
      · simp [hkept]
      · have hexpired : ¬ t ≤ windowEnd seenAt := fun hle => hkept (ht.trans hle)
        simp [hkept, hexpired]
  rw [ReplayCache.markSeenWith, hnew]
  simp only [Bool.false_eq_true, if_false]
  split_ifs with hsize hid hid
  · simp [ReplayCache.hasSeen, InsertionMap.get_set, hid]
  · rw [← hprune]
    simp [ReplayCache.hasSeen, InsertionMap.get_set, hid]
  · simp [ReplayCache.hasSeen, InsertionMap.get_set, hid]
  · simp [ReplayCache.hasSeen, InsertionMap.get_set, hid]

/-- What has been seen after a new ID is marked in a cache of the default size. -/
theorem hasSeen_markSeen (hnew : cache.hasSeen now deliveryId = false) (ht : now ≤ t) :
    (cache.markSeen now deliveryId).1.hasSeen t id = true ↔
      if id = deliveryId then t ≤ windowEnd now else cache.hasSeen t id = true :=
  hasSeen_markSeenWith maxSize hnew ht

end Cache

/-- A signature is right if it is the computed one. -/
theorem verifySignature_iff {secret timestamp signature : String} {rawBody : List UInt8} :
    verifySignature hmac secret timestamp rawBody signature = true ↔
      signature = computeSignature hmac secret timestamp rawBody := by
  rw [verifySignature, Bool.and_eq_true, decide_eq_true_iff, decide_eq_true_iff,
    ← String.toList_inj]
  constructor
  · rintro ⟨hreceived, hlength⟩
    rw [List.rightpad, ← hlength, Nat.sub_self, List.replicate_zero, List.append_nil,
      List.take_length] at hreceived
    exact hreceived.symm
  · intro hsignature
    rw [hsignature]
    simp [List.rightpad]

/-- A request that passes every check but that of the cache. -/
structure Arrival.Genuine (webhookSecret : Option String) (a : Arrival) (rawBody : List UInt8) :
    Prop where
  headers : a.signature ≠ "" ∧ a.timestamp ≠ "" ∧ a.deliveryId ≠ ""
  timely : ∃ tsSeconds, parseTimestamp a.timestamp = some tsSeconds ∧
    ((a.received / 1000 : ℤ) - tsSeconds).natAbs ≤ timestampToleranceSeconds
  body : a.body = some rawBody
  signed : ∃ secret ≠ "", webhookSecret = some secret ∧
    a.signature = computeSignature hmac secret a.timestamp rawBody

/-- What can become of a request. -/
inductive Outcome (webhookSecret : Option String) (cache : ReplayCache) (a : Arrival) :
    ReplayCache → Option Rejection → Prop
  | refused {rejection : Rejection} (h : rejection ≠ .invalidSignature) :
      Outcome webhookSecret cache a cache (some rejection)
  | bodyMissing (hnew : cache.hasSeen a.marked a.deliveryId = false) :
      Outcome webhookSecret cache a (cache.markSeen a.marked a.deliveryId).1 (some .rawBodyMissing)
  | cleared : Outcome webhookSecret cache a .empty (some .invalidSignature)
  | accepted {rawBody : List UInt8} (hgenuine : a.Genuine hmac webhookSecret rawBody)
      (hnew : cache.hasSeen a.marked a.deliveryId = false) :
      Outcome webhookSecret cache a (cache.markSeen a.marked a.deliveryId).1 none

variable {webhookSecret : Option String} {cache : ReplayCache} {a : Arrival}

/-- A request that passes every check is let through, if its ID has not been seen. -/
theorem verifyWebhookSignature_of_genuine {rawBody : List UInt8}
    (hgenuine : a.Genuine hmac webhookSecret rawBody)
    (hnew : cache.hasSeen a.marked a.deliveryId = false) :
    verifyWebhookSignature hmac webhookSecret cache a =
      ((cache.markSeen a.marked a.deliveryId).1, none) := by
  obtain ⟨⟨hsignature, htimestamp, hid⟩, ⟨ts, hts, hskew⟩, hbody, secret, hsecret, rfl, hsigned⟩ :=
    hgenuine
  have hfilter : (some secret).filter (· ≠ "") = some secret := by simp [Option.filter, hsecret]
  have hheaders : ¬ (a.signature = "" ∨ a.timestamp = "" ∨ a.deliveryId = "") := by
    simp [hsignature, htimestamp, hid]
  rw [verifyWebhookSignature, hfilter]
  simp only [if_neg hheaders, hts]
  rw [if_neg (Nat.not_lt.2 hskew), markSeen_of_new hnew]
  simp only [hbody]
  rw [if_pos (verifySignature_iff hmac |>.2 hsigned)]

/-- **What the middleware does.** -/
theorem outcome_verifyWebhookSignature (webhookSecret : Option String) (cache : ReplayCache)
    (a : Arrival) :
    Outcome hmac webhookSecret cache a (verifyWebhookSignature hmac webhookSecret cache a).1
      (verifyWebhookSignature hmac webhookSecret cache a).2 := by
  unfold verifyWebhookSignature
  split
  · exact .refused (by decide)
  rename_i secret hsecret
  obtain ⟨rfl, hsecret⟩ := Option.filter_eq_some_iff.1 hsecret
  split_ifs with hheaders
  · exact .refused (by decide)
  split
  · exact .refused (by decide)
  rename_i ts hts
  dsimp only
  split_ifs with hskew
  · exact .refused (by decide)
  rcases hnew : cache.hasSeen a.marked a.deliveryId with _ | _
  · rw [markSeen_of_new hnew]
    rcases hbody : a.body with _ | rawBody
    · exact .bodyMissing hnew
    · dsimp only
      split_ifs with hsigned
      · refine .accepted ⟨?_, ⟨ts, hts, Nat.not_lt.1 hskew⟩, hbody, secret, ?_, rfl, ?_⟩ hnew
        · simpa only [not_or] using hheaders
        · simpa using hsecret
        · exact (verifySignature_iff hmac).1 hsigned
      · exact .cleared
  · rw [markSeen_of_hasSeen hnew]
    exact .refused (by decide)

end Middleware

end SorobanPay.WebhookIngestion
