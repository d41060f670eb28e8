import SorobanPay.Backend.WebhookIngestion
import SorobanPay.Foundation.Listing

/-!
# Webhooks that are let through twice

The middleware is to let a delivery ID through at most once in the replay window, and a timestamp
with a body at most once. It keeps the first promise as long as no wrong signature empties the
cache, and the second as long as, moreover, nobody sends a signed timestamp and body under another
delivery ID, which the signature does not cover, or after the window, which ends before the
timestamp is refused if the timestamp has been ahead of the clock. `throughout_noReplay_iff` says
that nothing else goes wrong.

Beside the cache, `Intake` notes what has been let through, before and after the cache has last been
emptied.

## Main definitions

* `Acceptance`, `Intake`, `receive`: requests one after the other.
* `NoReplay`: nothing has been let through twice.
* `Replays`: a request that is let through although the like of it has been.

## Main results

* `Inv.receive`: the invariant of the cache.
* `throughout_noReplay_iff`: when nothing is let through twice.
-/

set_option autoImplicit false

namespace SorobanPay.WebhookIngestion

open Foundation

/-! ### Requests one after the other -/

/-- What has been let through. -/
structure Acceptance where
  deliveryId : String
  timestamp : String
  rawBody : List UInt8
  acceptedAt : ℕ

/-- A request as it is let through. -/
def Arrival.acceptance (a : Arrival) : Acceptance where
  deliveryId := a.deliveryId
  timestamp := a.timestamp
  rawBody := a.body.getD []
  acceptedAt := a.marked

/-- The cache, what was let through before it was last emptied, what has been let through since, and
the clock. -/
structure Intake where
  cache : ReplayCache
  before : List Acceptance
  since : List Acceptance
  clock : ℕ

/-- Nothing has been let through yet. -/
def Intake.start : Intake := ⟨.empty, [], [], 0⟩

/-- All that has been let through, in order. -/
def Intake.accepted (σ : Intake) : List Acceptance := σ.before ++ σ.since

/-- No delivery ID has been let through twice in a replay window, and no timestamp and body twice.
-/
def NoReplay (σ : Intake) : Prop :=
  σ.accepted.Pairwise fun d e =>
    ¬ (d.deliveryId = e.deliveryId ∧ e.acceptedAt ≤ windowEnd d.acceptedAt) ∧
      ¬ (d.timestamp = e.timestamp ∧ d.rawBody = e.rawBody)

instance (σ : Intake) : Decidable (NoReplay σ) := inferInstanceAs (Decidable (List.Pairwise _ _))

section Runs

variable (hmac : String → List UInt8 → String) (webhookSecret : Option String)

/-- One request. -/
def receive (σ : Intake) (a : Arrival) : Intake :=
  let (cache, rejection) := verifyWebhookSignature hmac webhookSecret σ.cache a
  match rejection with
  | none => { σ with cache, since := σ.since ++ [a.acceptance], clock := a.marked }
  | some .invalidSignature => ⟨cache, σ.accepted, [], a.marked⟩
  | some _ => { σ with cache, clock := a.marked }

/-- The request passes every other check, its delivery ID is not in the cache, and either the ID was
let through in the replay window before the cache was emptied, or the timestamp and the body were
let through, under another ID or longer ago than the window. -/
def Replays (σ : Intake) (a : Arrival) : Prop :=
  ∃ rawBody, a.Genuine hmac webhookSecret rawBody ∧
    σ.cache.hasSeen a.marked a.deliveryId = false ∧
      ((∃ d ∈ σ.before, d.deliveryId = a.deliveryId ∧ a.marked ≤ windowEnd d.acceptedAt) ∨
        ∃ d ∈ σ.accepted, (d.timestamp = a.timestamp ∧ d.rawBody = rawBody) ∧
          (d.deliveryId ≠ a.deliveryId ∨ windowEnd d.acceptedAt < a.marked))

/-- The clock does not go back. -/
structure Clocked (arrivals : List Arrival) : Prop where
  marked : ∀ a ∈ arrivals, a.received ≤ a.marked
  next : arrivals.Pairwise fun a b => a.marked ≤ b.received

end Runs

/-! ### The invariant -/

/-- What has been let through since the cache was last emptied is in the cache for the time of the
window, and nothing has been let through twice. -/
structure Inv (σ : Intake) : Prop where
  noReplay : NoReplay σ
  seen : ∀ d ∈ σ.since, ∀ t, σ.clock ≤ t → t ≤ windowEnd d.acceptedAt →
    σ.cache.hasSeen t d.deliveryId = true

theorem inv_start : Inv .start := ⟨.nil, by simp [Intake.start]⟩

variable {hmac : String → List UInt8 → String} {webhookSecret : Option String} {σ : Intake}
  {a : Arrival}

theorem noReplay_append_iff (hbefore : NoReplay σ) (cache : ReplayCache) (clock : ℕ) :
    NoReplay ⟨cache, σ.before, σ.since ++ [a.acceptance], clock⟩ ↔ ∀ d ∈ σ.accepted,
      ¬ (d.deliveryId = a.deliveryId ∧ a.marked ≤ windowEnd d.acceptedAt) ∧
        ¬ (d.timestamp = a.timestamp ∧ d.rawBody = a.body.getD []) := by
  rw [NoReplay, Intake.accepted, ← List.append_assoc, List.pairwise_append]
  constructor
  · rintro ⟨-, -, h⟩ d hd
    exact h d hd _ (List.mem_singleton_self _)
  · refine fun h => ⟨hbefore, List.pairwise_singleton _ _, fun d hd e he => ?_⟩
    rw [List.mem_singleton.1 he]
    exact h d hd

/-- Marking a new ID keeps what the cache is to hold. -/
theorem seen_markSeen (hclock : σ.clock ≤ a.marked)
    (hseen : ∀ d ∈ σ.since, ∀ t, σ.clock ≤ t → t ≤ windowEnd d.acceptedAt →
      σ.cache.hasSeen t d.deliveryId = true)
    (hnew : σ.cache.hasSeen a.marked a.deliveryId = false) {d : Acceptance} (hd : d ∈ σ.since)
    {t : ℕ} (ht : a.marked ≤ t) (hwindow : t ≤ windowEnd d.acceptedAt) :
    (σ.cache.markSeen a.marked a.deliveryId).1.hasSeen t d.deliveryId = true := by
  have hother : d.deliveryId ≠ a.deliveryId := by
    intro heq
    have := hseen d hd a.marked hclock (ht.trans hwindow)
    rw [heq, hnew] at this
    exact Bool.false_ne_true this
  rw [hasSeen_markSeen hnew ht, if_neg hother]
  exact hseen d hd t (hclock.trans ht) hwindow

/-- Where the invariant holds, a request that is let through is new unless it is a replay. -/
theorem Inv.new_of_not_replays (h : Inv σ) (hclock : σ.clock ≤ a.marked)
    (hnot : ¬ Replays hmac webhookSecret σ a) {rawBody : List UInt8}
    (hgenuine : a.Genuine hmac webhookSecret rawBody)
    (hnew : σ.cache.hasSeen a.marked a.deliveryId = false) {d : Acceptance}
    (hd : d ∈ σ.accepted) :
    ¬ (d.deliveryId = a.deliveryId ∧ a.marked ≤ windowEnd d.acceptedAt) ∧
      ¬ (d.timestamp = a.timestamp ∧ d.rawBody = a.body.getD []) := by
  have hid : ¬ (d.deliveryId = a.deliveryId ∧ a.marked ≤ windowEnd d.acceptedAt) := by
    rintro ⟨heq, hwindow⟩
    rcases List.mem_append.1 hd with hd | hd
    · exact hnot ⟨rawBody, hgenuine, hnew, .inl ⟨d, hd, heq, hwindow⟩⟩
    · have hseen := h.seen d hd a.marked hclock hwindow
      rw [heq, hnew] at hseen
      exact Bool.false_ne_true hseen
  refine ⟨hid, fun ⟨htimestamp, hbody⟩ => hnot ⟨rawBody, hgenuine, hnew, .inr ⟨d, hd, ?_, ?_⟩⟩⟩
  · rw [hgenuine.body] at hbody
    exact ⟨htimestamp, hbody⟩
  · exact (not_and_or.1 hid).imp id Nat.lt_of_not_le

/-- **The invariant of the cache** is kept by a request that is no replay. -/
theorem Inv.receive (h : Inv σ) (hclock : σ.clock ≤ a.marked)
    (hnot : ¬ Replays hmac webhookSecret σ a) :
    Inv (WebhookIngestion.receive hmac webhookSecret σ a) := by
  have houtcome := outcome_verifyWebhookSignature hmac webhookSecret σ.cache a
  unfold WebhookIngestion.receive
  generalize verifyWebhookSignature hmac webhookSecret σ.cache a = answer at houtcome
  obtain ⟨cache, rejection⟩ := answer
  cases houtcome with
  | @refused rejection hne =>
    have hkept : Inv { σ with clock := a.marked } :=
      ⟨h.noReplay, fun d hd t ht => h.seen d hd t (hclock.trans ht)⟩
    cases rejection <;> first | exact (hne rfl).elim | exact hkept
  | bodyMissing hnew =>
    exact ⟨h.noReplay, fun d hd t ht hwindow => seen_markSeen hclock h.seen hnew hd ht hwindow⟩
  | cleared => exact ⟨by simpa [NoReplay, Intake.accepted] using h.noReplay, by simp⟩
  | accepted hgenuine hnew =>
    refine ⟨(noReplay_append_iff h.noReplay _ _).2 fun d hd =>
      h.new_of_not_replays hclock hnot hgenuine hnew hd, fun d hd t ht hwindow => ?_⟩
    rcases List.mem_append.1 hd with hd | hd
    · exact seen_markSeen hclock h.seen hnew hd ht hwindow
    · obtain rfl := List.mem_singleton.1 hd
      rw [hasSeen_markSeen hnew ht]
      exact if_pos rfl ▸ hwindow

/-- After a replay something has been let through twice. -/
theorem Inv.not_replays (h : Inv σ)
    (hgood : NoReplay (WebhookIngestion.receive hmac webhookSecret σ a)) :
    ¬ Replays hmac webhookSecret σ a := by
  rintro ⟨rawBody, hgenuine, hnew, hold⟩
  unfold WebhookIngestion.receive at hgood
  rw [verifyWebhookSignature_of_genuine hmac hgenuine hnew] at hgood
  have hdifferent := (noReplay_append_iff h.noReplay _ _).1 hgood
  rcases hold with ⟨d, hd, hreplayed⟩ | ⟨d, hd, ⟨htimestamp, hbody⟩, -⟩
  · exact (hdifferent d (List.mem_append_left _ hd)).1 hreplayed
  · refine (hdifferent d hd).2 ⟨htimestamp, ?_⟩
    rw [hgenuine.body, hbody]
    rfl

/-! ### Runs -/

theorem clock_receive : (receive hmac webhookSecret σ a).clock = a.marked := by
  unfold receive
  split
  split <;> rfl

/-- Along requests whose clock does not go back, the clock of the intake does not either. -/
theorem Clocked.along {arrivals : List Arrival} (h : Clocked arrivals)
    (hstart : ∀ a ∈ arrivals, σ.clock ≤ a.received) :
    Along (receive hmac webhookSecret) (fun σ a => σ.clock ≤ a.marked) σ arrivals := by
  induction arrivals generalizing σ with
  | nil => trivial
  | cons a arrivals ih =>
    obtain ⟨hmarked, hnext⟩ := h
    obtain ⟨hafter, hnext⟩ := List.pairwise_cons.1 hnext
    refine ⟨(hstart a List.mem_cons_self).trans (hmarked a List.mem_cons_self), ih ⟨?_, hnext⟩ ?_⟩
    · exact fun b hb => hmarked b (List.mem_cons_of_mem _ hb)
    · intro b hb
      rw [clock_receive]
      exact hafter b hb

/-- **When nothing is let through twice.** If the clock does not go back, then in all states of a
run nothing has been let through twice exactly if no request of the run is a replay. -/
theorem throughout_noReplay_iff (hmac : String → List UInt8 → String)
    (webhookSecret : Option String) {arrivals : List Arrival} (hclocked : Clocked arrivals) :
    Throughout (receive hmac webhookSecret) NoReplay .start arrivals ↔
      Along (receive hmac webhookSecret) (fun σ a => ¬ Replays hmac webhookSecret σ a) .start
        arrivals :=
  throughout_iff_along_of_admitted Inv (fun σ a => σ.clock ≤ a.marked) (fun _ h => h.noReplay)
    (fun _ _ h hclock hnot => h.receive hclock hnot) (fun _ _ h _ hgood => h.not_replays hgood)
    inv_start (hclocked.along fun _ _ => Nat.zero_le _)

/-! ### A sample -/

/-- The digest of the timestamp 1700000000 with an empty object, under the secret `secret`. -/
def sampleDigest : String := "b8569b78799ff9e3cbff0fc2d63a33a2b57f3282abd07c37ae5e8e7d79a5f163"

/-- HMAC-SHA256 as far as the sample needs it. -/
def sampleHmac (secret : String) (content : List UInt8) : String :=
  if secret = "secret" ∧ content = "1700000000.\x7b\x7d".toUTF8.data.toList then sampleDigest
  else ""

/-- A request with this signature and delivery ID, so many milliseconds after its timestamp. -/
def sampleArrival (signature deliveryId : String) (delay : ℕ) : Arrival where
  headers name :=
    if name = headerSignature then some signature
    else if name = headerTimestamp then some "1700000000"
    else if name = headerDeliveryId then some deliveryId
    else none
  body := some [0x7b, 0x7d]
  received := 1700000000000 + delay
  marked := 1700000000000 + delay

/-- A delivery, a request with a wrong signature, and the delivery again. -/
def sampleReplay : List Arrival :=
  [sampleArrival sampleDigest "a" 0, sampleArrival "0" "b" 1000,
    sampleArrival sampleDigest "a" 2000]

theorem not_throughout_noReplay :
    ¬ Throughout (receive sampleHmac (some "secret")) NoReplay .start sampleReplay := by
  intro h
  exact absurd (h sampleReplay [] rfl) (by decide)

theorem throughout_noReplay_sample :
    Throughout (receive sampleHmac (some "secret")) NoReplay .start sampleReplay ↔
      Along (receive sampleHmac (some "secret"))
        (fun σ a => ¬ Replays sampleHmac (some "secret") σ a) .start sampleReplay :=
  throughout_noReplay_iff sampleHmac (some "secret") ⟨by decide, by decide⟩

end SorobanPay.WebhookIngestion
