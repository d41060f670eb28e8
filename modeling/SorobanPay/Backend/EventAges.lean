import SorobanPay.Backend.EventRows
import SorobanPay.Backend.TimestampReaders
import Mathlib.Order.Monotone.Defs

/-!
# The ages of events

The event indexer stores the sequence number of the ledger of an event as its `ledgerTimestamp`, and
the readers take this for the time in seconds at which the ledger closed. `agesByCloseTime_iff` says
when they judge the events by their age all the same: when the sequence numbers fall on the same
sides of the limits as the times.

Each ledger closes at some time, the later the greater its number. Events are those of the stream
that the indexer stores.

## Main definitions

* `storedEvents`, `IsLatest`: the events, and the latest of some of them.
* `AgesByCloseTime`: the readers judge events by the times at which their ledgers closed.
* `LedgersTellTime`: the sequence numbers can be taken for the times.

## Main results

* `agesByCloseTime_iff`: when the ages are right.
-/

set_option autoImplicit false

namespace SorobanPay.EventIndexer

open Foundation

/-! ### What is asked for -/

/-- The events of a stream that are stored. -/
def storedEvents (sdk : SdkTexts) (stream : List EventResponse) : List StoredEvent :=
  stream.filterMap (toStored sdk)

namespace StoredEvent

variable (e : StoredEvent)

/-- The event is of this pair. -/
def OfPair (s m : String) : Prop := e.subscriber = s ∧ e.merchant = m

/-- The event is a payment of this pair. -/
def PaymentOf (s m : String) : Prop := e.eventType = .executed ∧ e.OfPair s m

/-- The event is a subscription of this pair. -/
def SubscriptionOf (s m : String) : Prop := e.eventType = .subscribe ∧ e.OfPair s m

end StoredEvent

/-- The event satisfies a condition, and no later one does. -/
def IsLatest (events : List StoredEvent) (p : StoredEvent → Prop) (e : StoredEvent) : Prop :=
  e ∈ events ∧ p e ∧ ∀ e' ∈ events, p e' → e'.ledger ≤ e.ledger

/-- The readers judge events by the times at which their ledgers closed. -/
structure AgesByCloseTime (events : List StoredEvent) (closeTime : ℕ → ℕ) (nowMs : ℕ) (db : Db) :
    Prop where
  mrr : ∀ m row, row ∈ recentPayments db m nowMs ↔
    ∃ e ∈ events, e.row = row ∧ e.eventType = .executed ∧ e.merchant = m ∧
      nowSeconds nowMs - 60 * 86400 ≤ closeTime e.ledger ∧ closeTime e.ledger ≤ nowSeconds nowMs
  due : ∀ s m, (s, m) ∈ findDueSubscriptions db nowMs →
    ∀ e, IsLatest events (fun e => e.OfPair s m) e → 86400 ≤ nowSeconds nowMs - closeTime e.ledger
  atRisk : ∀ entry ∈ findAtRiskSubscriptions db nowMs, ∀ e,
    IsLatest events (fun e => e.PaymentOf entry.subscriber entry.merchant) e →
      closeTime e.ledger < nowSeconds nowMs - 300 * 86400

/-! ### The condition -/

/-- The sequence numbers of ledgers fall on the same sides as the times: that of a payment into the
last 60 days exactly if the time does; that of the last payment of a subscribed pair, or else of the
subscription, into the last day if there is an event of the pair in the last day; and the same with
a token in the last 300 days if there is a payment of the pair in these. -/
structure LedgersTellTime (events : List StoredEvent) (closeTime : ℕ → ℕ) (nowMs : ℕ) : Prop where
  mrr : ∀ e ∈ events, e.eventType = .executed →
    (nowSeconds nowMs - 60 * 86400 ≤ e.ledger ↔
      nowSeconds nowMs - 60 * 86400 ≤ closeTime e.ledger ∧ closeTime e.ledger ≤ nowSeconds nowMs)
  due : ∀ s m, (∃ e ∈ events, e.SubscriptionOf s m) →
    (∃ e ∈ events, e.OfPair s m ∧ nowSeconds nowMs - closeTime e.ledger < 86400) →
      ¬ IdleSince (events.map StoredEvent.row) (EventRow.ofPair s m) (nowSeconds nowMs - 86400)
  atRisk : ∀ s m token, (∃ e ∈ events, e.SubscriptionOf s m ∧ e.token.getD "" = token) →
    (∃ e ∈ events, e.PaymentOf s m ∧ nowSeconds nowMs - 300 * 86400 ≤ closeTime e.ledger) →
      ¬ IdleSince (events.map StoredEvent.row) (EventRow.ofTriple s m token)
        (nowSeconds nowMs - ttlRiskSeconds - 1)

/-! ### When ages are right -/

section Ages

variable {events : List StoredEvent} {closeTime : ℕ → ℕ} {nowMs : ℕ} {db : Db} {limit : ℤ}
  {s m token : String}

theorem idleSince_congr {rows rows' : List EventRow} {same : EventRow → Bool}
    (h : ∀ row, row ∈ rows ↔ row ∈ rows') :
    IdleSince rows same limit ↔ IdleSince rows' same limit := by
  simp only [IdleSince, h]

/-- If some event satisfies a condition, a latest one does. -/
theorem exists_isLatest {p : StoredEvent → Prop} (h : ∃ e ∈ events, p e) :
    ∃ e, IsLatest events p e := by
  classical
  obtain ⟨e, he, hp⟩ := h
  rcases hnewest : newest? StoredEvent.ledger (fun e => p e) events with _ | latest
  · have hnone := newest?_eq_none_iff.1 hnewest e he
    simp [hp] at hnone
  · obtain ⟨hmem, hlatest, hmax⟩ := newest?_eq_some hnewest
    exact ⟨latest, hmem, of_decide_eq_true hlatest, fun e' he' hp' => hmax e' he' (by simp [hp'])⟩

/-- The latest event has closed last. -/
theorem closeTime_le_of_isLatest (hclose : Monotone closeTime) {p : StoredEvent → Prop}
    {e e' : StoredEvent} (h : IsLatest events p e) (he' : e' ∈ events) (hp : p e') :
    (closeTime e'.ledger : ℤ) ≤ closeTime e.ledger :=
  Int.ofNat_le.2 (hclose (h.2.2 e' he' hp))

section Rows

variable (hrows : ∀ row, row ∈ db.events ↔ row ∈ events.map StoredEvent.row)

include hrows

theorem exists_row_iff (p : EventRow → Prop) :
    (∃ row ∈ db.events, p row) ↔ ∃ e ∈ events, p e.row := by
  simp only [hrows, List.mem_map, exists_exists_and_eq_and]

/-- The payments that are taken are those closed in the last 60 days exactly if the sequence numbers
of payments tell this. -/
theorem mrr_iff :
    (∀ m row, row ∈ recentPayments db m nowMs ↔
      ∃ e ∈ events, e.row = row ∧ e.eventType = .executed ∧ e.merchant = m ∧
        nowSeconds nowMs - 60 * 86400 ≤ closeTime e.ledger ∧
          closeTime e.ledger ≤ nowSeconds nowMs) ↔
      ∀ e ∈ events, e.eventType = .executed →
        (nowSeconds nowMs - 60 * 86400 ≤ e.ledger ↔
          nowSeconds nowMs - 60 * 86400 ≤ closeTime e.ledger ∧
            closeTime e.ledger ≤ nowSeconds nowMs) := by
  simp only [mem_recentPayments_iff, hrows, List.mem_map]
  constructor
  · intro h e he hexecuted
    constructor
    · intro hledger
      obtain ⟨e', -, hrow, -, -, hclosed⟩ :=
        (h e.merchant e.row).1 ⟨⟨e, he, rfl⟩, rfl, hexecuted, hledger⟩
      have hsame : e'.ledger = e.ledger := congrArg EventRow.ledgerTimestamp hrow
      rwa [hsame] at hclosed
    · intro hclosed
      obtain ⟨-, -, -, hledger⟩ :=
        (h e.merchant e.row).2 ⟨e, he, rfl, hexecuted, rfl, hclosed⟩
      exact hledger
  · intro h m row
    constructor
    · rintro ⟨⟨e, he, rfl⟩, hmerchant, hexecuted, hledger⟩
      exact ⟨e, he, rfl, hexecuted, hmerchant, (h e he hexecuted).1 hledger⟩
    · rintro ⟨e, he, rfl, hexecuted, hmerchant, hclosed⟩
      exact ⟨⟨e, he, rfl⟩, hmerchant, hexecuted, (h e he hexecuted).2 hclosed⟩

/-- A pair is not due while it is paid, exactly if the sequence numbers tell this. -/
theorem due_iff (hclose : Monotone closeTime) (s m : String) :
    ((s, m) ∈ findDueSubscriptions db nowMs →
      ∀ e, IsLatest events (fun e => e.OfPair s m) e →
        86400 ≤ nowSeconds nowMs - closeTime e.ledger) ↔
      ((∃ e ∈ events, e.SubscriptionOf s m) →
        (∃ e ∈ events, e.OfPair s m ∧ nowSeconds nowMs - closeTime e.ledger < 86400) →
          ¬ IdleSince (events.map StoredEvent.row) (EventRow.ofPair s m)
            (nowSeconds nowMs - 86400)) := by
  have hsubscribed : (∃ row ∈ db.events, row.isFor .subscribe (EventRow.ofPair s m)) ↔
      ∃ e ∈ events, e.SubscriptionOf s m := by
    rw [exists_row_iff hrows]
    simp only [isFor_iff, ofPair_iff]
    rfl
  rw [mem_findDueSubscriptions_iff, hsubscribed, idleSince_congr hrows]
  constructor
  · rintro h hsub ⟨e, he, hpair, hrecent⟩ hidle
    obtain ⟨latest, hlatest⟩ := exists_isLatest (p := fun e => e.OfPair s m) ⟨e, he, hpair⟩
    have hold := h ⟨hsub, hidle⟩ latest hlatest
    have hclosed := closeTime_le_of_isLatest hclose hlatest he hpair
    omega
  · rintro h ⟨hsub, hidle⟩ e hlatest
    by_contra hrecent
    exact h hsub ⟨e, hlatest.1, hlatest.2.1, not_le.1 hrecent⟩ hidle

/-- No subscription is flagged while its pair pays, exactly if the sequence numbers tell this. -/
theorem atRisk_iff (hclose : Monotone closeTime) (hcolonless : Colonless db.events) :
    (∀ entry ∈ findAtRiskSubscriptions db nowMs, ∀ e,
      IsLatest events (fun e => e.PaymentOf entry.subscriber entry.merchant) e →
        closeTime e.ledger < nowSeconds nowMs - 300 * 86400) ↔
      ∀ s m token, (∃ e ∈ events, e.SubscriptionOf s m ∧ e.token.getD "" = token) →
        (∃ e ∈ events, e.PaymentOf s m ∧ nowSeconds nowMs - 300 * 86400 ≤ closeTime e.ledger) →
          ¬ IdleSince (events.map StoredEvent.row) (EventRow.ofTriple s m token)
            (nowSeconds nowMs - ttlRiskSeconds - 1) := by
  have hflagged : ∀ s m token, (∃ entry ∈ findAtRiskSubscriptions db nowMs,
      entry.subscriber = s ∧ entry.merchant = m ∧ entry.token = token) ↔
        (∃ e ∈ events, e.SubscriptionOf s m ∧ e.token.getD "" = token) ∧
          IdleSince (events.map StoredEvent.row) (EventRow.ofTriple s m token)
            (nowSeconds nowMs - ttlRiskSeconds - 1) := by
    intro s m token
    rw [exists_mem_findAtRiskSubscriptions_iff hcolonless, exists_row_iff hrows,
      idleSince_congr hrows]
    simp only [isFor_iff, ofTriple_iff, StoredEvent.SubscriptionOf, StoredEvent.OfPair, and_assoc]
    rfl
  constructor
  · rintro h s m token hsub ⟨e, he, hpaid, hrecent⟩ hidle
    obtain ⟨entry, hentry, rfl, rfl, -⟩ := (hflagged s m token).2 ⟨hsub, hidle⟩
    obtain ⟨latest, hlatest⟩ :=
      exists_isLatest (p := fun e => e.PaymentOf entry.subscriber entry.merchant) ⟨e, he, hpaid⟩
    have hold := h entry hentry latest hlatest
    have hclosed := closeTime_le_of_isLatest hclose hlatest he hpaid
    omega
  · rintro h entry hentry e hlatest
    by_contra hrecent
    obtain ⟨hsub, hidle⟩ := (hflagged _ _ _).1 ⟨entry, hentry, rfl, rfl, rfl⟩
    exact h _ _ _ hsub ⟨e, hlatest.1, hlatest.2.1, not_lt.1 hrecent⟩ hidle

end Rows

/-- No address of a stored event has a colon. -/
theorem colonless_storedRows {sdk : SdkTexts} (hsdk : ∀ a, ':' ∉ (sdk.addressText a).toList)
    (stream : List EventResponse) : Colonless ((storedEvents sdk stream).map StoredEvent.row) := by
  have haddress : ∀ v text, scValToAddress sdk v = some text → ':' ∉ text.toList := by
    intro v text h
    unfold scValToAddress at h
    split at h
    · exact Option.some.inj h ▸ hsdk _
    · cases h
  have htoken : ∀ token : Option String, (∀ text, token = some text → ':' ∉ text.toList) →
      ':' ∉ (token.getD "").toList := by
    rintro (_ | text) h
    · simp
    · exact h text rfl
  intro row hrow
  obtain ⟨e, he, rfl⟩ := List.mem_map.1 hrow
  obtain ⟨event, -, hstored⟩ := List.mem_filterMap.1 he
  simp only [toStored, present, Option.bind_eq_bind, Option.bind_eq_some_iff,
    Option.filter_eq_some_iff] at hstored
  obtain ⟨fields, hfields, s, ⟨hs, -⟩, m, ⟨hm, -⟩, hstored⟩ := hstored
  split_ifs at hstored
  obtain rfl := Option.some.inj hstored
  unfold decodeFields at hfields
  split at hfields
  · obtain ⟨type, -, rfl⟩ := Option.map_eq_some_iff.1 hfields
    obtain ⟨v, -, hv⟩ := Option.bind_eq_some_iff.1 hm
    refine ⟨haddress _ s hs, haddress v m hv, htoken _ fun text htext => ?_⟩
    obtain ⟨v, -, hv⟩ := Option.bind_eq_some_iff.1 htext
    exact haddress v text hv
  · cases hfields

/-- **When the ages are right.** After a stream has been processed, the readers judge its events by
the times at which their ledgers closed exactly if the sequence numbers of the ledgers fall on the
same sides of the limits as these times. -/
theorem agesByCloseTime_iff (sdk : SdkTexts) (hsdk : ∀ a, ':' ∉ (sdk.addressText a).toList)
    (hclose : Monotone closeTime) (stream : List EventResponse) (nowMs : ℕ) :
    AgesByCloseTime (storedEvents sdk stream) closeTime nowMs
        (stream.foldl (processEvent sdk noFailures) .empty) ↔
      LedgersTellTime (storedEvents sdk stream) closeTime nowMs := by
  have hrows : ∀ row, row ∈ (stream.foldl (processEvent sdk noFailures) .empty).events ↔
      row ∈ (storedEvents sdk stream).map StoredEvent.row := (enumerates_events sdk stream).mem_iff
  have hcolonless : Colonless (stream.foldl (processEvent sdk noFailures) .empty).events :=
    fun row hrow => colonless_storedRows hsdk stream row ((hrows row).1 hrow)
  constructor
  · rintro ⟨hmrr, hdue, hatRisk⟩
    exact ⟨(mrr_iff hrows).1 hmrr, fun s m => (due_iff hrows hclose s m).1 (hdue s m),
      (atRisk_iff hrows hclose hcolonless).1 hatRisk⟩
  · rintro ⟨hmrr, hdue, hatRisk⟩
    exact ⟨(mrr_iff hrows).2 hmrr, fun s m => (due_iff hrows hclose s m).2 (hdue s m),
      (atRisk_iff hrows hclose hcolonless).2 hatRisk⟩

end Ages

/-! ### A sample -/

/-- Addresses in hexadecimal digits. -/
def sampleHexTexts : SdkTexts where
  addressText
    | .account key => hexText key.val
    | .contract contractId => hexText contractId.val
    | .other xdr => hexText xdr
  i128Text hi lo := toString (ScVal.i128Value hi lo)

theorem colon_not_mem_sampleHexTexts (a : ScAddress) :
    ':' ∉ (sampleHexTexts.addressText a).toList := by
  have hhex : ∀ bs : List UInt8, ':' ∉ (hexText bs).toList := fun bs h =>
    forall_mem_hexText (p := (· ≠ ':')) (by decide) bs ':' h rfl
  cases a <;> exact hhex _

/-- A ledger closes every five seconds. -/
def sampleCloseTime (ledger : ℕ) : ℕ := 1450000000 + 5 * ledger

theorem monotone_sampleCloseTime : Monotone sampleCloseTime := fun _ _ h =>
  Nat.add_le_add_left (Nat.mul_le_mul_left 5 h) _

/-- A subscription, and a payment that closes at second 1700000050. -/
def sampleAges : List EventResponse :=
  [sampleResponse "1" 50000000 (.subscribe 1 2 9 100),
    sampleResponse "2" 50000010 (.executed 1 2 9 100 0)]

/-- Ten seconds later, the payment is not taken for a recent one. -/
theorem not_agesByCloseTime_sample :
    ¬ AgesByCloseTime (storedEvents sampleHexTexts sampleAges) sampleCloseTime 1700000060000
      (sampleAges.foldl (processEvent sampleHexTexts noFailures) .empty) := by
  intro h
  have hrows := (enumerates_events sampleHexTexts sampleAges).mem_iff
  obtain ⟨e, he, htype, hledger⟩ : ∃ e ∈ storedEvents sampleHexTexts sampleAges,
      e.eventType = .executed ∧ e.ledger = 50000010 := ⟨_, .tail _ (.head _), rfl, rfl⟩
  have hage := (mrr_iff hrows).1 h.mrr e he htype
  rw [hledger, nowSeconds, sampleCloseTime] at hage
  omega

theorem agesByCloseTime_sample :
    AgesByCloseTime (storedEvents sampleHexTexts sampleAges) sampleCloseTime 1700000060000
        (sampleAges.foldl (processEvent sampleHexTexts noFailures) .empty) ↔
      LedgersTellTime (storedEvents sampleHexTexts sampleAges) sampleCloseTime 1700000060000 :=
  agesByCloseTime_iff sampleHexTexts colon_not_mem_sampleHexTexts monotone_sampleCloseTime
    sampleAges 1700000060000

end SorobanPay.EventIndexer
