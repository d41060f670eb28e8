import SorobanPay.Backend.TimestampReaders

/-!
# Subscriptions that are due and at risk

`findDueSubscriptions` and `findAtRiskSubscriptions` go by the last payment of a subscription, and
by the subscription itself only if there is no payment at all. They pass over cancellations. So they
are wrong about subscriptions that have been made again after a payment, and about those that have
been cancelled. `findsDue_iff` and `findsAtRisk_iff` say for which tables they are right.

The timestamp of a row is taken for the time of the event in seconds. Of two events with the same
timestamp neither is later.

## Main definitions

* `NoneLater`, `CancelledLast`, `CancelledSince`: what the events of a subscription tell.
* `FindsDue`, `FindsAtRisk`: what the readers are to find.
* `LastPaymentTells`: the last payment speaks for the subscription, too.
* `DueTold`, `AtRiskTold`: the tables that the readers understand.

## Main results

* `findsDue_iff`, `findsAtRisk_iff`: when the readers find the right subscriptions.
-/

set_option autoImplicit false

namespace SorobanPay.EventIndexer

open Foundation

/-! ### What the events tell -/

/-- No subscription and no payment is later than this. -/
def NoneLater (rows : List EventRow) (same : EventRow → Bool) (limit : ℤ) : Prop :=
  ∀ row ∈ rows, row.isFor .subscribe same ∨ row.isFor .executed same →
    (row.ledgerTimestamp : ℤ) ≤ limit

/-- A cancellation is later than all subscriptions and payments. -/
def CancelledLast (rows : List EventRow) (same : EventRow → Bool) : Prop :=
  ∃ cancel ∈ rows, cancel.isFor .cancel same ∧
    ∀ row ∈ rows, row.isFor .subscribe same ∨ row.isFor .executed same →
      row.ledgerTimestamp < cancel.ledgerTimestamp

/-- A cancellation of the pair is later than all subscriptions. -/
def CancelledSince (rows : List EventRow) (s m token : String) : Prop :=
  ∃ cancel ∈ rows, cancel.isFor .cancel (EventRow.ofPair s m) ∧
    ∀ row ∈ rows, row.isFor .subscribe (EventRow.ofTriple s m token) →
      row.ledgerTimestamp < cancel.ledgerTimestamp

/-- There is a subscription. -/
def Subscribed (rows : List EventRow) (same : EventRow → Bool) : Prop :=
  ∃ row ∈ rows, row.isFor .subscribe same

/-- The pairs that are due are found, each once: those with a subscription whose latest event is no
cancellation and whose latest subscription and payment are a day old. -/
structure FindsDue (db : Db) (nowMs : ℕ) : Prop where
  once : (findDueSubscriptions db nowMs).Nodup
  exactly : ∀ s m, (s, m) ∈ findDueSubscriptions db nowMs ↔
    Subscribed db.events (EventRow.ofPair s m) ∧ ¬ CancelledLast db.events (EventRow.ofPair s m) ∧
      NoneLater db.events (EventRow.ofPair s m) (nowSeconds nowMs - 86400)

/-- The subscription that an entry is about. -/
def TtlAtRiskEntry.triple (entry : TtlAtRiskEntry) : String × String × String :=
  (entry.subscriber, entry.merchant, entry.token)

/-- The subscriptions at risk are found, each once: those that have not been cancelled since, with
the later of the latest subscription and the latest payment more than 300 days old. -/
structure FindsAtRisk (db : Db) (nowMs : ℕ) : Prop where
  once : ((findAtRiskSubscriptions db nowMs).map TtlAtRiskEntry.triple).Nodup
  exactly : ∀ s m token, (s, m, token) ∈
      (findAtRiskSubscriptions db nowMs).map TtlAtRiskEntry.triple ↔
    Subscribed db.events (EventRow.ofTriple s m token) ∧ ¬ CancelledSince db.events s m token ∧
      NoneLater db.events (EventRow.ofTriple s m token) (nowSeconds nowMs - ttlRiskSeconds - 1)

/-! ### The tables that are understood -/

/-- If there are payments and none of them is later than this, no subscription is. -/
def LastPaymentTells (rows : List EventRow) (same : EventRow → Bool) (limit : ℤ) : Prop :=
  (∃ row ∈ rows, row.isFor .executed same) →
    (∀ row ∈ rows, row.isFor .executed same → (row.ledgerTimestamp : ℤ) ≤ limit) →
      ∀ row ∈ rows, row.isFor .subscribe same → (row.ledgerTimestamp : ℤ) ≤ limit

/-- No pair has subscribed in the last day with its last payment before that; and none without an
event in the last day has cancelled last. -/
structure DueTold (db : Db) (nowMs : ℕ) : Prop where
  subscribed : ∀ s m, Subscribed db.events (EventRow.ofPair s m) →
    LastPaymentTells db.events (EventRow.ofPair s m) (nowSeconds nowMs - 86400)
  cancelled : ∀ s m, Subscribed db.events (EventRow.ofPair s m) →
    NoneLater db.events (EventRow.ofPair s m) (nowSeconds nowMs - 86400) →
      ¬ CancelledLast db.events (EventRow.ofPair s m)

/-- The text under which a subscription is seen. -/
def EventRow.key (row : EventRow) : String :=
  row.subscriber ++ ":" ++ row.merchant ++ ":" ++ row.token

/-- The latest subscription under the text of this one is of the same pair and token. -/
def Seen (rows : List EventRow) (s m token : String) : Prop :=
  ∃ sub, newest? EventRow.ledgerTimestamp
      (fun row => row.key = s ++ ":" ++ m ++ ":" ++ token)
      (rows.filter fun row => row.type = .subscribe) = some sub ∧ sub.ofTriple s m token

/-- The same for 300 days, and for cancellations since the last subscription; and no subscription at
risk has the text of another one that is later. -/
structure AtRiskTold (db : Db) (nowMs : ℕ) : Prop where
  subscribed : ∀ s m token, Seen db.events s m token →
    LastPaymentTells db.events (EventRow.ofTriple s m token)
      (nowSeconds nowMs - ttlRiskSeconds - 1)
  cancelled : ∀ s m token, Seen db.events s m token →
    NoneLater db.events (EventRow.ofTriple s m token) (nowSeconds nowMs - ttlRiskSeconds - 1) →
      ¬ CancelledSince db.events s m token
  seen : ∀ s m token, Subscribed db.events (EventRow.ofTriple s m token) →
    ¬ CancelledSince db.events s m token →
      NoneLater db.events (EventRow.ofTriple s m token)
        (nowSeconds nowMs - ttlRiskSeconds - 1) → Seen db.events s m token

section Readers

variable {κ : Type} [DecidableEq κ] {key : EventRow → κ} {db : Db} {rows : List EventRow}
  {same : EventRow → Bool} {limit : ℤ} {s m token : String} {nowMs : ℕ} {Cancelled : Prop}

/-! ### Idle subscriptions -/

theorem NoneLater.idleSince (h : NoneLater rows same limit) : IdleSince rows same limit :=
  ⟨fun row hrow hfor => h row hrow (.inr hfor), .inr fun row hrow hfor => h row hrow (.inl hfor)⟩

/-- Who goes by the last payment is right about a subscription exactly if the payment speaks for it
and there is no cancellation. -/
theorem idleSince_iff_noneLater_iff :
    (IdleSince rows same limit ↔ ¬ Cancelled ∧ NoneLater rows same limit) ↔
      LastPaymentTells rows same limit ∧ (NoneLater rows same limit → ¬ Cancelled) := by
  constructor
  · intro h
    refine ⟨fun hpaid hold row hrow hfor => ?_, fun hnone => (h.1 hnone.idleSince).1⟩
    exact (h.1 ⟨hold, .inl hpaid⟩).2 row hrow (.inl hfor)
  · rintro ⟨htells, hcancelled⟩
    refine ⟨fun ⟨hpaid, hor⟩ => ?_, fun h => h.2.idleSince⟩
    have hsubs : ∀ row ∈ rows, row.isFor .subscribe same → (row.ledgerTimestamp : ℤ) ≤ limit :=
      hor.elim (fun hex => htells hex hpaid) id
    have hnone : NoneLater rows same limit := fun row hrow hfor =>
      hfor.elim (hsubs row hrow) (hpaid row hrow)
    exact ⟨hcancelled hnone, hnone⟩

/-- The subscriptions that are kept have different keys. -/
theorem pairwise_subscribeEvents (key : EventRow → κ) (rows : List EventRow) :
    (subscribeEvents key rows).Pairwise fun sub sub' => key sub ≠ key sub' := by
  refine List.pairwise_map.1 ((InsertionMap.nodup_map_values_iff key).2 ?_)
  intro k k' sub sub' hsub hsub' heq
  rw [InsertionMap.get_firstBy] at hsub hsub'
  have hk : key sub = k := by simpa using List.find?_some hsub
  have hk' : key sub' = k' := by simpa using List.find?_some hsub'
  exact hk.symm.trans (heq.trans hk')

/-! ### Due subscriptions -/

theorem nodup_findDueSubscriptions (db : Db) (nowMs : ℕ) :
    (findDueSubscriptions db nowMs).Nodup := by
  refine List.pairwise_filterMap.2 ((pairwise_subscribeEvents _ _).imp ?_)
  intro sub sub' hne pair hpair pair' hpair'
  dsimp only at hpair hpair'
  split_ifs at hpair hpair'
  rw [← Option.some.inj hpair, ← Option.some.inj hpair']
  exact hne

/-- **Due subscriptions.** The scheduler finds the pairs that are due exactly if no pair has
subscribed again in the last day, and none of those that were idle has cancelled. -/
theorem findsDue_iff (db : Db) (nowMs : ℕ) : FindsDue db nowMs ↔ DueTold db nowMs := by
  have hpair : ∀ s m, ((s, m) ∈ findDueSubscriptions db nowMs ↔
      Subscribed db.events (EventRow.ofPair s m) ∧
        ¬ CancelledLast db.events (EventRow.ofPair s m) ∧
          NoneLater db.events (EventRow.ofPair s m) (nowSeconds nowMs - 86400)) ↔
      (Subscribed db.events (EventRow.ofPair s m) →
        LastPaymentTells db.events (EventRow.ofPair s m) (nowSeconds nowMs - 86400) ∧
          (NoneLater db.events (EventRow.ofPair s m) (nowSeconds nowMs - 86400) →
            ¬ CancelledLast db.events (EventRow.ofPair s m))) := by
    intro s m
    rw [mem_findDueSubscriptions_iff]
    refine and_congr_right_iff.trans ?_
    exact forall_congr' fun _ => idleSince_iff_noneLater_iff
  constructor
  · intro h
    have htold := fun s m => (hpair s m).1 (h.exactly s m)
    exact ⟨fun s m hsub => (htold s m hsub).1, fun s m hsub => (htold s m hsub).2⟩
  · intro h
    refine ⟨nodup_findDueSubscriptions db nowMs, fun s m => (hpair s m).2 fun hsub => ?_⟩
    exact ⟨h.subscribed s m hsub, h.cancelled s m hsub⟩

/-! ### Subscriptions at risk -/

theorem key_of_ofTriple {row : EventRow} (h : row.ofTriple s m token) :
    row.key = s ++ ":" ++ m ++ ":" ++ token := by
  obtain ⟨rfl, rfl, rfl⟩ := ofTriple_iff.1 h
  rfl

theorem Seen.subscribed (h : Seen rows s m token) :
    Subscribed rows (EventRow.ofTriple s m token) := by
  obtain ⟨sub, hnewest, hsame⟩ := h
  obtain ⟨hsub, htype⟩ := List.mem_filter.1 (newest?_eq_some hnewest).1
  exact ⟨sub, hsub, isFor_iff.2 ⟨of_decide_eq_true htype, hsame⟩⟩

/-- What `findAtRiskSubscriptions` finds: the subscriptions that are seen and idle. -/
theorem mem_findAtRiskSubscriptions_iff :
    (s, m, token) ∈ (findAtRiskSubscriptions db nowMs).map TtlAtRiskEntry.triple ↔
      Seen db.events s m token ∧ IdleSince db.events (EventRow.ofTriple s m token)
        (nowSeconds nowMs - ttlRiskSeconds - 1) := by
  have hmem : (s, m, token) ∈ (findAtRiskSubscriptions db nowMs).map TtlAtRiskEntry.triple ↔
      ∃ entry ∈ findAtRiskSubscriptions db nowMs,
        entry.subscriber = s ∧ entry.merchant = m ∧ entry.token = token := by
    simp only [List.mem_map, TtlAtRiskEntry.triple, Prod.mk.injEq]
  have hkept : ∀ sub, sub.ofTriple s m token → (sub ∈ subscribeEvents EventRow.key db.events ↔
      newest? EventRow.ledgerTimestamp (fun row => row.key = s ++ ":" ++ m ++ ":" ++ token)
        (db.events.filter fun row => row.type = .subscribe) = some sub) := by
    intro sub hsame
    rw [← key_of_ofTriple hsame]
    exact InsertionMap.mem_values_firstBy_newestFirst_iff
  rw [hmem, exists_mem_findAtRiskSubscriptions_iff_kept]
  exact and_congr_left fun _ => exists_congr fun sub => and_congr_left fun hsame => hkept sub hsame

theorem nodup_findAtRiskSubscriptions (db : Db) (nowMs : ℕ) :
    ((findAtRiskSubscriptions db nowMs).map TtlAtRiskEntry.triple).Nodup := by
  refine List.pairwise_map.2 (List.pairwise_filterMap.2 ((pairwise_subscribeEvents _ _).imp ?_))
  intro sub sub' hne entry hentry entry' hentry' heq
  dsimp only at hentry hentry'
  split_ifs at hentry hentry'
  obtain rfl := Option.some.inj hentry
  obtain rfl := Option.some.inj hentry'
  obtain ⟨hs, hm, ht⟩ := Prod.mk.inj heq |>.imp_right Prod.mk.inj
  dsimp only at hs hm ht
  exact hne (by rw [hs, hm, ht])

/-- **Subscriptions at risk.** The monitor finds the subscriptions at risk exactly if none that it
sees has been made again in the last 300 days after a payment before, none that was idle has been
cancelled since, and it sees all that are at risk. -/
theorem findsAtRisk_iff (db : Db) (nowMs : ℕ) : FindsAtRisk db nowMs ↔ AtRiskTold db nowMs := by
  have htriple : ∀ s m token, Seen db.events s m token →
      ((IdleSince db.events (EventRow.ofTriple s m token)
          (nowSeconds nowMs - ttlRiskSeconds - 1) ↔
        ¬ CancelledSince db.events s m token ∧
          NoneLater db.events (EventRow.ofTriple s m token)
            (nowSeconds nowMs - ttlRiskSeconds - 1)) ↔
        LastPaymentTells db.events (EventRow.ofTriple s m token)
            (nowSeconds nowMs - ttlRiskSeconds - 1) ∧
          (NoneLater db.events (EventRow.ofTriple s m token)
            (nowSeconds nowMs - ttlRiskSeconds - 1) → ¬ CancelledSince db.events s m token)) :=
    fun _ _ _ _ => idleSince_iff_noneLater_iff
  constructor
  · rintro ⟨-, hexactly⟩
    simp only [mem_findAtRiskSubscriptions_iff] at hexactly
    have htold := fun s m token (hseen : Seen db.events s m token) =>
      (htriple s m token hseen).1
        ⟨fun hidle => ((hexactly s m token).1 ⟨hseen, hidle⟩).2,
          fun hrisk => ((hexactly s m token).2 ⟨hseen.subscribed, hrisk⟩).2⟩
    exact ⟨fun s m token hseen => (htold s m token hseen).1,
      fun s m token hseen => (htold s m token hseen).2,
      fun s m token hsub hcancelled hnone =>
        ((hexactly s m token).2 ⟨hsub, hcancelled, hnone⟩).1⟩
  · intro h
    refine ⟨nodup_findAtRiskSubscriptions db nowMs, fun s m token => ?_⟩
    rw [mem_findAtRiskSubscriptions_iff]
    constructor
    · rintro ⟨hseen, hidle⟩
      exact ⟨hseen.subscribed, ((htriple s m token hseen).2
        ⟨h.subscribed s m token hseen, h.cancelled s m token hseen⟩).1 hidle⟩
    · rintro ⟨hsub, hcancelled, hnone⟩
      exact ⟨h.seen s m token hsub hcancelled hnone, hnone.idleSince⟩

end Readers

/-! ### Samples -/

/-- A subscription that is cancelled. -/
def sampleCancelled : Db :=
  { Db.empty with
    events := [⟨.subscribe, "s", "m", "t", "5", 0⟩, ⟨.cancel, "s", "m", "t", "", 10⟩] }

/-- A subscription that is made again, long after a payment. -/
def sampleResubscribed : Db :=
  { Db.empty with
    events := [⟨.subscribe, "s", "m", "t", "5", 0⟩, ⟨.executed, "s", "m", "t", "5", 10⟩,
      ⟨.cancel, "s", "m", "t", "", 20⟩, ⟨.subscribe, "s", "m", "t", "5", 30000000⟩] }

/-- The one is due a day later, and the other one at once. -/
theorem not_findsDue_samples :
    ¬ FindsDue sampleCancelled 86400000 ∧ ¬ FindsDue sampleResubscribed 30000001000 := by
  constructor
  · intro h
    have hdue : ("s", "m") ∈ findDueSubscriptions sampleCancelled 86400000 := by decide
    refine ((h.exactly "s" "m").1 hdue).2.1
      ⟨⟨.cancel, "s", "m", "t", "", 10⟩, by decide, by decide, ?_⟩
    decide
  · intro h
    have hdue : ("s", "m") ∈ findDueSubscriptions sampleResubscribed 30000001000 := by decide
    have hnone := ((h.exactly "s" "m").1 hdue).2.2
      ⟨.subscribe, "s", "m", "t", "5", 30000000⟩ (by decide) (by decide)
    exact absurd hnone (by decide)

/-- The one is at risk 301 days later, and the other one at once. -/
theorem not_findsAtRisk_samples :
    ¬ FindsAtRisk sampleCancelled (301 * 86400000) ∧
      ¬ FindsAtRisk sampleResubscribed 30000001000 := by
  constructor
  · intro h
    have hrisk : ("s", "m", "t") ∈
        (findAtRiskSubscriptions sampleCancelled (301 * 86400000)).map TtlAtRiskEntry.triple := by
      decide
    refine ((h.exactly "s" "m" "t").1 hrisk).2.1
      ⟨⟨.cancel, "s", "m", "t", "", 10⟩, by decide, by decide, ?_⟩
    decide
  · intro h
    have hrisk : ("s", "m", "t") ∈
        (findAtRiskSubscriptions sampleResubscribed 30000001000).map TtlAtRiskEntry.triple := by
      decide
    have hnone := ((h.exactly "s" "m" "t").1 hrisk).2.2
      ⟨.subscribe, "s", "m", "t", "5", 30000000⟩ (by decide) (by decide)
    exact absurd hnone (by decide)

end SorobanPay.EventIndexer
