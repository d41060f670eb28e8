import SorobanPay.Backend.KeyReplay
import SorobanPay.Foundation.Reordering

/-!
# The order of the events

The reconciler takes the events oldest first. Only the order among the events of one subscription
counts: where no text contains a colon and the amounts that are compared can be read, a
rearrangement that keeps it leads to the same database and to the same repairs and errors, in
another order. Of texts with colons, two subscriptions may share a key, and then the order among
their events counts, too. So it does where an amount cannot be read, since it decides which repairs
are made before the reconciler ends there.

## Main definitions

* `ChainEvent.triple`: the subscription of an event.
* `SameOutcome`: the same database, and the same repairs and errors in some order.

## Main results

* `sameOutcome_reconcile`: the outcome of a rearranged list of events.
-/

set_option autoImplicit false

namespace SorobanPay

open Foundation

/-- The subscription of an event. -/
def ChainEvent.triple (ev : ChainEvent) : String × String × String :=
  (ev.subscriber, ev.merchant, ev.token)

/-- The same is stored under every key, and both runs return, with the same repairs and errors, but
for their order. -/
structure SameOutcome (outcome outcome' : SubscriptionDB × Except String ReconcileResult) :
    Prop where
  stored : ∀ key, outcome.1.store.get key = outcome'.1.store.get key
  returned : ∃ result result', outcome.2 = .ok result ∧ outcome'.2 = .ok result' ∧
    result.repairs.Perm result'.repairs ∧ result.errors.Perm result'.errors

variable {events events' before before' : List ChainEvent} {ev : ChainEvent} {s m t : String}

theorem ChainEvent.names_iff : ev.Names s m t ↔ ev.triple = (s, m, t) := by
  simp [ChainEvent.Names, ChainEvent.triple]

/-! ### The events of one subscription -/

theorem decided_filter : Decided (events.filter fun ev => ev.Names s m t) s m t ↔
    Decided events s m t := by
  simp only [Decided, List.mem_filter, decide_eq_true_eq]
  exact exists_congr fun ev => by tauto

theorem live_filter : Live (events.filter fun ev => ev.Names s m t) s m t ↔ Live events s m t := by
  unfold Live
  rw [List.filter_filter]
  have hand : ∀ ev : ChainEvent,
      (decide (ev.Names s m t ∧ ev.type ≠ .executed) && decide (ev.Names s m t)) =
        decide (ev.Names s m t ∧ ev.type ≠ .executed) := by
    intro ev
    by_cases h : ev.Names s m t <;> simp [h]
  simp only [hand]

/-- The payments without a live subscription before them, of one subscription. -/
theorem filter_dangling (s m t : String) (before events : List ChainEvent) :
    (dangling before events).filter (fun ev => ev.Names s m t) =
      dangling (before.filter fun ev => ev.Names s m t)
        (events.filter fun ev => ev.Names s m t) := by
  induction events generalizing before with
  | nil => rfl
  | cons ev events ih =>
    rw [dangling]
    by_cases hnames : ev.Names s m t
    · obtain ⟨rfl, rfl, rfl⟩ := id hnames
      have hlive : Live (before.filter fun ev' => ev'.Names ev.subscriber ev.merchant ev.token)
          ev.subscriber ev.merchant ev.token ↔
            Live before ev.subscriber ev.merchant ev.token := live_filter
      have ih := ih (before ++ [ev])
      simp only [List.filter_append, List.filter_cons, List.filter_nil, hnames, decide_true,
        if_true] at ih ⊢
      rw [dangling]
      simp only [hlive]
      split_ifs with hskip
      · rw [List.filter_cons, if_pos (decide_eq_true hnames), ih]
      · exact ih
    · have ih := ih (before ++ [ev])
      simp only [List.filter_append, List.filter_cons, List.filter_nil, hnames, decide_false,
        Bool.false_eq_true, if_false, List.append_nil] at ih ⊢
      split_ifs
      · rw [List.filter_cons, if_neg (by simpa using hnames), ih]
      · exact ih

/-! ### Rearranged events -/

section Rearranged

variable (h : KeepsOrder ChainEvent.triple events events')

include h

theorem filter_names_eq (s m t : String) :
    events.filter (fun ev => ev.Names s m t) = events'.filter fun ev => ev.Names s m t := by
  simpa only [ChainEvent.names_iff] using h.order (s, m, t)

theorem decided_iff_of_keepsOrder : Decided events s m t ↔ Decided events' s m t := by
  rw [← decided_filter, filter_names_eq h, decided_filter]

theorem replayed_eq_of_keepsOrder (defaultInterval : ℕ) :
    replayed defaultInterval events s m t = replayed defaultInterval events' s m t := by
  rw [replayed, filter_names_eq h, replayed]

theorem live_iff_of_keepsOrder : Live events s m t ↔ Live events' s m t := by
  rw [← isSome_replayed_iff 0, replayed_eq_of_keepsOrder h, isSome_replayed_iff]

theorem legible_of_keepsOrder {db : SubscriptionDB} (hlegible : Legible events db) :
    Legible events' db := fun s m t r hkey hlive =>
  hlegible s m t r hkey ((live_iff_of_keepsOrder h).2 hlive)

theorem perm_dangling : (dangling [] events).Perm (dangling [] events') := by
  refine perm_of_filter_eq ChainEvent.triple ?_
  rintro ⟨s, m, t⟩
  simp only [← ChainEvent.names_iff]
  rw [filter_dangling, filter_dangling, filter_names_eq h]

/-- What is expected is the same. -/
theorem get_replayEvents_of_keepsOrder (hevents : ∀ ev ∈ events, ev.ColonFree)
    (defaultInterval : ℕ) (key : String) :
    (replayEvents events defaultInterval).1.get key =
      (replayEvents events' defaultInterval).1.get key := by
  have hevents' : ∀ ev ∈ events', ev.ColonFree := fun ev hev => hevents ev (h.perm.mem_iff.2 hev)
  by_cases hkey : ∃ ev ∈ events, key = ev.key
  · obtain ⟨ev, hev, rfl⟩ := hkey
    rw [ChainEvent.key, get_replayEvents hevents (hevents ev hev),
      get_replayEvents hevents' (hevents ev hev), replayed_eq_of_keepsOrder h]
    simp only [decided_iff_of_keepsOrder h]
  · rw [get_replayEvents_of_not_key fun ev hev heq => hkey ⟨ev, hev, heq⟩,
      get_replayEvents_of_not_key fun ev hev heq => hkey ⟨ev, h.perm.mem_iff.2 hev, heq⟩]

/-- **The order of the events.** Where no text of an event contains a colon and the amounts that are
compared can be read, rearranging the events but for the order among those of one subscription
changes neither the database nor what is repaired and reported. -/
theorem sameOutcome_reconcile (hevents : ∀ ev ∈ events, ev.ColonFree) {db : SubscriptionDB}
    (hlegible : Legible events db) (defaultInterval : ℕ) :
    SameOutcome (reconcile events db defaultInterval) (reconcile events' db defaultInterval) := by
  have hevents' : ∀ ev ∈ events', ev.ColonFree := fun ev hev => hevents ev (h.perm.mem_iff.2 hev)
  have hexpected := get_replayEvents_of_keepsOrder h hevents defaultInterval
  rw [reconcile_eq_ok (keyed_replayEvents defaultInterval hevents)
      ((thrown_eq_none_iff hevents _ _).2 hlegible),
    reconcile_eq_ok (keyed_replayEvents defaultInterval hevents')
      ((thrown_eq_none_iff hevents' _ _).2 (legible_of_keepsOrder h hlegible))]
  have hstored : ∀ key,
      (db.store.patch (needing db (replayEvents events defaultInterval).1.entries)).get key =
        (db.store.patch (needing db (replayEvents events' defaultInterval).1.entries)).get key :=
    fun key => by rw [get_patch_needing, get_patch_needing, hexpected]
  have horphans : orphanError (replayEvents events defaultInterval).1 =
      orphanError (replayEvents events' defaultInterval).1 := by
    funext r
    simp only [orphanError, hexpected]
  refine ⟨hstored, _, _, rfl, rfl, (InsertionMap.perm_entries hexpected).filterMap _, ?_⟩
  simp only [replayEvents_snd hevents, replayEvents_snd hevents', horphans]
  exact ((perm_dangling h).map _).append ((InsertionMap.perm_values hstored).filterMap _)

end Rearranged

/-- A subscription and the cancellation of another one under the same key. -/
def sampleSharedKey : ChainEvent × ChainEvent :=
  (⟨.subscribe, "a:b", "c", "d", 100, 10⟩, ⟨.cancel, "a", "b:c", "d", 0, 20⟩)

/-- Two subscriptions, and a row of the first with an amount that is no integer. -/
def sampleUnreadable : List ChainEvent × SubscriptionDB :=
  ([⟨.subscribe, "a", "b", "c", 100, 10⟩, ⟨.subscribe, "d", "b", "c", 50, 30⟩],
    .upsert .empty ⟨"a", "b", "c", .text "1e2", 7, 17, none⟩)

/-- With a colon in a text, the order among the events of two subscriptions may count, and without
one it may count where an amount cannot be read. -/
theorem not_sameOutcome_sharedKey :
    (¬ ∀ (events events' : List ChainEvent) (db : SubscriptionDB) (defaultInterval : ℕ),
      (∀ r ∈ db.all, r.amount.Readable) → KeepsOrder ChainEvent.triple events events' →
        SameOutcome (reconcile events db defaultInterval)
          (reconcile events' db defaultInterval)) ∧
    ¬ ∀ (events events' : List ChainEvent) (db : SubscriptionDB) (defaultInterval : ℕ),
      (∀ ev ∈ events, ev.ColonFree) → KeepsOrder ChainEvent.triple events events' →
        SameOutcome (reconcile events db defaultInterval)
          (reconcile events' db defaultInterval) := by
  constructor
  · intro h
    have hswap : KeepsOrder ChainEvent.triple [sampleSharedKey.1, sampleSharedKey.2]
        [sampleSharedKey.2, sampleSharedKey.1] := KeepsOrder.swap [] [] (by decide)
    have hstored := (h _ _ .empty 7 (by decide) hswap).stored "a:b:c:d"
    revert hstored
    decide +kernel
  · intro h
    have hswap : KeepsOrder ChainEvent.triple sampleUnreadable.1 sampleUnreadable.1.reverse :=
      KeepsOrder.swap [] [] (by decide)
    have hstored := (h _ _ sampleUnreadable.2 7 (by decide) hswap).stored "d:b:c"
    revert hstored
    decide +kernel

/-- A stale row whose amount is a text and a missing one, and the payments of two subscriptions in
either order. -/
theorem sameOutcome_reconcile_sample :
    SameOutcome
      (reconcile ([⟨.subscribe, "a", "b", "c", 100, 10⟩, ⟨.subscribe, "d", "b", "c", 50, 30⟩] ++
        [⟨.executed, "a", "b", "c", 100, 40⟩, ⟨.executed, "d", "b", "c", 50, 50⟩])
        (SubscriptionDB.empty.upsert ⟨"a", "b", "c", .text "90", 7, 17, none⟩) 7)
      (reconcile ([⟨.subscribe, "a", "b", "c", 100, 10⟩, ⟨.subscribe, "d", "b", "c", 50, 30⟩] ++
        [⟨.executed, "d", "b", "c", 50, 50⟩, ⟨.executed, "a", "b", "c", 100, 40⟩])
        (SubscriptionDB.empty.upsert ⟨"a", "b", "c", .text "90", 7, 17, none⟩) 7) :=
  sameOutcome_reconcile (KeepsOrder.swap _ [] (by decide)) (by decide)
    (legible_of_forall (by decide +kernel)) 7

end SorobanPay
