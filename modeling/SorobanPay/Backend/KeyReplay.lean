import Mathlib.Data.List.Induction
import SorobanPay.Backend.Reconciler

/-!
# The replay of the reconciler, subscription by subscription

The reconciler replays the events of all subscriptions into one map. Where no text contains a colon,
what is expected of a subscription depends on its own events only: it is what they make of no record
(`replayed`), and nothing is expected of a subscription of which there are at most `executed` events
(`Decided`). The errors of the replay are the `executed` events without a live subscription before
them (`dangling`).

## Main definitions

* `ColonFree`: three texts without colons.
* `ChainEvent.apply`, `replayed`: what events make of the record of a subscription.
* `Decided`, `Live`: what the events of a subscription come to.
* `dangling`: the `executed` events that find no subscription.
* `Legible`: the amounts that are compared can be read.

## Main results

* `get_replayEvents`: what is expected of a subscription.
* `replayEvents_snd`: the errors of the replay.
* `thrown_eq_none_iff`: when nothing is thrown.
-/

set_option autoImplicit false

namespace SorobanPay

open Foundation

/-! ### Texts -/

/-- The texts of a subscription do not contain the character that separates them in a key. -/
def ColonFree (s m t : String) : Prop := ':' ∉ s.toList ∧ ':' ∉ m.toList ∧ ':' ∉ t.toList

instance (s m t : String) : Decidable (ColonFree s m t) :=
  inferInstanceAs (Decidable (_ ∧ _ ∧ _))

/-- The texts of an event contain no colon. -/
def ChainEvent.ColonFree (ev : ChainEvent) : Prop :=
  SorobanPay.ColonFree ev.subscriber ev.merchant ev.token

instance (ev : ChainEvent) : Decidable ev.ColonFree :=
  inferInstanceAs (Decidable (SorobanPay.ColonFree ..))

variable {s m t s' m' t' : String}

theorem ColonFree.recordKey_inj (h : ColonFree s m t) (h' : ColonFree s' m' t') :
    recordKey s m t = recordKey s' m' t' ↔ s = s' ∧ m = m' ∧ t = t' :=
  SorobanPay.recordKey_inj h.1 h.2.1 h.2.2 h'.1 h'.2.1 h'.2.2

theorem ColonFree.splitKey (h : ColonFree s m t) : splitKey (recordKey s m t) = (s, m, t) :=
  splitKey_recordKey h.1 h.2.1 h.2.2

/-! ### One subscription -/

/-- The event is one of a subscription. -/
def ChainEvent.Names (s m t : String) (ev : ChainEvent) : Prop :=
  ev.subscriber = s ∧ ev.merchant = m ∧ ev.token = t

instance (s m t : String) (ev : ChainEvent) : Decidable (ev.Names s m t) :=
  inferInstanceAs (Decidable (_ ∧ _ ∧ _))

/-- What an event makes of the record of its subscription. -/
def ChainEvent.apply (defaultInterval : ℕ) (cur : Option StoredSubscription) (ev : ChainEvent) :
    Option StoredSubscription :=
  match ev.type with
  | .subscribe =>
    let interval := (cur.map (·.interval)).getD defaultInterval
    some
      { subscriber := ev.subscriber
        merchant := ev.merchant
        token := ev.token
        amount := .bigint ev.amount
        interval := interval
        nextPayment := ev.timestamp + interval
        lastPaymentAt := cur.bind (·.lastPaymentAt) }
  | .executed => cur.map fun cur =>
    { cur with
      amount := .bigint ev.amount
      lastPaymentAt := some ev.timestamp
      nextPayment := ev.timestamp + cur.interval }
  | .cancel => none

/-- The record of a subscription after its events. -/
def replayed (defaultInterval : ℕ) (events : List ChainEvent) (s m t : String) :
    Option StoredSubscription :=
  (events.filter fun ev => ev.Names s m t).foldl (ChainEvent.apply defaultInterval) none

/-- Some event starts or ends the subscription. -/
def Decided (events : List ChainEvent) (s m t : String) : Prop :=
  ∃ ev ∈ events, ev.Names s m t ∧ ev.type ≠ .executed

instance (events : List ChainEvent) (s m t : String) : Decidable (Decided events s m t) :=
  inferInstanceAs (Decidable (∃ ev ∈ events, _))

/-- Of the events that start or end the subscription, the last one starts it. -/
def Live (events : List ChainEvent) (s m t : String) : Prop :=
  ((events.filter fun ev => ev.Names s m t ∧ ev.type ≠ .executed).getLast?.map (·.type)) =
    some .subscribe

instance (events : List ChainEvent) (s m t : String) : Decidable (Live events s m t) :=
  inferInstanceAs (Decidable (_ = _))

variable {defaultInterval : ℕ} {events : List ChainEvent} {ev : ChainEvent}

@[simp] theorem replayed_nil : replayed defaultInterval [] s m t = none := rfl

theorem replayed_append_singleton :
    replayed defaultInterval (events ++ [ev]) s m t =
      if ev.Names s m t then ev.apply defaultInterval (replayed defaultInterval events s m t)
      else replayed defaultInterval events s m t := by
  unfold replayed
  by_cases h : ev.Names s m t <;> simp [List.filter_append, h]

theorem decided_append_singleton :
    Decided (events ++ [ev]) s m t ↔
      Decided events s m t ∨ ev.Names s m t ∧ ev.type ≠ .executed := by
  simp [Decided, or_and_right, exists_or]

theorem live_append_singleton :
    Live (events ++ [ev]) s m t ↔
      if ev.Names s m t ∧ ev.type ≠ .executed then ev.type = .subscribe
      else Live events s m t := by
  unfold Live
  by_cases h : ev.Names s m t ∧ ev.type ≠ .executed <;> simp [List.filter_append, h]

variable (defaultInterval) in
/-- There is a record exactly while the subscription is live. -/
theorem isSome_replayed_iff :
    (replayed defaultInterval events s m t).isSome = true ↔ Live events s m t := by
  induction events using List.reverseRecOn with
  | nil => simp [Live]
  | append_singleton events ev ih =>
    rw [replayed_append_singleton, live_append_singleton]
    by_cases hnames : ev.Names s m t
    · rcases htype : ev.type <;> simp [hnames, htype, ChainEvent.apply, ih]
    · simp [hnames, ih]

/-- Without an event that starts or ends the subscription there is no record. -/
theorem replayed_eq_none (h : ¬ Decided events s m t) :
    replayed defaultInterval events s m t = none := by
  induction events using List.reverseRecOn with
  | nil => rfl
  | append_singleton events ev ih =>
    rw [decided_append_singleton, not_or] at h
    rw [replayed_append_singleton, ih h.1]
    split_ifs with hnames
    · have htype : ev.type = .executed := not_not.1 fun hne => h.2 ⟨hnames, hne⟩
      rw [ChainEvent.apply, htype]
      rfl
    · rfl

theorem join_ite_decided :
    (if Decided events s m t then some (replayed defaultInterval events s m t) else none).join =
      replayed defaultInterval events s m t := by
  split_ifs with h
  · rfl
  · rw [replayed_eq_none h, Option.join_none]

/-- The record of a subscription is one of that subscription. -/
theorem names_of_replayed {r : StoredSubscription}
    (h : replayed defaultInterval events s m t = some r) :
    r.subscriber = s ∧ r.merchant = m ∧ r.token = t := by
  induction events using List.reverseRecOn generalizing r with
  | nil => cases h
  | append_singleton events ev ih =>
    rw [replayed_append_singleton] at h
    split_ifs at h with hnames
    · rcases htype : ev.type with _ | _ | _
      · rw [ChainEvent.apply, htype] at h
        obtain rfl := Option.some.inj h
        exact hnames
      · rw [ChainEvent.apply, htype] at h
        obtain ⟨cur, hcur, rfl⟩ := Option.map_eq_some_iff.1 h
        exact ih (r := cur) hcur
      · rw [ChainEvent.apply, htype] at h
        cases h
    · exact ih h

/-- The amounts that are expected are numbers. -/
theorem exists_bigint_of_replayed {r : StoredSubscription}
    (h : replayed defaultInterval events s m t = some r) : ∃ n, r.amount = .bigint n := by
  induction events using List.reverseRecOn generalizing r with
  | nil => cases h
  | append_singleton events ev ih =>
    rw [replayed_append_singleton] at h
    split_ifs at h with hnames
    · rcases htype : ev.type with _ | _ | _
      · rw [ChainEvent.apply, htype] at h
        obtain rfl := Option.some.inj h
        exact ⟨ev.amount, rfl⟩
      · rw [ChainEvent.apply, htype] at h
        obtain ⟨cur, -, rfl⟩ := Option.map_eq_some_iff.1 h
        exact ⟨ev.amount, rfl⟩
      · rw [ChainEvent.apply, htype] at h
        cases h
    · exact ih h

/-! ### The replay -/

/-- The key of an event. -/
def ChainEvent.key (ev : ChainEvent) : String := recordKey ev.subscriber ev.merchant ev.token

/-- What is reported of an `executed` event without a live subscription before it. -/
def danglingText (ev : ChainEvent) : String :=
  "executed event for " ++ ev.key ++ " at t=" ++ toString ev.timestamp ++
    " has no preceding subscribe"

/-- The `executed` events without a live subscription before them, if the events come after those
in `before`. -/
def dangling (before : List ChainEvent) : List ChainEvent → List ChainEvent
  | [] => []
  | ev :: events =>
    if ev.type = .executed ∧ ¬ Live before ev.subscriber ev.merchant ev.token then
      ev :: dangling (before ++ [ev]) events
    else dangling (before ++ [ev]) events

/-- One event of the replay. -/
theorem replayEvent_eq (expected : Expected) (errors : List String) (ev : ChainEvent) :
    replayEvent defaultInterval (expected, errors) ev =
      if ev.type = .executed ∧ (expected.get ev.key).join = none then
        (expected, errors ++ [danglingText ev])
      else (expected.set ev.key (ev.apply defaultInterval (expected.get ev.key).join), errors) := by
  unfold ChainEvent.key
  rcases htype : ev.type with _ | _ | _
  · rw [if_neg (by simp), ChainEvent.apply, htype]
    simp only [replayEvent, htype]
  · rcases hcur : (expected.get (recordKey ev.subscriber ev.merchant ev.token)).join with _ | cur
    · rw [if_pos ⟨rfl, rfl⟩, replayEvent, htype]
      dsimp only
      rw [hcur]
      unfold danglingText ChainEvent.key
      rfl
    · rw [if_neg (by simp), ChainEvent.apply, replayEvent, htype]
      dsimp only
      rw [hcur]
      rfl
  · rw [if_neg (by simp), ChainEvent.apply, htype]
    simp only [replayEvent, htype]

theorem replayEvents_append_singleton :
    replayEvents (events ++ [ev]) defaultInterval =
      replayEvent defaultInterval (replayEvents events defaultInterval) ev := by
  rw [replayEvents, List.foldl_append]
  rfl

/-- A key that no event has is not expected. -/
theorem get_replayEvents_of_not_key {key : String} (h : ∀ ev ∈ events, key ≠ ev.key) :
    (replayEvents events defaultInterval).1.get key = none := by
  induction events using List.reverseRecOn with
  | nil => rfl
  | append_singleton events ev ih =>
    have hne : key ≠ ev.key := h ev (by simp)
    have ih := ih fun ev' h' => h ev' (List.mem_append_left _ h')
    rw [replayEvents_append_singleton, replayEvent_eq]
    split_ifs
    · exact ih
    · rw [InsertionMap.get_set, if_neg hne, ih]

/-- **What is expected of a subscription.** -/
theorem get_replayEvents (hevents : ∀ ev ∈ events, ev.ColonFree) (hkey : ColonFree s m t) :
    (replayEvents events defaultInterval).1.get (recordKey s m t) =
      if Decided events s m t then some (replayed defaultInterval events s m t) else none := by
  induction events using List.reverseRecOn with
  | nil => rfl
  | append_singleton events ev ih =>
    have hev := hevents ev (by simp)
    have ih := ih fun ev' h' => hevents ev' (List.mem_append_left _ h')
    have hnames : recordKey s m t = ev.key ↔ ev.Names s m t := by
      rw [ChainEvent.key, hkey.recordKey_inj hev, ChainEvent.Names, eq_comm (a := s)]
      tauto
    have hjoin : ((replayEvents events defaultInterval).1.get (recordKey s m t)).join =
        replayed defaultInterval events s m t := by rw [ih, join_ite_decided]
    rw [replayEvents_append_singleton, replayEvent_eq, replayed_append_singleton]
    simp only [decided_append_singleton]
    by_cases hnamed : ev.Names s m t
    · rw [← hnames.2 hnamed, hjoin]
      by_cases hskip : ev.type = .executed ∧ replayed defaultInterval events s m t = none
      · -- the event changes nothing
        simp [hskip, hnamed, ih, ChainEvent.apply]
      · have hdecided : Decided events s m t ∨ ev.Names s m t ∧ ev.type ≠ .executed := by
          by_cases htype : ev.type = .executed
          · exact .inl (not_not.1 fun h => hskip ⟨htype, replayed_eq_none h⟩)
          · exact .inr ⟨hnamed, htype⟩
        rw [if_neg hskip, InsertionMap.get_set, if_pos rfl, if_pos hdecided, if_pos hnamed]
    · have hne : recordKey s m t ≠ ev.key := fun h => hnamed (hnames.1 h)
      simp only [hnamed, false_and, or_false, if_false]
      split_ifs <;> simp [InsertionMap.get_set, *]

/-- What is expected has been subscribed or cancelled by some event. -/
theorem exists_key_of_get_replayEvents {key : String} {want : Option StoredSubscription}
    (h : (replayEvents events defaultInterval).1.get key = some want) :
    ∃ ev ∈ events, ev.key = key := by
  by_contra hnone
  rw [get_replayEvents_of_not_key fun ev hev heq => hnone ⟨ev, hev, heq.symm⟩] at h
  cases h

/-- A record that is expected has the names of an event with its key. -/
theorem exists_names_of_get_replayEvents (hevents : ∀ ev ∈ events, ev.ColonFree) {key : String}
    {r : StoredSubscription}
    (h : (replayEvents events defaultInterval).1.get key = some (some r)) :
    ∃ ev ∈ events, ev.key = key ∧
      r.subscriber = ev.subscriber ∧ r.merchant = ev.merchant ∧ r.token = ev.token := by
  obtain ⟨ev, hev, rfl⟩ := exists_key_of_get_replayEvents h
  rw [ChainEvent.key, get_replayEvents hevents (hevents ev hev)] at h
  split_ifs at h
  exact ⟨ev, hev, rfl, names_of_replayed (Option.some.inj h)⟩

/-- The amount of a record that is expected is a number. -/
theorem exists_bigint_of_get_replayEvents (hevents : ∀ ev ∈ events, ev.ColonFree) {key : String}
    {r : StoredSubscription}
    (h : (replayEvents events defaultInterval).1.get key = some (some r)) :
    ∃ n, r.amount = .bigint n := by
  obtain ⟨ev, hev, rfl⟩ := exists_key_of_get_replayEvents h
  rw [ChainEvent.key, get_replayEvents hevents (hevents ev hev)] at h
  split_ifs at h
  exact exists_bigint_of_replayed (Option.some.inj h)

variable (defaultInterval) in
theorem keyed_replayEvents (hevents : ∀ ev ∈ events, ev.ColonFree) :
    (replayEvents events defaultInterval).1.Keyed where
  split key want h s m t hsplit := by
    obtain ⟨ev, hev, rfl⟩ := exists_key_of_get_replayEvents h
    rw [ChainEvent.key, (hevents ev hev).splitKey] at hsplit
    obtain ⟨rfl, rfl, rfl⟩ := hsplit
    rfl
  own key record h := by
    obtain ⟨ev, -, rfl, hs, hm, ht⟩ := exists_names_of_get_replayEvents hevents h
    rw [hs, hm, ht, ChainEvent.key]

/-- The record that is expected of a subscription, or none. -/
theorem join_get_replayEvents (hevents : ∀ ev ∈ events, ev.ColonFree) (hkey : ColonFree s m t) :
    ((replayEvents events defaultInterval).1.get (recordKey s m t)).join =
      replayed defaultInterval events s m t := by
  rw [get_replayEvents hevents hkey, join_ite_decided]

theorem foldl_replayEvent_snd (before : List ChainEvent)
    (hevents : ∀ ev ∈ before ++ events, ev.ColonFree) :
    (events.foldl (replayEvent defaultInterval) (replayEvents before defaultInterval)).2 =
      (replayEvents before defaultInterval).2 ++ (dangling before events).map danglingText := by
  induction events generalizing before with
  | nil => simp [dangling]
  | cons ev events ih =>
    have hev : ev.ColonFree := hevents ev (by simp)
    have hbefore : ∀ ev' ∈ before, ev'.ColonFree := fun ev' h =>
      hevents ev' (List.mem_append_left _ h)
    have hlive : ((replayEvents before defaultInterval).1.get ev.key).join = none ↔
        ¬ Live before ev.subscriber ev.merchant ev.token := by
      rw [ChainEvent.key, join_get_replayEvents hbefore hev,
        ← isSome_replayed_iff defaultInterval]
      simp
    rw [List.foldl_cons, ← replayEvents_append_singleton, ih _ (by simpa using hevents),
      replayEvents_append_singleton, replayEvent_eq, dangling]
    simp only [hlive]
    split_ifs <;> simp

/-- **The errors of the replay** are the `executed` events without a live subscription before
them. -/
theorem replayEvents_snd (hevents : ∀ ev ∈ events, ev.ColonFree) :
    (replayEvents events defaultInterval).2 = (dangling [] events).map danglingText :=
  foldl_replayEvent_snd [] hevents

/-! ### Amounts that cannot be read -/

/-- Wherever a subscription is live, the amount of the row that is stored for it is an integer. The
amount of a row with another token is not looked at. -/
def Legible (events : List ChainEvent) (db : SubscriptionDB) : Prop :=
  ∀ s m t r, ColonFree s m t → Live events s m t → db.get s m t = some r → r.token = t →
    r.amount.Readable

/-- Every amount that is stored is an integer. -/
theorem legible_of_forall {db : SubscriptionDB} (h : ∀ r ∈ db.all, r.amount.Readable) :
    Legible events db := fun _ _ _ r _ _ hget _ =>
  h r (InsertionMap.mem_values_iff.2 ⟨_, hget⟩)

theorem failureOf_eq_none_iff {db : SubscriptionDB} (hkey : ColonFree s m t)
    {want : Option StoredSubscription} (hwant : ∀ w, want = some w → ∃ n, w.amount = .bigint n) :
    failureOf db (recordKey s m t, want) = none ↔
      ∀ w r, want = some w → db.get s m t = some r → r.token = w.token → r.amount.Readable := by
  rcases hstored : db.get s m t with _ | stored
  · rcases want with _ | want <;> simp [failureOf, compareEntry, hkey.splitKey, hstored]
  · rcases want with _ | want
    · simp [failureOf, compareEntry, hkey.splitKey, hstored]
    · obtain ⟨n, hn⟩ := hwant want rfl
      have herror := recordsMatch_eq_error_iff (a := stored) (b := want) ⟨n, by rw [hn]; rfl⟩
      rcases hmatch : recordsMatch stored want with error | _ | _
      all_goals
        rw [hmatch] at herror
        simpa [failureOf, compareEntry, hkey.splitKey, hstored, hmatch] using herror

/-- **When nothing is thrown**: the amounts that are compared can be read. -/
theorem thrown_eq_none_iff (hevents : ∀ ev ∈ events, ev.ColonFree) (db : SubscriptionDB)
    (defaultInterval : ℕ) :
    thrown db (replayEvents events defaultInterval).1.entries = none ↔ Legible events db := by
  have hfailure : ∀ {key want}, (replayEvents events defaultInterval).1.get key = some want →
      ∀ {s m t}, ColonFree s m t → key = recordKey s m t →
        (failureOf db (key, want) = none ↔ ∀ w r, want = some w → db.get s m t = some r →
          r.token = w.token → r.amount.Readable) := by
    rintro key want hget s m t hkey rfl
    refine failureOf_eq_none_iff hkey fun w hw => ?_
    exact exists_bigint_of_get_replayEvents hevents (hget.trans (congrArg some hw))
  rw [thrown, List.findSome?_eq_none_iff]
  constructor
  · intro h s m t r hkey hlive hstored htoken
    rw [← isSome_replayed_iff defaultInterval, Option.isSome_iff_exists] at hlive
    obtain ⟨w, hw⟩ := hlive
    have hget : (replayEvents events defaultInterval).1.get (recordKey s m t) = some (some w) := by
      have hjoin : ((replayEvents events defaultInterval).1.get (recordKey s m t)).join =
          replayed defaultInterval events s m t := join_get_replayEvents hevents hkey
      rwa [hw, Option.join_eq_some_iff] at hjoin
    refine (hfailure hget hkey rfl).1 (h _ (InsertionMap.mem_entries_iff.2 hget)) w r rfl hstored ?_
    rw [htoken, (names_of_replayed hw).2.2]
  · rintro h ⟨key, want⟩ hentry
    have hget := InsertionMap.mem_entries_iff.1 hentry
    obtain ⟨ev, hev, rfl⟩ := exists_key_of_get_replayEvents hget
    refine (hfailure hget (hevents ev hev) rfl).2 fun w r hw hstored htoken => ?_
    have hreplayed : (replayEvents events defaultInterval).1.get ev.key = _ :=
      get_replayEvents hevents (hevents ev hev)
    rw [hget, hw] at hreplayed
    split_ifs at hreplayed
    have hw' := (Option.some.inj hreplayed).symm
    refine h _ _ _ r (hevents ev hev) ?_ hstored (htoken.trans (names_of_replayed hw').2.2)
    rw [← isSome_replayed_iff defaultInterval, hw']
    rfl

end SorobanPay
