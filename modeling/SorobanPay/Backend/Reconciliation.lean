import SorobanPay.Backend.Reconciler
import SorobanPay.Lifecycle.Observer
import SorobanPay.Tokens.Ledger

/-!
# The reconciled records against the records of the contract

The reconciler keeps its records by subscriber, merchant and token, the contract by subscriber and
merchant. A `subscribe` and an `executed` name the token, a `cancel` does not: the key of a `cancel`
has the empty string for the token, and no record is under such a key. So a cancelled subscription
stays in the database, and so does one that has been made again in another token.

What is stored is determined by the `subscribe` events alone (`Tracks.record_iff`), and
`reconciled_iff` says that the reconciled records of a run are right as long as nothing is
cancelled, made again in another token, or transferred.

## Main definitions

* `Naming`, `Event.toChainEvent`: the events of the contract as the reconciler receives them.
* `Tracks`: the expected records after some events.
* `Reconciles`: the reconciled database has one record for each live pair.
* `Step.Strands`: the steps after which a record is left over.

## Main results

* `tracks_replayEvents`: what the replay expects.
* `reconciles_iff`: the reconciled records in terms of the `subscribe` events.
* `reconciled_iff`: when the reconciled records of a run are right.
* `not_reconciles_cancelled`: when they are not.
-/

set_option autoImplicit false

namespace SorobanPay

open Foundation SubscriptionData

variable {Address Hash World Op : Type}

/-! ### Events -/

/-- How addresses are written: differently, not as the empty string, and without a colon. -/
structure Naming (Address : Type) where
  text : Address → String
  injective : Function.Injective text
  ne_empty : ∀ a, text a ≠ ""
  no_colon : ∀ a, ':' ∉ (text a).toList

/-- An event of the contract as an event of the reconciler. A topic that the event does not carry is
the empty string. -/
def Event.toChainEvent (N : Naming Address) (timestamp : ℕ) : Event Address → Option ChainEvent
  | .subscribe s m token amount =>
    some ⟨.subscribe, N.text s, N.text m, N.text token, amount, timestamp⟩
  | .executed s m token amount _ =>
    some ⟨.executed, N.text s, N.text m, N.text token, amount, timestamp⟩
  | .cancel s m _ => some ⟨.cancel, N.text s, N.text m, "", 0, timestamp⟩
  | _ => none

/-- The events of the reconciler for the events of the contract, each with its ledger time. -/
def chainEvents (N : Naming Address) (stamped : List (ℕ × Event Address)) : List ChainEvent :=
  stamped.filterMap fun event => event.2.toChainEvent N event.1

/-! ### The replay -/

/-- The key of a pair and a token. -/
def Naming.key (N : Naming Address) (s m token : Address) : String :=
  recordKey (N.text s) (N.text m) (N.text token)

/-- The pairs and tokens that some event subscribes. -/
def subscribed (events : List (Event Address)) : Set (Address × Address × Address) :=
  {p | ∃ amount, .subscribe p.1 p.2.1 p.2.2 amount ∈ events}

/-- The expected records are those of the pairs and tokens in `S`, each under its own key. -/
structure Tracks (N : Naming Address) (expected : Expected)
    (S : Set (Address × Address × Address)) : Prop where
  split : ∀ key want, expected.get key = some want → ∀ a b c, splitKey key = (a, b, c) →
    recordKey a b c = key
  record : ∀ key r, expected.get key = some (some r) → ∃ s m token, (s, m, token) ∈ S ∧
    key = N.key s m token ∧ r.subscriber = N.text s ∧ r.merchant = N.text m ∧
      r.token = N.text token
  present : ∀ s m token, (s, m, token) ∈ S → ∃ r, expected.get (N.key s m token) = some (some r)

section Replay

variable {N : Naming Address} {expected : Expected} {S : Set (Address × Address × Address)}
  {s m token : Address}

theorem Naming.key_inj {s' m' token' : Address} :
    N.key s m token = N.key s' m' token' ↔ s = s' ∧ m = m' ∧ token = token' := by
  rw [key, key, recordKey_inj (N.no_colon s) (N.no_colon m) (N.no_colon token) (N.no_colon s')
    (N.no_colon m') (N.no_colon token'), N.injective.eq_iff, N.injective.eq_iff,
    N.injective.eq_iff]

/-- The key of a `cancel` is the key of no record. -/
theorem Naming.key_ne_cancel (s' m' : Address) :
    N.key s m token ≠ recordKey (N.text s') (N.text m') "" := by
  rw [Ne, key, recordKey_inj (N.no_colon s) (N.no_colon m) (N.no_colon token) (N.no_colon s')
    (N.no_colon m') (by simp)]
  exact fun h => N.ne_empty token h.2.2

theorem Tracks.empty : Tracks N .empty ∅ where
  split key want h := by cases h
  record key r h := by cases h
  present s m token h := h.elim

theorem Tracks.keyed (h : Tracks N expected S) : expected.Keyed where
  split := h.split
  own key r hr := by
    obtain ⟨s, m, token, -, rfl, hs, hm, ht⟩ := h.record key r hr
    rw [hs, hm, ht, Naming.key]

/-- Which records are expected. -/
theorem Tracks.present_iff (h : Tracks N expected S) :
    (∃ r, expected.get (N.key s m token) = some (some r)) ↔ (s, m, token) ∈ S := by
  refine ⟨fun ⟨r, hr⟩ => ?_, h.present s m token⟩
  obtain ⟨s', m', token', hmem, hkey, -⟩ := h.record _ r hr
  obtain ⟨rfl, rfl, rfl⟩ := Naming.key_inj.1 hkey
  exact hmem

/-- A record is set under its key. -/
theorem Tracks.set (h : Tracks N expected S) {r : StoredSubscription}
    (hs : r.subscriber = N.text s) (hm : r.merchant = N.text m) (ht : r.token = N.text token) :
    Tracks N (expected.set (N.key s m token) (some r)) (insert (s, m, token) S) where
  split key want hwant a b c hparts := by
    rw [InsertionMap.get_set] at hwant
    split_ifs at hwant with hkey
    · rw [hkey, Naming.key, splitKey_recordKey (N.no_colon s) (N.no_colon m)
        (N.no_colon token)] at hparts
      cases hparts
      exact hkey.symm
    · exact h.split key want hwant a b c hparts
  record key r' hr' := by
    rw [InsertionMap.get_set] at hr'
    split_ifs at hr' with hkey
    · obtain rfl : r = r' := by simpa using hr'
      exact ⟨s, m, token, Set.mem_insert _ _, hkey, hs, hm, ht⟩
    · obtain ⟨s', m', token', hmem, hrest⟩ := h.record key r' hr'
      exact ⟨s', m', token', Set.mem_insert_of_mem _ hmem, hrest⟩
  present s' m' token' hmem := by
    rw [InsertionMap.get_set]
    split_ifs with hkey
    · exact ⟨r, rfl⟩
    · rcases hmem with heq | hmem
      · cases heq
        exact (hkey rfl).elim
      · exact h.present s' m' token' hmem

/-- No record is set under the key of a `cancel`. -/
theorem Tracks.cancel (h : Tracks N expected S) (s m : Address) :
    Tracks N (expected.set (recordKey (N.text s) (N.text m) "") none) S where
  split key want hwant a b c hparts := by
    rw [InsertionMap.get_set] at hwant
    split_ifs at hwant with hkey
    · rw [hkey, splitKey_recordKey (N.no_colon s) (N.no_colon m) (by simp)] at hparts
      cases hparts
      exact hkey.symm
    · exact h.split key want hwant a b c hparts
  record key r hr := by
    rw [InsertionMap.get_set] at hr
    split_ifs at hr with hkey
    · simp at hr
    · exact h.record key r hr
  present s' m' token hmem := by
    rw [InsertionMap.get_set, if_neg (Naming.key_ne_cancel s m)]
    exact h.present s' m' token hmem

variable {errors : List String} {defaultInterval timestamp : ℕ} {event : Event Address}

/-- One event of the replay. -/
theorem Tracks.replayEvent (h : Tracks N expected S) {ev : ChainEvent}
    (hev : event.toChainEvent N timestamp = some ev) :
    Tracks N (SorobanPay.replayEvent defaultInterval (expected, errors) ev).1
      (S ∪ subscribed [event]) := by
  cases event with
  | subscribe s m token amount =>
    obtain rfl := Option.some.inj hev
    have hS : S ∪ subscribed [.subscribe s m token amount] = insert (s, m, token) S := by
      ext ⟨s', m', token'⟩
      simp only [subscribed, Set.mem_union, Set.mem_ofPred_eq, List.mem_singleton,
        Event.subscribe.injEq, Set.mem_insert_iff, Prod.mk.injEq]
      tauto
    rw [hS]
    exact h.set rfl rfl rfl
  | executed s m token amount nonce =>
    obtain rfl := Option.some.inj hev
    have hS : S ∪ subscribed [.executed s m token amount nonce] = S := by simp [subscribed]
    rw [hS]
    rcases hget : expected.get (recordKey (N.text s) (N.text m) (N.text token)) with _ | _ | r
    · simpa [SorobanPay.replayEvent, hget] using h
    · simpa [SorobanPay.replayEvent, hget] using h
    · have hmem := h.present_iff.1 ⟨r, hget⟩
      obtain ⟨s', m', token', -, hkey, hs, hm, ht⟩ := h.record _ r hget
      have hsame : N.key s m token = N.key s' m' token' := hkey
      obtain ⟨rfl, rfl, rfl⟩ := Naming.key_inj.1 hsame
      rw [← Set.insert_eq_of_mem hmem]
      simp only [SorobanPay.replayEvent, hget, Option.join_some]
      exact h.set hs hm ht
  | cancel s m reason =>
    obtain rfl := Option.some.inj hev
    have hS : S ∪ subscribed [.cancel s m reason] = S := by simp [subscribed]
    rw [hS]
    exact h.cancel s m
  | _ => cases hev

theorem subscribed_cons (event : Event Address) (events : List (Event Address)) :
    subscribed (event :: events) = subscribed [event] ∪ subscribed events := by
  ext p
  simp only [subscribed, Set.mem_union, Set.mem_ofPred_eq, List.mem_cons, List.not_mem_nil,
    or_false, exists_or]

theorem tracks_foldl {stamped : List (ℕ × Event Address)} (h : Tracks N expected S) :
    Tracks N ((chainEvents N stamped).foldl (SorobanPay.replayEvent defaultInterval)
      (expected, errors)).1 (S ∪ subscribed (stamped.map Prod.snd)) := by
  induction stamped generalizing expected S errors with
  | nil => simpa [chainEvents, subscribed] using h
  | cons first stamped ih =>
    obtain ⟨timestamp, event⟩ := first
    rw [List.map_cons, subscribed_cons, ← Set.union_assoc]
    rcases hev : event.toChainEvent N timestamp with _ | ev
    · have hnone : subscribed [event] = ∅ := by
        cases event with
        | subscribe | executed | cancel => cases hev
        | _ => simp [subscribed]
      have hskip : chainEvents N ((timestamp, event) :: stamped) = chainEvents N stamped :=
        List.filterMap_cons_none hev
      rw [hskip, hnone, Set.union_empty]
      exact ih h
    · have hcons : chainEvents N ((timestamp, event) :: stamped) =
          ev :: chainEvents N stamped := List.filterMap_cons_some hev
      rw [hcons, List.foldl_cons]
      exact ih (h.replayEvent hev)

/-- **What the replay expects.** A record for each pair and token that is subscribed. -/
theorem tracks_replayEvents (N : Naming Address) (stamped : List (ℕ × Event Address))
    (defaultInterval : ℕ) :
    Tracks N (replayEvents (chainEvents N stamped) defaultInterval).1
      (subscribed (stamped.map Prod.snd)) := by
  rw [← Set.empty_union (subscribed _)]
  exact tracks_foldl Tracks.empty

end Replay

/-! ### The reconciled database -/

/-- The pair of a record. -/
def StoredSubscription.pair (r : StoredSubscription) : String × String := (r.subscriber, r.merchant)

section Database

variable {N : Naming Address} (stamped : List (ℕ × Event Address)) (defaultInterval : ℕ)

/-- The records after an empty database has been reconciled. -/
theorem get_reconcile_iff (key : String) (r : StoredSubscription) :
    (reconcile (chainEvents N stamped) .empty defaultInterval).1.store.get key = some r ↔
      (replayEvents (chainEvents N stamped) defaultInterval).1.get key = some (some r) := by
  rw [get_reconcile (tracks_replayEvents N stamped defaultInterval).keyed, Option.join_eq_some_iff]

/-- The pairs of the records are those that some event subscribes. -/
theorem mem_pairs_iff (p : String × String) :
    p ∈ (reconcile (chainEvents N stamped) .empty defaultInterval).1.all.map
        StoredSubscription.pair ↔
      ∃ s m token, (s, m, token) ∈ subscribed (stamped.map Prod.snd) ∧
        p = (N.text s, N.text m) := by
  have htracks := tracks_replayEvents N stamped defaultInterval
  simp only [SubscriptionDB.all, List.mem_map, InsertionMap.mem_values_iff, get_reconcile_iff]
  constructor
  · rintro ⟨r, ⟨key, hr⟩, rfl⟩
    obtain ⟨s, m, token, hmem, -, hs, hm, -⟩ := htracks.record key r hr
    exact ⟨s, m, token, hmem, by rw [StoredSubscription.pair, hs, hm]⟩
  · rintro ⟨s, m, token, hmem, rfl⟩
    obtain ⟨r, hr⟩ := htracks.present s m token hmem
    obtain ⟨s', m', token', -, hkey, hs, hm, -⟩ := htracks.record _ r hr
    obtain ⟨rfl, rfl, rfl⟩ := Naming.key_inj.1 hkey
    exact ⟨r, ⟨_, hr⟩, by rw [StoredSubscription.pair, hs, hm]⟩

/-- A pair has one record exactly if it is subscribed in one token only. -/
theorem nodup_pairs_iff :
    ((reconcile (chainEvents N stamped) .empty defaultInterval).1.all.map
        StoredSubscription.pair).Nodup ↔
      ∀ s m token token', (s, m, token) ∈ subscribed (stamped.map Prod.snd) →
        (s, m, token') ∈ subscribed (stamped.map Prod.snd) → token = token' := by
  have htracks := tracks_replayEvents N stamped defaultInterval
  simp only [SubscriptionDB.all, InsertionMap.nodup_map_values_iff, get_reconcile_iff]
  constructor
  · intro h s m token token' hmem hmem'
    obtain ⟨r, hr⟩ := htracks.present s m token hmem
    obtain ⟨r', hr'⟩ := htracks.present s m token' hmem'
    obtain ⟨_, _, _, -, hkey, hs, hm, -⟩ := htracks.record _ r hr
    obtain ⟨_, _, _, -, hkey', hs', hm', -⟩ := htracks.record _ r' hr'
    obtain ⟨rfl, rfl, rfl⟩ := Naming.key_inj.1 hkey
    obtain ⟨rfl, rfl, rfl⟩ := Naming.key_inj.1 hkey'
    have hpair : r.pair = r'.pair := by
      rw [StoredSubscription.pair, StoredSubscription.pair, hs, hm, hs', hm']
    exact (Naming.key_inj.1 (h _ _ r r' hr hr' hpair)).2.2
  · intro h key key' r r' hr hr' hpair
    obtain ⟨s, m, token, hmem, rfl, hs, hm, -⟩ := htracks.record _ r hr
    obtain ⟨s', m', token', hmem', rfl, hs', hm', -⟩ := htracks.record _ r' hr'
    rw [StoredSubscription.pair, StoredSubscription.pair, hs, hm, hs', hm', Prod.mk.injEq,
      N.injective.eq_iff, N.injective.eq_iff] at hpair
    obtain ⟨rfl, rfl⟩ := hpair
    rw [h s m token token' hmem hmem']

end Database

/-! ### Acts -/

/-- How an event changes the tokens in which the pair `(s, m)` has been subscribed. -/
def Event.noteToken [DecidableEq Address] (s m : Address) (tokens : Set Address) :
    Event Address → Set Address
  | .subscribe s' m' token _ => if s' = s ∧ m' = m then insert token tokens else tokens
  | _ => tokens

/-- How an act changes the tokens in which the pair has been subscribed. -/
def Act.noteToken (tokens : Set Address) : Act Address → Set Address
  | .subscribe _ d => insert d.token tokens
  | _ => tokens

/-- The pair has been subscribed in the token of its record and in no other. -/
def OneToken (tokens : Set Address) (r : Option (SubscriptionData Address)) : Prop :=
  ∀ token, token ∈ tokens ↔ ∃ d, r = some d ∧ d.token = token

/-- The acts after which a record is left over: the end of a subscription, a subscription in another
token, and a transfer. -/
def Act.Strands (r : Option (SubscriptionData Address)) : Act Address → Prop
  | .subscribe _ d => ∃ d₀, r = some d₀ ∧ d₀.token ≠ d.token
  | .cancel _ | .moveOut _ | .moveIn .. => True
  | _ => False

theorem oneToken_some {tokens : Set Address} {d : SubscriptionData Address} :
    OneToken tokens (some d) ↔ tokens = {d.token} := by
  simp [OneToken, Set.ext_iff, eq_comm]

theorem oneToken_none {tokens : Set Address} :
    OneToken tokens (none : Option (SubscriptionData Address)) ↔ tokens = ∅ := by
  simp [OneToken, Set.eq_empty_iff_forall_notMem]

theorem Lifecycle.oneToken {r r' : Option (SubscriptionData Address)} {a : Act Address}
    {tokens : Set Address} (h : Lifecycle r a r') (hkept : ¬ a.Strands r)
    (hone : OneToken tokens r) : OneToken (a.noteToken tokens) r' := by
  cases h with
  | @subscribe _ now gracePeriod token =>
    rw [oneToken_some, Act.noteToken, opened_token]
    rcases r with _ | d₀
    · rw [oneToken_none.1 hone, insert_empty_eq]
    · have hsame : d₀.token = token := not_not.1 fun hne => hkept ⟨d₀, rfl, hne⟩
      rw [oneToken_some.1 hone, hsame, Set.pair_eq_singleton]
  | update | pause | resume | collect | markOverdue =>
    rw [oneToken_some] at hone ⊢
    exact hone
  | cancel | moveOut | moveIn => exact (hkept trivial).elim

/-- The pair has been subscribed, and in one token only, exactly if it is live. -/
def OneRecord (tokens : Set Address) (r : Option (SubscriptionData Address)) : Prop :=
  ((∃ token, token ∈ tokens) ↔ r.isSome = true) ∧
    ∀ token token', token ∈ tokens → token' ∈ tokens → token = token'

theorem OneToken.oneRecord {tokens : Set Address} {r : Option (SubscriptionData Address)}
    (h : OneToken tokens r) : OneRecord tokens r := by
  constructor
  · rw [Option.isSome_iff_exists]
    constructor
    · rintro ⟨token, hmem⟩
      obtain ⟨d, hd, -⟩ := (h token).1 hmem
      exact ⟨d, hd⟩
    · rintro ⟨d, hd⟩
      exact ⟨d.token, (h _).2 ⟨d, hd, rfl⟩⟩
  · intro token token' hmem hmem'
    obtain ⟨d, hd, rfl⟩ := (h token).1 hmem
    obtain ⟨d', hd', rfl⟩ := (h token').1 hmem'
    rw [Option.some.inj (hd.symm.trans hd')]

theorem Lifecycle.not_oneRecord {r r' : Option (SubscriptionData Address)} {a : Act Address}
    {tokens : Set Address} (h : Lifecycle r a r') (hstrands : a.Strands r)
    (hone : OneToken tokens r) : ¬ OneRecord (a.noteToken tokens) r' := by
  rintro ⟨hlive, hunique⟩
  cases h with
  | subscribe =>
    obtain ⟨d₀, rfl, hne⟩ := hstrands
    exact hne (hunique _ _ (Set.mem_insert_of_mem _ ((hone _).2 ⟨d₀, rfl, rfl⟩))
      (Set.mem_insert _ _))
  | @cancel d | @moveOut d =>
    exact Bool.false_ne_true (hlive.1 ⟨d.token, (hone _).2 ⟨d, rfl, rfl⟩⟩)
  | moveIn =>
    obtain ⟨token, hmem⟩ := hlive.2 rfl
    obtain ⟨d, hd, -⟩ := (hone token).1 hmem
    cases hd
  | update | pause | resume | collect | markOverdue => exact hstrands

/-- The tokens in which a pair has been subscribed as an observer of the pair. -/
def tokenObserver : Observer Address (Set Address) where
  init := ∅
  note := Act.noteToken
  Good := OneRecord
  Inv := OneToken
  Missed r a := a.Strands r
  plain r a h := by cases a <;> first | exact h.elim | trivial
  good _ _ h := h.oneRecord
  start := oneToken_none.2 rfl
  keep _ _ _ _ h hkept hone := h.oneToken hkept hone
  lose _ _ _ _ h _ hstrands hone := h.not_oneRecord hstrands hone

theorem reads_noteToken [DecidableEq Address] :
    Observer.Reads (tokenObserver : Observer Address (Set Address)) Event.noteToken where
  skip s m v event h := by cases event <;> first | rfl | cases h
  silent v a h := by cases a <;> first | rfl | cases h
  subscribe _ _ _ _ _ _ _ _ _ _ := rfl
  executed _ _ v s' m' now d := by simp [Event.noteToken, tokenObserver, Act.noteToken]
  cancel _ _ _ _ _ _ := by simp [Event.noteToken, tokenObserver, Act.noteToken]

/-! ### Runs -/

section Runs

variable [DecidableEq Address] {H : Host Address Hash World Op} {N : Naming Address}
  {σ : State Address Hash World}

/-- However the events are stamped, an empty database that is reconciled with them has one record
for each live pair and no others. -/
def Reconciles (H : Host Address Hash World Op) (N : Naming Address)
    (σ : State Address Hash World) : Prop :=
  ∀ stamped defaultInterval, stamped.map Prod.snd = σ.events →
    Enumerates
      ((reconcile (chainEvents N stamped) .empty defaultInterval).1.all.map
        StoredSubscription.pair)
      {p | ∃ s m, (H.record σ s m).isSome = true ∧ p = (N.text s, N.text m)}

theorem mem_foldl_noteToken (events : List (Event Address)) (s m token : Address)
    (tokens : Set Address) :
    token ∈ events.foldl (Event.noteToken s m) tokens ↔
      token ∈ tokens ∨ (s, m, token) ∈ subscribed events := by
  induction events generalizing tokens with
  | nil => simp [subscribed]
  | cons event events ih =>
    rw [List.foldl_cons, ih, subscribed_cons, Set.mem_union, ← or_assoc]
    refine or_congr_left ?_
    cases event with
    | subscribe s' m' token' amount =>
      simp only [Event.noteToken, subscribed, Set.mem_ofPred_eq, List.mem_singleton,
        Event.subscribe.injEq]
      split_ifs with hpair
      · obtain ⟨rfl, rfl⟩ := hpair
        simp [or_comm]
      · have hne : ¬ ∃ amount', s = s' ∧ m = m' ∧ token = token' ∧ amount' = amount :=
          fun ⟨_, hs, hm, _⟩ => hpair ⟨hs.symm, hm.symm⟩
        simp only [hne, or_false]
    | _ => simp [Event.noteToken, subscribed]

/-- The reconciled records in terms of the `subscribe` events of the ledger state. -/
theorem reconciles_iff :
    Reconciles H N σ ↔
      ∀ s m, OneRecord (σ.events.foldl (Event.noteToken s m) ∅) (H.record σ s m) := by
  simp only [OneRecord, mem_foldl_noteToken, Set.mem_empty_iff_false, false_or]
  constructor
  · intro h s m
    have hstamped : (σ.events.map fun event => (0, event)).map Prod.snd = σ.events := by simp
    obtain ⟨hnodup, hmem⟩ := h _ 0 hstamped
    rw [nodup_pairs_iff, hstamped] at hnodup
    refine ⟨?_, hnodup s m⟩
    have hpair := hmem (N.text s, N.text m)
    rw [mem_pairs_iff, hstamped] at hpair
    constructor
    · rintro ⟨token, htoken⟩
      obtain ⟨s', m', hlive, heq⟩ := hpair.1 ⟨s, m, token, htoken, rfl⟩
      rw [Prod.mk.injEq, N.injective.eq_iff, N.injective.eq_iff] at heq
      obtain ⟨rfl, rfl⟩ := heq
      exact hlive
    · intro hlive
      obtain ⟨s', m', token, htoken, heq⟩ := hpair.2 ⟨s, m, hlive, rfl⟩
      rw [Prod.mk.injEq, N.injective.eq_iff, N.injective.eq_iff] at heq
      obtain ⟨rfl, rfl⟩ := heq
      exact ⟨token, htoken⟩
  · rintro h stamped defaultInterval hstamped
    constructor
    · rw [nodup_pairs_iff, hstamped]
      exact fun s m => (h s m).2
    · intro p
      rw [mem_pairs_iff, hstamped]
      constructor
      · rintro ⟨s, m, token, htoken, rfl⟩
        exact ⟨s, m, (h s m).1.1 ⟨token, htoken⟩, rfl⟩
      · rintro ⟨s, m, hlive, rfl⟩
        obtain ⟨token, htoken⟩ := (h s m).1.2 hlive
        exact ⟨s, m, token, htoken, rfl⟩

variable [DecidableEq Hash] {step : Step Address Hash Op} {steps : List (Step Address Hash Op)}

/-- The step ends a subscription, makes one again in another token, or transfers one. -/
def Step.Strands (H : Host Address Hash World Op) (σ : State Address Hash World)
    (step : Step Address Hash Op) : Prop :=
  (∃ s m token, step.Performs H σ (.cancel s m token)) ∨
    (∃ s m token amount interval strict gracePeriod d,
      step.Performs H σ (.subscribe s m token amount interval strict gracePeriod) ∧
        H.record σ s m = some d ∧ d.token ≠ token) ∨
    ∃ s old new, step.Performs H σ (.transferSubscription s old new)

theorem misses_tokenObserver_iff : tokenObserver.Misses H σ step ↔ step.Strands H σ := by
  constructor
  · rintro ⟨μ, hμ, s, m, a, ha, hstrands⟩
    have hdone := MicroStep.doneBy_of_mem_acts ha
    cases a with
    | subscribe now d =>
      obtain ⟨token, amount, interval, strict, gracePeriod, hdeed, rfl⟩ := hdone
      obtain ⟨hbefore, hperforms⟩ := performs_of_applied hμ hdeed
      rw [hbefore] at hstrands
      obtain ⟨d₀, hd₀, hne⟩ := hstrands
      exact .inr (.inl ⟨s, m, token, amount, interval, strict, gracePeriod, d₀, hperforms, hd₀,
        hne⟩)
    | cancel =>
      obtain ⟨token, hdeed⟩ := hdone
      exact .inl ⟨s, m, token, (performs_of_applied hμ hdeed).2⟩
    | moveOut =>
      obtain ⟨new, hdeed⟩ := hdone
      exact .inr (.inr ⟨s, m, new, (performs_of_applied hμ hdeed).2⟩)
    | moveIn =>
      obtain ⟨old, hdeed⟩ := hdone
      exact .inr (.inr ⟨s, old, m, (performs_of_applied hμ hdeed).2⟩)
    | update | pause | resume | collect | markOverdue => exact hstrands.elim
  · rintro (⟨s, m, token, hperforms⟩ |
      ⟨s, m, token, amount, interval, strict, gracePeriod, d, hperforms, hd, hne⟩ |
      ⟨s, old, new, hperforms⟩)
    · refine ⟨_, hperforms.mem_microSteps trivial, s, m, .cancel step.env.timestamp, ?_, trivial⟩
      simp [MicroStep.acts, Call.acts]
    · refine ⟨_, hperforms.mem_microSteps trivial, s, m,
        .subscribe step.env.timestamp
          (.opened step.env.timestamp token amount interval (gracePeriod.getD 0)), ?_, d, hd, hne⟩
      simp [MicroStep.acts, Call.acts]
    · refine ⟨_, hperforms.mem_microSteps trivial, s, old, .moveOut step.env.timestamp, ?_, trivial⟩
      simp [MicroStep.acts, Call.acts]

/-- **When the reconciled records are right.** In a run from deployment, in every state,
reconciling an empty database leaves one record for each live pair and no others, exactly if no
step of the run ends a subscription, makes one again in another token, or transfers one. -/
theorem reconciled_iff (hkey : H.KeysInjective) {w : World} :
    Throughout (next H) (Reconciles H N) (State.deployed Address Hash w) steps ↔
      Along (next H) (fun σ step => ¬ step.Strands H σ) (State.deployed Address Hash w) steps :=
  Observer.throughout_iff hkey reads_noteToken.follows (fun _ => reconciles_iff)
    (fun _ _ => misses_tokenObserver_iff.symm) fun _ _ => rfl

end Runs

/-- Addresses that are one byte, written in hexadecimal. -/
def sampleNaming : Naming UInt8 where
  text b := hexText [b]
  injective b b' h := (List.cons.inj (hexText_injective h)).1
  ne_empty b h := by
    have hlength := (length_hexText [b]).symm.trans (congrArg String.length h)
    exact Nat.succ_ne_zero 1 hlength
  no_colon b h := forall_mem_hexText (p := (· ≠ ':')) (by decide) [b] ':' h rfl

/-- A subscription that is collected and made again in the same token. -/
def sampleReconciled : List (Step UInt8 (List UInt8) (External UInt8)) :=
  [sampleStep 1 (.subscribe 1 2 9 100 86400 false none),
    sampleStep 86401 (.batchExecutePayment 2 9 [1]),
    sampleStep 86402 (.subscribe 1 2 9 200 86400 false none)]

/-- The record of a cancelled subscription stays. -/
theorem not_reconciles_cancelled :
    ¬ Reconciles sampleHost sampleNaming (after (next sampleHost) sampleStart
      [sampleStep 1 (.subscribe 1 2 9 100 86400 false none), sampleStep 2 (.cancel 1 2 9)]) := by
  intro h
  obtain ⟨s, m, hlive, heq⟩ := ((h [(1, .subscribe 1 2 9 100), (2, .cancel 1 2 1)] 86400
    rfl).mem_iff (sampleNaming.text 1, sampleNaming.text 2)).1 (by decide +kernel)
  obtain rfl := sampleNaming.injective (Prod.mk.inj heq).1
  obtain rfl := sampleNaming.injective (Prod.mk.inj heq).2
  cases hlive

theorem reconciled_sample :
    Throughout (next sampleHost) (Reconciles sampleHost sampleNaming) sampleStart
        sampleReconciled ↔
      Along (next sampleHost) (fun σ step => ¬ step.Strands sampleHost σ) sampleStart
        sampleReconciled :=
  reconciled_iff sampleHost_keysInjective

end SorobanPay
