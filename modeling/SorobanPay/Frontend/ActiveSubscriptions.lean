import SorobanPay.Foundation.InsertionMap
import SorobanPay.Foundation.Run

/-!
# The active subscriptions of a wallet

`useSubscriptions` of `hooks/useSubscriptions.ts` reads the subscribe events and the cancel events
of a wallet in two requests. It keeps the latest subscribe event of each merchant, drops the
merchants that occur in any cancel event, and asks the contract for the record of each merchant that
is left. A record that is not there comes back as `null`, on which the whole load fails.

## Main definitions

* `readSubscriptions`, `load`: the load.
* `Complete`: the answers to a load are those for a history of the wallet.
* `ShownRight`: what the list is for.

## Main results

* `exists_mem_activePairs_iff`: the merchants that are asked for.
* `readSubscriptions_eq`: when the load fails, and what it lists.
* `shownRight_load_iff`: when the list is right.
-/

set_option autoImplicit false

namespace SorobanPay.ActiveSubscriptions

open Foundation

/-! ### The hook -/

/-- An event in an answer, with the decoded texts of its topics. -/
structure Event where
  topic : List String
  ledger : ℕ
  deriving DecidableEq

/-- What a simulated call of `get_subscription` answers: no success, or the value of no record, or
a record. -/
inductive SimResult
  | failure
  | void
  | record (amount : ℤ) (interval nextPayment : ℕ)
  deriving DecidableEq

/-- The server; every read is asked for with the number of its attempt, and may fail. -/
structure Server where
  getLatestLedger : ℕ → Option ℕ
  getEvents : ℕ → String → String → ℕ → Option (List Event)
  getAccount : String → ℕ → Option Unit
  simulateTransaction : String → String → ℕ → Option SimResult

/-- `Subscription`. -/
structure Subscription where
  merchant : String
  token : String
  amount : ℤ
  interval : ℕ
  nextPayment : ℕ
  key : String
  isCancelling : Bool
  cancelledAt : Option ℤ
  deriving DecidableEq

/-- `LEDGER_WINDOW`. -/
def ledgerWindow : ℕ := 4000

/-- `READ_RETRY_DELAYS_MS`. -/
def readRetryDelaysMs : List ℕ := [200, 400]

/-- `readWithRetry`: one attempt, and one after each delay. -/
def readWithRetry {α : Type} (read : ℕ → Option α) : Option α :=
  (List.range (readRetryDelaysMs.length + 1)).findSome? read

/-- `startLedger`. -/
def startLedger (endLedger : ℕ) : ℕ := max 1 (endLedger - ledgerWindow)

/-- `cancelledMerchants`. -/
def cancelledMerchants (events : List Event) : List String :=
  events.filterMap fun event => event.topic[2]?

/-- A subscribe event as the loop over them sees it. -/
structure ActivePair where
  merchant : String
  token : String
  ledger : ℕ
  deriving DecidableEq

/-- The merchant and the token of a subscribe event; one with fewer than four topics is skipped. -/
def pairOf (event : Event) : Option ActivePair :=
  match event.topic with
  | _ :: _ :: merchant :: token :: _ => some ⟨merchant, token, event.ledger⟩
  | _ => none

/-- One turn of the loop over the subscribe events. -/
def keepLatest (latest : InsertionMap String ActivePair) (event : Event) :
    InsertionMap String ActivePair :=
  match pairOf event with
  | none => latest
  | some pair =>
    match latest.get pair.merchant with
    | none => latest.set pair.merchant pair
    | some existing =>
      if existing.ledger < pair.ledger then latest.set pair.merchant pair else latest

/-- `latestSubscribePerMerchant`. -/
def latestSubscribePerMerchant (events : List Event) : InsertionMap String ActivePair :=
  events.foldl keepLatest .empty

/-- `activePairs`. -/
def activePairs (subscribeEvents cancelEvents : List Event) : List ActivePair :=
  (latestSubscribePerMerchant subscribeEvents).values.filter fun pair =>
    pair.merchant ∉ cancelledMerchants cancelEvents

/-- One turn of the loop over the active pairs; `null` has no field `amount`. -/
def addResult (server : Server) (publicKey : String) (results : List Subscription)
    (pair : ActivePair) : Option (List Subscription) := do
  match ← readWithRetry (server.simulateTransaction publicKey pair.merchant) with
  | .failure => return results
  | .void => none
  | .record amount interval nextPayment =>
    return results ++ [⟨pair.merchant, pair.token, amount, interval, nextPayment,
      publicKey ++ ":" ++ pair.merchant, false, none⟩]

/-- What `load` reads, if nothing throws. -/
def readSubscriptions (server : Server) (publicKey : String) : Option (List Subscription) := do
  let endLedger ← readWithRetry server.getLatestLedger
  let subscribeEvents ←
    readWithRetry (server.getEvents (startLedger endLedger) "subscribe" publicKey)
  let cancelEvents ← readWithRetry (server.getEvents (startLedger endLedger) "cancel" publicKey)
  let _ ← readWithRetry (server.getAccount publicKey)
  (activePairs subscribeEvents cancelEvents).foldlM (addResult server publicKey) []

/-- The state of `useSubscriptions`. -/
structure HookState where
  subscriptions : List Subscription
  dataPublicKey : Option String
  isLoading : Bool
  error : Option String

/-- `load`, when it has ended and was not aborted. -/
def load (s : HookState) (server : Server) (publicKey : String) : HookState :=
  match readSubscriptions server publicKey with
  | some results => ⟨results, some publicKey, false, none⟩
  | none =>
    { s with
      isLoading := false
      error := some "Failed to load the latest subscriptions after several attempts." }

/-- The `subscriptions` that the hook returns. -/
def HookState.shown (s : HookState) (publicKey : Option String) : List Subscription :=
  if s.dataPublicKey = publicKey then s.subscriptions else []

/-! ### The history of a wallet -/

/-- A subscribe or a cancel of the wallet. -/
inductive Change
  | subscribed (merchant token : String) (ledger : ℕ)
  | cancelled (merchant : String) (ledger : ℕ)

namespace Change

/-- The ledger of a change. -/
def ledger : Change → ℕ
  | subscribed _ _ ledger | cancelled _ ledger => ledger

/-- The event of a subscribe. -/
def subscribeEvent (publicKey : String) : Change → Option Event
  | subscribed merchant token ledger => some ⟨["subscribe", publicKey, merchant, token], ledger⟩
  | cancelled _ _ => none

/-- The event of a cancel. -/
def cancelEvent (publicKey : String) : Change → Option Event
  | subscribed _ _ _ => none
  | cancelled merchant ledger => some ⟨["cancel", publicKey, merchant], ledger⟩

/-- The merchant is subscribed to. -/
def Subscribes (m : String) : Change → Prop
  | subscribed merchant _ _ => merchant = m
  | cancelled _ _ => False

/-- The merchant is cancelled. -/
def Cancels (m : String) : Change → Prop
  | subscribed _ _ _ => False
  | cancelled merchant _ => merchant = m

end Change

open Change

/-- The answers are those for this history, which is in the order of the ledgers and inside the
window. -/
structure Complete (server : Server) (publicKey : String) (endLedger : ℕ)
    (changes : List Change) : Prop where
  latestLedger : readWithRetry server.getLatestLedger = some endLedger
  ordered : changes.Pairwise fun c c' => c.ledger ≤ c'.ledger
  inside : ∀ c ∈ changes, startLedger endLedger ≤ c.ledger ∧ c.ledger ≤ endLedger
  subscribeEvents : readWithRetry (server.getEvents (startLedger endLedger) "subscribe" publicKey) =
    some (changes.filterMap (subscribeEvent publicKey))
  cancelEvents : readWithRetry (server.getEvents (startLedger endLedger) "cancel" publicKey) =
    some (changes.filterMap (cancelEvent publicKey))
  account : readWithRetry (server.getAccount publicKey) = some ()
  simulated : ∀ m, readWithRetry (server.simulateTransaction publicKey m) ≠ none

/-- The latest subscribe of the merchant is later than its latest cancel, if there is one. -/
def Active (changes : List Change) (m : String) : Prop := Raised (Subscribes m) (Cancels m) changes

/-- `get_subscription` returns a record. -/
def HasRecord (server : Server) (publicKey m : String) : Prop :=
  ∃ amount interval nextPayment, readWithRetry (server.simulateTransaction publicKey m) =
    some (.record amount interval nextPayment)

/-- `get_subscription` returns that there is no record. -/
def HasNone (server : Server) (publicKey m : String) : Prop :=
  readWithRetry (server.simulateTransaction publicKey m) = some .void

instance (server : Server) (publicKey m : String) : Decidable (HasNone server publicKey m) :=
  inferInstanceAs (Decidable (_ = _))

/-- The merchants that are shown are the active ones with a record. -/
def ShownRight (s : HookState) (server : Server) (publicKey : String) (changes : List Change) :
    Prop :=
  ∀ m, (∃ sub ∈ s.shown (some publicKey), sub.merchant = m) ↔
    Active changes m ∧ HasRecord server publicKey m

/-- The merchant has a subscribe and no cancel at all. -/
def NeverCancelled (changes : List Change) (m : String) : Prop :=
  (∃ c ∈ changes, c.Subscribes m) ∧ ∀ c ∈ changes, ¬ c.Cancels m

/-! ### The merchants that are asked for -/

/-- Every pair is kept under its merchant. -/
def Keyed (latest : InsertionMap String ActivePair) : Prop :=
  ∀ m pair, latest.get m = some pair → pair.merchant = m

variable {latest : InsertionMap String ActivePair} {event : Event} {events : List Event}
  {changes : List Change} {server : Server} {publicKey m : String} {endLedger : ℕ}

theorem Keyed.set (h : Keyed latest) (pair : ActivePair) :
    Keyed (latest.set pair.merchant pair) := by
  intro m pair' hget
  rw [InsertionMap.get_set] at hget
  split_ifs at hget with hm
  · rw [← Option.some.inj hget, hm]
  · exact h m pair' hget

theorem Keyed.keepLatest (h : Keyed latest) (event : Event) : Keyed (keepLatest latest event) := by
  unfold ActiveSubscriptions.keepLatest
  split
  · exact h
  · split
    · exact h.set _
    · split_ifs
      · exact h.set _
      · exact h

theorem get_keepLatest_ne_none_iff :
    (keepLatest latest event).get m ≠ none ↔
      latest.get m ≠ none ∨ ∃ pair, pairOf event = some pair ∧ pair.merchant = m := by
  have hset : ∀ pair : ActivePair, (latest.set pair.merchant pair).get m ≠ none ↔
      latest.get m ≠ none ∨ pair.merchant = m := by
    intro pair
    rw [InsertionMap.get_set]
    split_ifs with hm
    · simp [hm]
    · simp [Ne.symm hm]
  unfold keepLatest
  split
  case h_1 hpair => simp [hpair]
  case h_2 pair hpair =>
    have hiff : (∃ pair', pairOf event = some pair' ∧ pair'.merchant = m) ↔ pair.merchant = m := by
      simp [hpair]
    rw [hiff]
    split
    case h_1 => exact hset pair
    case h_2 existing hget =>
      split_ifs with hledger
      · exact hset pair
      · constructor
        · exact .inl
        -- the merchant has a pair already
        · rintro (h | rfl)
          · exact h
          · rw [hget]
            exact Option.some_ne_none _

theorem keyed_foldl (h : Keyed latest) : Keyed (events.foldl keepLatest latest) := by
  induction events generalizing latest with
  | nil => exact h
  | cons event events ih => exact ih (h.keepLatest event)

theorem get_foldl_ne_none_iff :
    (events.foldl keepLatest latest).get m ≠ none ↔
      latest.get m ≠ none ∨ ∃ event ∈ events, ∃ pair, pairOf event = some pair ∧
        pair.merchant = m := by
  induction events generalizing latest with
  | nil => simp
  | cons event events ih =>
    rw [List.foldl_cons, ih, get_keepLatest_ne_none_iff, or_assoc, List.exists_mem_cons_iff]

/-- The merchants with a subscribe event. -/
theorem exists_mem_latest_iff :
    (∃ pair ∈ (latestSubscribePerMerchant events).values, pair.merchant = m) ↔
      ∃ event ∈ events, ∃ pair, pairOf event = some pair ∧ pair.merchant = m := by
  have hkeyed : Keyed (latestSubscribePerMerchant events) :=
    keyed_foldl fun m pair h => by cases h
  have hget : (latestSubscribePerMerchant events).get m ≠ none ↔
      ∃ event ∈ events, ∃ pair, pairOf event = some pair ∧ pair.merchant = m := by
    rw [latestSubscribePerMerchant, get_foldl_ne_none_iff]
    exact or_iff_right fun h => h rfl
  rw [← hget]
  constructor
  · rintro ⟨pair, hpair, rfl⟩
    obtain ⟨m', hm'⟩ := InsertionMap.mem_values_iff.1 hpair
    rw [hkeyed m' pair hm', hm']
    exact Option.some_ne_none _
  · intro h
    obtain ⟨pair, hpair⟩ := Option.ne_none_iff_exists'.1 h
    exact ⟨pair, InsertionMap.mem_values_iff.2 ⟨m, hpair⟩, hkeyed m pair hpair⟩

theorem mem_cancelledMerchants_iff :
    m ∈ cancelledMerchants (changes.filterMap (cancelEvent publicKey)) ↔
      ∃ c ∈ changes, c.Cancels m := by
  rw [cancelledMerchants, List.filterMap_filterMap, List.mem_filterMap]
  refine exists_congr fun c => and_congr_right fun _ => ?_
  cases c <;> simp [cancelEvent, Cancels]

variable (publicKey) in
theorem exists_subscribeEvent_iff :
    (∃ event ∈ changes.filterMap (subscribeEvent publicKey), ∃ pair, pairOf event = some pair ∧
        pair.merchant = m) ↔ ∃ c ∈ changes, c.Subscribes m := by
  constructor
  · rintro ⟨event, hevent, pair, hpair, rfl⟩
    obtain ⟨c, hc, hcevent⟩ := List.mem_filterMap.1 hevent
    refine ⟨c, hc, ?_⟩
    cases c with
    | subscribed merchant token ledger =>
      obtain rfl := Option.some.inj hcevent
      obtain rfl := Option.some.inj hpair
      rfl
    | cancelled merchant ledger => cases hcevent
  · rintro ⟨c, hc, hm⟩
    cases c with
    | subscribed merchant token ledger =>
      exact ⟨_, List.mem_filterMap.2 ⟨_, hc, rfl⟩, ⟨merchant, token, ledger⟩, rfl, hm⟩
    | cancelled merchant ledger => exact hm.elim

variable (publicKey changes m) in
/-- The merchants that are asked for were never cancelled. -/
theorem exists_mem_activePairs_iff :
    (∃ pair ∈ activePairs (changes.filterMap (subscribeEvent publicKey))
        (changes.filterMap (cancelEvent publicKey)), pair.merchant = m) ↔
      NeverCancelled changes m := by
  rw [NeverCancelled, ← exists_subscribeEvent_iff publicKey,
    ← exists_mem_latest_iff]
  have hcancel : m ∉ cancelledMerchants (changes.filterMap (cancelEvent publicKey)) ↔
      ∀ c ∈ changes, ¬ c.Cancels m := by
    rw [mem_cancelledMerchants_iff]
    push Not
    rfl
  rw [← hcancel]
  constructor
  · rintro ⟨pair, hpair, rfl⟩
    obtain ⟨hvalue, hcancelled⟩ := List.mem_filter.1 hpair
    exact ⟨⟨pair, hvalue, rfl⟩, of_decide_eq_true hcancelled⟩
  · rintro ⟨⟨pair, hvalue, rfl⟩, hcancelled⟩
    exact ⟨pair, List.mem_filter.2 ⟨hvalue, decide_eq_true hcancelled⟩, rfl⟩

/-! ### The records -/

/-- The subscription that is listed for a pair. -/
def listed (server : Server) (publicKey : String) (pair : ActivePair) : Option Subscription :=
  match readWithRetry (server.simulateTransaction publicKey pair.merchant) with
  | some (.record amount interval nextPayment) =>
    some ⟨pair.merchant, pair.token, amount, interval, nextPayment,
      publicKey ++ ":" ++ pair.merchant, false, none⟩
  | _ => none

theorem listed_eq_some {pair : ActivePair} {sub : Subscription}
    (h : listed server publicKey pair = some sub) :
    sub.merchant = pair.merchant ∧ HasRecord server publicKey pair.merchant := by
  unfold listed at h
  split at h
  · rename_i amount interval nextPayment heq
    rw [← Option.some.inj h]
    exact ⟨rfl, amount, interval, nextPayment, heq⟩
  · cases h

theorem exists_listed {pair : ActivePair} (h : HasRecord server publicKey pair.merchant) :
    ∃ sub, listed server publicKey pair = some sub ∧ sub.merchant = pair.merchant := by
  obtain ⟨amount, interval, nextPayment, heq⟩ := h
  exact ⟨_, by rw [listed, heq], rfl⟩

variable {pairs : List ActivePair} {results : List Subscription}

theorem addResult_of_not_hasNone {pair : ActivePair}
    (hsim : readWithRetry (server.simulateTransaction publicKey pair.merchant) ≠ none)
    (h : ¬ HasNone server publicKey pair.merchant) :
    addResult server publicKey results pair =
      some (results ++ (listed server publicKey pair).toList) := by
  obtain ⟨answer, hanswer⟩ := Option.ne_none_iff_exists'.1 hsim
  rw [addResult, listed, hanswer]
  cases answer with
  | failure => simp
  | void => exact absurd hanswer h
  | record amount interval nextPayment => rfl

theorem addResult_of_hasNone {pair : ActivePair} (h : HasNone server publicKey pair.merchant) :
    addResult server publicKey results pair = none := by
  rw [addResult, h]
  rfl

/-- The loop over the pairs lists those with a record, unless there is none for one of them. -/
theorem foldlM_addResult
    (hsim : ∀ m, readWithRetry (server.simulateTransaction publicKey m) ≠ none) :
    pairs.foldlM (addResult server publicKey) results =
      if ∃ pair ∈ pairs, HasNone server publicKey pair.merchant then none
      else some (results ++ pairs.filterMap (listed server publicKey)) := by
  induction pairs generalizing results with
  | nil => simp
  | cons pair pairs ih =>
    rw [List.foldlM_cons]
    by_cases hpair : HasNone server publicKey pair.merchant
    · rw [addResult_of_hasNone hpair, if_pos ⟨pair, List.mem_cons_self, hpair⟩]
      rfl
    · rw [addResult_of_not_hasNone (hsim _) hpair, Option.bind_eq_bind, Option.bind_some, ih]
      simp only [List.exists_mem_cons_iff, hpair, false_or]
      split_ifs
      · rfl
      · rw [List.append_assoc]
        cases hlisted : listed server publicKey pair with
        | none => simp [hlisted]
        | some sub => simp [hlisted]

/-! ### When the list is right -/

/-- The load fails if there is no record for a merchant that was never cancelled. Otherwise it
lists the merchants that were never cancelled and have a record. -/
theorem readSubscriptions_eq (h : Complete server publicKey endLedger changes) :
    (readSubscriptions server publicKey = none ∧
        ∃ m, NeverCancelled changes m ∧ HasNone server publicKey m) ∨
      ∃ results, readSubscriptions server publicKey = some results ∧
        (¬ ∃ m, NeverCancelled changes m ∧ HasNone server publicKey m) ∧
        ∀ m, (∃ sub ∈ results, sub.merchant = m) ↔
          NeverCancelled changes m ∧ HasRecord server publicKey m := by
  have hmem := fun m => exists_mem_activePairs_iff changes publicKey m
  have hread : readSubscriptions server publicKey =
      (activePairs (changes.filterMap (subscribeEvent publicKey))
        (changes.filterMap (cancelEvent publicKey))).foldlM (addResult server publicKey) [] := by
    simp only [readSubscriptions, h.latestLedger, h.subscribeEvents, h.cancelEvents, h.account,
      Option.bind_eq_bind, Option.bind_some]
  rw [hread, foldlM_addResult h.simulated]
  generalize activePairs (changes.filterMap (subscribeEvent publicKey))
    (changes.filterMap (cancelEvent publicKey)) = pairs at hmem
  split_ifs with hnone
  · obtain ⟨pair, hpair, hvoid⟩ := hnone
    exact .inl ⟨rfl, pair.merchant, (hmem _).1 ⟨pair, hpair, rfl⟩, hvoid⟩
  · refine .inr ⟨_, rfl, ?_, fun m => ?_⟩
    · rintro ⟨m, hm, hvoid⟩
      obtain ⟨pair, hpair, rfl⟩ := (hmem m).2 hm
      exact hnone ⟨pair, hpair, hvoid⟩
    · rw [List.nil_append, ← hmem]
      constructor
      · rintro ⟨sub, hsub, rfl⟩
        obtain ⟨pair, hpair, hlisted⟩ := List.mem_filterMap.1 hsub
        obtain ⟨hmerchant, hrecord⟩ := listed_eq_some hlisted
        exact ⟨⟨pair, hpair, hmerchant.symm⟩, hmerchant ▸ hrecord⟩
      · rintro ⟨⟨pair, hpair, rfl⟩, hrecord⟩
        obtain ⟨sub, hlisted, hmerchant⟩ := exists_listed hrecord
        exact ⟨sub, List.mem_filterMap.2 ⟨pair, hpair, hlisted⟩, hmerchant⟩

theorem NeverCancelled.active (h : NeverCancelled changes m) : Active changes m := by
  obtain ⟨⟨c, hc, hm⟩, hnone⟩ := h
  obtain ⟨pre, post, rfl⟩ := List.append_of_mem hc
  refine ⟨pre, c, post, rfl, hm, fun c' hc' => hnone c' ?_⟩
  exact List.mem_append_right _ (List.mem_cons_of_mem _ hc')

theorem Active.exists_subscribes (h : Active changes m) : ∃ c ∈ changes, c.Subscribes m := by
  obtain ⟨pre, c, post, rfl, hm, -⟩ := h
  exact ⟨c, List.mem_append_right _ List.mem_cons_self, hm⟩

/-- **The list.** Once a load has ended, the list is right exactly if one of two things holds: the
load failed, for want of the record of a merchant that was never cancelled, and the list was right
before; or it did not fail, and no active merchant with a record was ever cancelled in the
window. -/
theorem shownRight_load_iff (server : Server) (publicKey : String) (endLedger : ℕ)
    (changes : List Change) (h : Complete server publicKey endLedger changes) (s : HookState) :
    ShownRight (load s server publicKey) server publicKey changes ↔
      ((∃ m, NeverCancelled changes m ∧ HasNone server publicKey m) →
        ShownRight s server publicKey changes) ∧
      ((¬ ∃ m, NeverCancelled changes m ∧ HasNone server publicKey m) →
        ∀ m, Active changes m → HasRecord server publicKey m → ∀ c ∈ changes, ¬ c.Cancels m) := by
  rcases readSubscriptions_eq h with ⟨hread, hnone⟩ | ⟨results, hread, hnone, hresults⟩
  · have hsame : ShownRight (load s server publicKey) server publicKey changes ↔
        ShownRight s server publicKey changes := by
      rw [load, hread]
      rfl
    rw [hsame]
    constructor
    · exact fun hright => ⟨fun _ => hright, fun hnot => absurd hnone hnot⟩
    · exact fun hright => hright.1 hnone
  · have hshown : (load s server publicKey).shown (some publicKey) = results := by
      rw [load, hread]
      exact if_pos rfl
    rw [ShownRight, hshown]
    simp only [hresults]
    constructor
    · intro hright
      refine ⟨fun h => absurd h hnone, fun _ m hactive hrecord => ?_⟩
      exact ((hright m).2 ⟨hactive, hrecord⟩).1.2
    · rintro ⟨-, hnever⟩ m
      constructor
      · exact fun hm => ⟨hm.1.active, hm.2⟩
      · exact fun hm => ⟨⟨hm.1.exists_subscribes, hnever hnone m hm.1 hm.2⟩, hm.2⟩

/-! ### A merchant that is subscribed to again -/

/-- The answers for a history in which every merchant has this record, or none. -/
def serverOf (publicKey : String) (changes : List Change) (answer : SimResult) : Server where
  getLatestLedger _ := some 10
  getEvents _ kind _ _ := some (changes.filterMap
    (if kind = "subscribe" then subscribeEvent publicKey else cancelEvent publicKey))
  getAccount _ _ := some ()
  simulateTransaction _ _ _ := some answer

theorem complete_serverOf {answer : SimResult}
    (hordered : changes.Pairwise fun c c' => c.ledger ≤ c'.ledger)
    (hinside : ∀ c ∈ changes, 1 ≤ c.ledger ∧ c.ledger ≤ 10) :
    Complete (serverOf publicKey changes answer) publicKey 10 changes where
  latestLedger := rfl
  ordered := hordered
  inside := hinside
  subscribeEvents := rfl
  cancelEvents := rfl
  account := rfl
  simulated _ := Option.some_ne_none answer

/-- The state before the first load. -/
def HookState.initial : HookState := ⟨[], none, false, none⟩

theorem shownRight_load_iff_sample :
    ShownRight
      (load .initial (serverOf "W" [.subscribed "M" "T" 3] (.record 5 86400 100)) "W")
      (serverOf "W" [.subscribed "M" "T" 3] (.record 5 86400 100)) "W" [.subscribed "M" "T" 3] := by
  refine (shownRight_load_iff _ "W" 10 [.subscribed "M" "T" 3]
    (complete_serverOf (by simp) (by simp [Change.ledger])) .initial).2 ⟨?_, fun _ m _ _ => ?_⟩
  · rintro ⟨m, -, hnone⟩
    have hvoid : some (SimResult.record 5 86400 100) = some .void := hnone
    cases hvoid
  · simp [Cancels]

/-- A merchant that was cancelled and subscribed to again is not shown. -/
theorem not_shownRight_sample :
    ∃ changes server, Complete server "W" 10 changes ∧ Active changes "M" ∧
      HasRecord server "W" "M" ∧ (load .initial server "W").shown (some "W") = [] ∧
      ¬ ShownRight (load .initial server "W") server "W" changes := by
  have hrecord : HasRecord (serverOf "W"
      [.subscribed "M" "T" 1, .cancelled "M" 2, .subscribed "M" "T" 3] (.record 5 86400 100))
      "W" "M" := ⟨5, 86400, 100, rfl⟩
  have hactive : Active [.subscribed "M" "T" 1, .cancelled "M" 2, .subscribed "M" "T" 3] "M" :=
    ⟨[.subscribed "M" "T" 1, .cancelled "M" 2], .subscribed "M" "T" 3, [], rfl, rfl, by simp⟩
  have hshown : (load .initial (serverOf "W"
      [.subscribed "M" "T" 1, .cancelled "M" 2, .subscribed "M" "T" 3] (.record 5 86400 100))
      "W").shown (some "W") = [] := by decide
  refine ⟨_, _, complete_serverOf (by simp [Change.ledger]) (by simp [Change.ledger]), hactive,
    hrecord, hshown, fun hright => ?_⟩
  obtain ⟨sub, hsub, -⟩ := (hright "M").2 ⟨hactive, hrecord⟩
  rw [hshown] at hsub
  exact List.not_mem_nil hsub

end SorobanPay.ActiveSubscriptions
