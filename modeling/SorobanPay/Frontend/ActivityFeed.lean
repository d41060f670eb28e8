import SorobanPay.Foundation.Attempts
import SorobanPay.Foundation.InsertionMap
import SorobanPay.Foundation.Run
import SorobanPay.Frontend.PaymentHistory

/-!
# The activity feed of a wallet

`useSubscriptionEvents` of `hooks/useSubscriptionEvents.ts` polls the events of a wallet. The first
poll that succeeds reads a window of the history; a later one begins at the ledger before the last
one that was seen, and its events are merged with those that are shown, by their id. A poll that
fails changes no event and not the ledger at which the next one begins.

## Main definitions

* `loadEvents`: one poll.
* `StreamOk`, `Answers`, `Honest`: the events of the contract, and what a request returns of them.
* `Shows`: what the feed is for.

## Main results

* `mem_fetched_iff`: what is fetched of an answer.
* `shows_merge`: overlapping windows are merged without loss.
* `feed_shows`: after every successful poll the feed is complete.
-/

set_option autoImplicit false

namespace SorobanPay.ActivityFeed

open Foundation Frontend

/-! ### The hook -/

/-- `SubscriptionEventType`. -/
inductive SubscriptionEventType
  | subscribe
  | executed
  | cancel
  | paymentTransferFailure
  deriving DecidableEq, Repr

/-- `SubscriptionEvent`. -/
structure SubscriptionEvent extends PaymentEvent where
  eventType : SubscriptionEventType
  deriving DecidableEq, Repr

/-- `ActivityEvent`, with the fields that are read. -/
structure ActivityEvent where
  eventType : SubscriptionEventType
  subscriber : String
  merchant : String
  token : Option String
  amount : Option ℤ

/-- `HISTORY_LEDGER_WINDOW`. -/
def historyLedgerWindow : ℕ := 10000

/-- `PAGE_LIMIT`. -/
def pageLimit : ℕ := 1000

variable {N Address : Type} {J : JsNumber N}

/-- The event, if `isActivityEvent` says that it is one of the activity. -/
def activityEvent : DecodedContractEvent N → Option ActivityEvent
  | .subscribe subscriber merchant token amount =>
    some ⟨.subscribe, subscriber, merchant, some token, some amount⟩
  | .executed subscriber merchant token amount _ =>
    some ⟨.executed, subscriber, merchant, some token, some amount⟩
  | .cancel subscriber merchant _ _ => some ⟨.cancel, subscriber, merchant, none, none⟩
  | .paymentTransferFailure subscriber merchant amount _ =>
    some ⟨.paymentTransferFailure, subscriber, merchant, none, some amount⟩
  | _ => none

/-- `toSubscriptionEvent`. -/
def toSubscriptionEvent (rawEvent : RawEventResponse) (event : ActivityEvent) :
    SubscriptionEvent where
  id := rawEvent.id
  ledger := rawEvent.ledger
  timestamp := rawEvent.ledgerClosedAt.getD "1970-01-01T00:00:00.000Z"
  eventType := event.eventType
  subscriber := event.subscriber
  merchant := event.merchant
  token := event.token.getD ""
  amount := (event.amount.map stroopsToTokens).getD "—"
  amountStroops := (event.amount.map toString).getD ""
  txHash := rawEvent.txHash.getD ""

/-- An order of texts, as `localeCompare` compares them. -/
structure Collation where
  le : String → String → Bool
  total : ∀ s t, (le s t || le t s) = true
  trans : ∀ s t u, le s t = true → le t u = true → le s u = true

/-- The left event comes first: its ledger is higher, or equal with a later timestamp. -/
def Collation.shownBefore (collation : Collation) (left right : SubscriptionEvent) : Bool :=
  decide (right.ledger < left.ledger) ||
    decide (left.ledger = right.ledger) && collation.le right.timestamp left.timestamp

/-- The state of the hook and of its effect. `firstStart` notes the start ledger of the first
successful poll. -/
structure Feed where
  events : List SubscriptionEvent
  isLoading : Bool
  error : Option String
  historyLoaded : Bool
  lastLedgerSeen : Option ℕ
  firstStart : Option ℕ

/-- What the server answers to the two requests of a poll. -/
structure Poll where
  getLatestLedger : Except String ℕ
  getEvents : ℕ → ℕ → Except String (List RawEventResponse)

/-- `startLedger`. -/
def startLedger (replaceHistory : Bool) (lastLedgerSeen : Option ℕ) (latestLedger : ℕ) : ℕ :=
  if replaceHistory then max 1 (latestLedger - historyLedgerWindow)
  else max 1 (lastLedgerSeen.getD latestLedger - 1)

/-- `replaceHistory`. -/
def replaceHistory (initialLoad : Bool) (s : Feed) : Bool := initialLoad || !s.historyLoaded

/-- The merged events, sorted. -/
def mergeEvents (collation : Collation) (currentEvents fetchedEvents : List SubscriptionEvent) :
    List SubscriptionEvent :=
  (InsertionMap.ofValues (fun event => event.id)
    (currentEvents ++ fetchedEvents)).values.mergeSort collation.shownBefore

section Load

variable (sdk : StellarSdk J) (collation : Collation) (publicKey : String)

/-- One turn of the loop over an answer; an event of another kind or wallet is skipped. -/
def fetchEvent (rawEvent : RawEventResponse) : Except String (Option SubscriptionEvent) :=
  match decodeContractEvent sdk rawEvent.toRawSorobanEvent with
  | none => .error "Cannot convert object to primitive value"
  | some decoded =>
    .ok (((activityEvent decoded).filter fun event => event.subscriber = publicKey).map
      (toSubscriptionEvent rawEvent))

/-- The body of the `try` block. -/
def pollEvents (initialLoad : Bool) (s : Feed) (poll : Poll) : Except String Feed := do
  let latestLedger ← poll.getLatestLedger
  let start := startLedger (replaceHistory initialLoad s) s.lastLedgerSeen latestLedger
  let rawEvents ← poll.getEvents start pageLimit
  let fetched ← rawEvents.mapM (fetchEvent sdk publicKey)
  let currentEvents := if replaceHistory initialLoad s then [] else s.events
  return {
    events := mergeEvents collation currentEvents (fetched.filterMap id)
    isLoading := false
    error := none
    historyLoaded := true
    lastLedgerSeen := some latestLedger
    firstStart := if replaceHistory initialLoad s then some start else s.firstStart }

/-- `loadEvents`, when it has ended; while it runs, no other one begins. -/
def loadEvents (initialLoad : Bool) (s : Feed) (poll : Poll) : Feed :=
  match pollEvents sdk collation publicKey initialLoad s poll with
  | .ok t => t
  | .error msg => { s with isLoading := false, error := some msg }

end Load

/-! ### The events of the contract -/

/-- An event of the contract, as it is published and as it is returned. -/
structure StreamEvent (Address : Type) where
  event : Event Address
  raw : RawEventResponse

/-- The events can be published, are returned as they were, and have ids of their own. -/
structure StreamOk (sdk : StellarSdk J) (W : Wire Address) (stream : List (StreamEvent Address)) :
    Prop where
  fits : ∀ e ∈ stream, Fits e.event
  received : ∀ e ∈ stream, Received sdk W e.raw.topic e.raw.value e.event
  ids : (stream.map fun e => e.raw.id).Nodup

/-- The event is a subscribe, a payment, a cancel or a failed payment of the wallet. -/
def IsActivity (wallet : Address) : Event Address → Prop
  | .subscribe s _ _ _ | .executed s _ _ _ _ | .cancel s _ _ | .paymentTransferFailure s _ _ _ =>
    s = wallet
  | _ => False

/-- The answer is events of the wallet from the start ledger on, with none missing up to the latest
ledger. -/
structure Answers (stream : List (StreamEvent Address)) (wallet : Address) (start latest : ℕ)
    (rawEvents : List RawEventResponse) : Prop where
  sound : ∀ raw ∈ rawEvents, ∃ e ∈ stream, e.raw = raw ∧ IsActivity wallet e.event ∧
    start ≤ e.raw.ledger
  complete : ∀ e ∈ stream, IsActivity wallet e.event → start ≤ e.raw.ledger →
    e.raw.ledger ≤ latest → e.raw ∈ rawEvents

/-- Where a poll gets an answer, it is complete up to the ledger that was reported. -/
def Honest (stream : List (StreamEvent Address)) (wallet : Address) (poll : Poll) : Prop :=
  ∀ latest start rawEvents, poll.getLatestLedger = .ok latest →
    poll.getEvents start pageLimit = .ok rawEvents → Answers stream wallet start latest rawEvents

/-- What the feed shows of an event. -/
def entryOf (sdk : StellarSdk J) (W : Wire Address) (e : StreamEvent Address) :
    Option SubscriptionEvent :=
  ((typedEvent sdk W e.event).bind activityEvent).map (toSubscriptionEvent e.raw)

/-- The feed shows every event of the wallet between the two ledgers, each once and the later ones
first, and nothing but events of the wallet. -/
structure Shows (sdk : StellarSdk J) (W : Wire Address) (stream : List (StreamEvent Address))
    (wallet : Address) (first last : ℕ) (events : List SubscriptionEvent) : Prop where
  complete : ∀ e ∈ stream, IsActivity wallet e.event → first ≤ e.raw.ledger →
    e.raw.ledger ≤ last → ∃ x ∈ events, entryOf sdk W e = some x
  sound : ∀ x ∈ events, ∃ e ∈ stream, IsActivity wallet e.event ∧ entryOf sdk W e = some x
  once : (events.map fun x => x.id).Nodup
  sorted : events.Pairwise fun x y => y.ledger ≤ x.ledger

/-- The poll succeeds: both requests are answered. -/
def Succeeds (initialLoad : Bool) (s : Feed) (poll : Poll) (latest : ℕ) : Prop :=
  poll.getLatestLedger = .ok latest ∧
    ∃ rawEvents, poll.getEvents
      (startLedger (replaceHistory initialLoad s) s.lastLedgerSeen latest) pageLimit = .ok rawEvents

/-- The effect has just begun; the events are those of an earlier effect, if there was one. -/
structure Fresh (s : Feed) : Prop where
  historyLoaded : s.historyLoaded = false
  lastLedgerSeen : s.lastLedgerSeen = none

variable {sdk : StellarSdk J} {W : Wire Address} {collation : Collation}
  {stream : List (StreamEvent Address)} {wallet : Address} {e : StreamEvent Address}
  {x : SubscriptionEvent} {s : Feed} {poll : Poll}

/-! ### The order of the feed -/

theorem Collation.shownBefore_total (collation : Collation) (x y : SubscriptionEvent) :
    (collation.shownBefore x y || collation.shownBefore y x) = true := by
  have htotal := collation.total x.timestamp y.timestamp
  simp only [shownBefore, Bool.or_eq_true, Bool.and_eq_true, decide_eq_true_eq] at htotal ⊢
  rcases lt_trichotomy x.ledger y.ledger with hlt | heq | hlt
  · exact .inr (.inl hlt)
  · exact htotal.elim (fun h => .inr (.inr ⟨heq.symm, h⟩)) fun h => .inl (.inr ⟨heq, h⟩)
  · exact .inl (.inl hlt)

theorem Collation.shownBefore_trans (collation : Collation) (x y z : SubscriptionEvent)
    (hxy : collation.shownBefore x y = true) (hyz : collation.shownBefore y z = true) :
    collation.shownBefore x z = true := by
  simp only [shownBefore, Bool.or_eq_true, Bool.and_eq_true, decide_eq_true_eq] at hxy hyz ⊢
  rcases hxy with hxy | ⟨hxy, hle⟩
  · rcases hyz with hyz | ⟨hyz, -⟩
    · exact .inl (hyz.trans hxy)
    · exact .inl (hyz ▸ hxy)
  · rcases hyz with hyz | ⟨hyz, hle'⟩
    · exact .inl (hxy ▸ hyz)
    · exact .inr ⟨hxy.trans hyz, collation.trans _ _ _ hle' hle⟩

theorem Collation.le_of_shownBefore {y : SubscriptionEvent} (h : collation.shownBefore x y = true) :
    y.ledger ≤ x.ledger := by
  simp only [shownBefore, Bool.or_eq_true, Bool.and_eq_true, decide_eq_true_eq] at h
  exact h.elim le_of_lt fun h => h.1.ge

/-! ### What is fetched -/

theorem entryOf_eq_some (h : entryOf sdk W e = some x) :
    x.id = e.raw.id ∧ x.ledger = e.raw.ledger := by
  obtain ⟨event, -, rfl⟩ := Option.map_eq_some_iff.1 h
  exact ⟨rfl, rfl⟩

variable (sdk W) in
/-- An event of the activity has a typed event, and is the subscriber's. -/
theorem IsActivity.typed {event : Event Address} (h : IsActivity wallet event) :
    ∃ decoded activity, typedEvent sdk W event = some decoded ∧
      activityEvent decoded = some activity ∧ activity.subscriber = sdk.textOf W wallet := by
  cases event with
  | subscribe s m token amount | executed s m token amount nonce | cancel s m reason
  | paymentTransferFailure s m amount overdueSince =>
    obtain rfl : s = wallet := h
    exact ⟨_, _, rfl, rfl, rfl⟩
  | _ => exact h.elim

/-- An event of the wallet is shown as it is. -/
theorem fetchEvent_of_activity (hstream : StreamOk sdk W stream) (he : e ∈ stream)
    (h : IsActivity wallet e.event) :
    ∃ x, entryOf sdk W e = some x ∧
      fetchEvent sdk (sdk.textOf W wallet) e.raw = .ok (some x) := by
  obtain ⟨decoded, activity, htyped, hactivity, hsubscriber⟩ := h.typed sdk W
  have hdecoded : decodeContractEvent sdk e.raw.toRawSorobanEvent = some decoded :=
    decodeContractEvent_of_received (hstream.fits e he) (hstream.received e he) htyped
  refine ⟨toSubscriptionEvent e.raw activity, ?_, ?_⟩
  · rw [entryOf, htyped, Option.bind_some, hactivity, Option.map_some]
  · rw [fetchEvent, hdecoded]
    simp only [hactivity, Option.filter_some, hsubscriber, decide_true, if_true, Option.map_some]

/-- What is fetched of an answer. -/
theorem mem_fetched_iff (hstream : StreamOk sdk W stream) {start latest : ℕ}
    {rawEvents : List RawEventResponse} (h : Answers stream wallet start latest rawEvents) :
    ∃ fetched, rawEvents.mapM (fetchEvent sdk (sdk.textOf W wallet)) = .ok fetched ∧
      ∀ x, x ∈ fetched.filterMap id ↔ ∃ e ∈ stream, e.raw ∈ rawEvents ∧
        IsActivity wallet e.event ∧ entryOf sdk W e = some x := by
  have hfetch : ∀ raw ∈ rawEvents, fetchEvent sdk (sdk.textOf W wallet) raw =
      .ok ((fetchEvent sdk (sdk.textOf W wallet) raw).toOption.join) := by
    intro raw hraw
    obtain ⟨e, he, rfl, hactivity, -⟩ := h.sound raw hraw
    obtain ⟨x, -, hx⟩ := fetchEvent_of_activity hstream he hactivity
    rw [hx]
    rfl
  refine ⟨_, mapM_of_forall hfetch, fun x => ?_⟩
  rw [List.filterMap_map, List.mem_filterMap]
  constructor
  · rintro ⟨raw, hraw, hx⟩
    obtain ⟨e, he, rfl, hactivity, -⟩ := h.sound raw hraw
    obtain ⟨x', hentry, hx'⟩ := fetchEvent_of_activity hstream he hactivity
    simp only [Function.comp_apply, id_eq, hx', Except.toOption, Option.join_some] at hx
    exact ⟨e, he, hraw, hactivity, hentry.trans hx⟩
  · rintro ⟨e, he, hraw, hactivity, hentry⟩
    obtain ⟨x', hentry', hx'⟩ := fetchEvent_of_activity hstream he hactivity
    refine ⟨e.raw, hraw, ?_⟩
    simp only [Function.comp_apply, id_eq, hx', Except.toOption, Option.join_some]
    exact hentry'.symm.trans hentry

/-! ### Merging -/

/-- Two entries of the stream with one id are one entry. -/
theorem entry_unique (hstream : StreamOk sdk W stream) {y : SubscriptionEvent}
    {e' : StreamEvent Address} (he : e ∈ stream) (he' : e' ∈ stream)
    (hx : entryOf sdk W e = some x) (hy : entryOf sdk W e' = some y) (hid : x.id = y.id) :
    x = y := by
  have hids : e.raw.id = e'.raw.id :=
    (entryOf_eq_some hx).1.symm.trans (hid.trans (entryOf_eq_some hy).1)
  obtain rfl := List.inj_on_of_nodup_map hstream.ids he he' hids
  exact Option.some.inj (hx.symm.trans hy)

/-- **Merging.** If every event of the wallet between the two ledgers is shown already or in the
window of the answer, the merged feed shows them all. -/
theorem shows_merge (hstream : StreamOk sdk W stream) {first start latest : ℕ}
    {current fetched : List SubscriptionEvent} {rawEvents : List RawEventResponse}
    (hanswers : Answers stream wallet start latest rawEvents)
    (hcurrent : ∀ x ∈ current, ∃ e ∈ stream, IsActivity wallet e.event ∧ entryOf sdk W e = some x)
    (hfetched : ∀ x, x ∈ fetched ↔ ∃ e ∈ stream, e.raw ∈ rawEvents ∧
      IsActivity wallet e.event ∧ entryOf sdk W e = some x)
    (hcover : ∀ e ∈ stream, IsActivity wallet e.event → first ≤ e.raw.ledger →
      e.raw.ledger ≤ latest → (∃ x ∈ current, entryOf sdk W e = some x) ∨ start ≤ e.raw.ledger) :
    Shows sdk W stream wallet first latest (mergeEvents collation current fetched) := by
  have hsound : ∀ x ∈ current ++ fetched, ∃ e ∈ stream, IsActivity wallet e.event ∧
      entryOf sdk W e = some x := by
    intro x hx
    rcases List.mem_append.1 hx with hx | hx
    · exact hcurrent x hx
    · obtain ⟨e, he, -, hactivity, hentry⟩ := (hfetched x).1 hx
      exact ⟨e, he, hactivity, hentry⟩
  have hmem : ∀ x, x ∈ mergeEvents collation current fetched ↔ x ∈ current ++ fetched := by
    intro x
    rw [mergeEvents, List.mem_mergeSort]
    constructor
    · exact InsertionMap.mem_of_mem_values_ofValues
    · intro hx
      obtain ⟨y, hy, hid⟩ : ∃ y ∈ (InsertionMap.ofValues (fun event => event.id)
          (current ++ fetched)).values, y.id = x.id := InsertionMap.exists_mem_values_ofValues hx
      obtain ⟨e, he, -, hentry⟩ := hsound x hx
      obtain ⟨e', he', -, hentry'⟩ := hsound y (InsertionMap.mem_of_mem_values_ofValues hy)
      rwa [entry_unique hstream he he' hentry hentry' hid.symm]
  refine ⟨fun e he hactivity hfirst hlatest => ?_, fun x hx => hsound x ((hmem x).1 hx), ?_, ?_⟩
  · rcases hcover e he hactivity hfirst hlatest with ⟨x, hx, hentry⟩ | hstart
    · exact ⟨x, (hmem x).2 (List.mem_append_left _ hx), hentry⟩
    · obtain ⟨x, hentry, -⟩ := fetchEvent_of_activity hstream he hactivity
      have hraw : e.raw ∈ rawEvents := hanswers.complete e he hactivity hstart hlatest
      have hx : x ∈ fetched := (hfetched x).2 ⟨e, he, hraw, hactivity, hentry⟩
      exact ⟨x, (hmem x).2 (List.mem_append_right _ hx), hentry⟩
  · have hperm := (List.mergeSort_perm (InsertionMap.ofValues
      (fun event : SubscriptionEvent => event.id) (current ++ fetched)).values
        collation.shownBefore).map fun event => event.id
    exact hperm.nodup_iff.2 InsertionMap.nodup_map_values_ofValues
  · exact (List.pairwise_mergeSort collation.shownBefore_trans collation.shownBefore_total
      _).imp Collation.le_of_shownBefore

/-! ### Runs of polls -/

/-- The feed shows the events of the wallet from the start ledger of the first successful poll up
to this ledger, which is the last one that was seen. -/
structure ShowsUpTo (sdk : StellarSdk J) (W : Wire Address) (stream : List (StreamEvent Address))
    (wallet : Address) (latest : ℕ) (s : Feed) : Prop where
  historyLoaded : s.historyLoaded = true
  lastLedgerSeen : s.lastLedgerSeen = some latest
  shows : ∃ start, s.firstStart = some start ∧ Shows sdk W stream wallet start latest s.events

/-- No poll has succeeded, or the feed shows the events up to the last ledger that was seen. -/
def Caught (sdk : StellarSdk J) (W : Wire Address) (stream : List (StreamEvent Address))
    (wallet : Address) (s : Feed) : Prop :=
  Fresh s ∨ ∃ latest, ShowsUpTo sdk W stream wallet latest s

variable {initialLoad : Bool} {latest : ℕ}

/-- What a poll leaves that does not succeed. -/
theorem loadEvents_of_not_succeeds {publicKey : String}
    (h : ¬ ∃ latest, Succeeds initialLoad s poll latest) :
    ∃ msg, loadEvents sdk collation publicKey initialLoad s poll =
      { s with isLoading := false, error := some msg } := by
  rcases hlatest : poll.getLatestLedger with msg | latest
  · exact ⟨msg, by simp only [loadEvents, pollEvents, hlatest]; rfl⟩
  · rcases hevents : poll.getEvents
      (startLedger (replaceHistory initialLoad s) s.lastLedgerSeen latest) pageLimit with
      msg | rawEvents
    · refine ⟨msg, ?_⟩
      simp only [loadEvents, pollEvents, hlatest, bind_ok, hevents]
      rfl
    · exact absurd ⟨latest, hlatest, rawEvents, hevents⟩ h

/-- A poll that succeeds shows everything up to the ledger that it has reported. -/
theorem showsUpTo_loadEvents (hstream : StreamOk sdk W stream) (hs : Caught sdk W stream wallet s)
    (hhonest : Honest stream wallet poll) (hsucceeds : Succeeds initialLoad s poll latest)
    (hinitial : initialLoad = true → Fresh s) :
    ShowsUpTo sdk W stream wallet latest
      (loadEvents sdk collation (sdk.textOf W wallet) initialLoad s poll) := by
  obtain ⟨hlatest, rawEvents, hevents⟩ := hsucceeds
  have hanswers := hhonest latest _ rawEvents hlatest hevents
  obtain ⟨fetched, hmap, hfetched⟩ := mem_fetched_iff hstream hanswers
  simp only [loadEvents, pollEvents, hlatest, bind_ok, hevents, hmap]
  refine ⟨rfl, rfl, ?_⟩
  rcases hs with hfresh | ⟨last, hloaded, hseen, start, hfirst, hshows⟩
  · -- the first poll that succeeds replaces the history
    have hreplace : replaceHistory initialLoad s = true := by
      rw [replaceHistory, hfresh.historyLoaded, Bool.not_false, Bool.or_true]
    rw [hreplace] at hanswers ⊢
    exact ⟨_, rfl, shows_merge hstream hanswers (List.forall_mem_nil _) hfetched
      fun e _ _ hle _ => .inr hle⟩
  · have hlater : initialLoad = false := by
      by_contra hinit
      rw [Bool.not_eq_false] at hinit
      rw [(hinitial hinit).historyLoaded] at hloaded
      cases hloaded
    have hreplace : replaceHistory initialLoad s = false := by
      rw [replaceHistory, hlater, hloaded]
      rfl
    rw [hreplace, hseen] at hanswers
    rw [hreplace, hfirst]
    refine ⟨start, rfl, shows_merge hstream hanswers hshows.sound hfetched ?_⟩
    -- the window begins no later than after the last ledger that was seen
    intro e he hactivity hstart _
    rcases Nat.lt_or_ge last e.raw.ledger with hnew | hold
    · refine .inr ?_
      simp only [startLedger, Bool.false_eq_true, if_false, Option.getD_some]
      omega
    · exact .inl (hshows.complete e he hactivity hstart hold)

/-- **One poll.** -/
theorem caught_loadEvents (hstream : StreamOk sdk W stream) (hs : Caught sdk W stream wallet s)
    (hhonest : Honest stream wallet poll) (hinitial : initialLoad = true → Fresh s) :
    Caught sdk W stream wallet
      (loadEvents sdk collation (sdk.textOf W wallet) initialLoad s poll) := by
  by_cases hsucceeds : ∃ latest, Succeeds initialLoad s poll latest
  · obtain ⟨latest, hlatest⟩ := hsucceeds
    exact .inr ⟨latest, showsUpTo_loadEvents hstream hs hhonest hlatest hinitial⟩
  · obtain ⟨msg, heq⟩ := loadEvents_of_not_succeeds hsucceeds
    rw [heq]
    rcases hs with hfresh | ⟨latest, hloaded, hseen, hshown⟩
    · exact .inl ⟨hfresh.historyLoaded, hfresh.lastLedgerSeen⟩
    · exact .inr ⟨latest, hloaded, hseen, hshown⟩

/-- **Every poll of a run.** -/
theorem along_showsUpTo (hstream : StreamOk sdk W stream) {polls : List Poll}
    (hs : Caught sdk W stream wallet s) (hhonest : ∀ poll ∈ polls, Honest stream wallet poll) :
    Along (loadEvents sdk collation (sdk.textOf W wallet) false)
      (fun t poll => ∀ latest, Succeeds false t poll latest → ShowsUpTo sdk W stream wallet latest
        (loadEvents sdk collation (sdk.textOf W wallet) false t poll)) s polls := by
  induction polls generalizing s with
  | nil => trivial
  | cons poll polls ih =>
    obtain ⟨hpoll, hpolls⟩ := List.forall_mem_cons.1 hhonest
    have hinitial : false = true → Fresh s := fun h => by cases h
    exact ⟨fun latest hlatest => showsUpTo_loadEvents hstream hs hpoll hlatest hinitial,
      ih (caught_loadEvents hstream hs hpoll hinitial) hpolls⟩

/-- **The activity feed misses nothing.** For every stream of events and every run of polls, some of
them failing: after each successful poll the feed shows every event of the wallet from the start
ledger of the first successful poll up to the latest ledger, each once and in descending order of
the ledgers. -/
theorem feed_shows (sdk : StellarSdk J) (W : Wire Address) (collation : Collation)
    (stream : List (StreamEvent Address)) (wallet : Address) (hstream : StreamOk sdk W stream)
    (s : Feed) (hs : Fresh s) (first : Poll) (polls : List Poll)
    (hhonest : ∀ poll ∈ first :: polls, Honest stream wallet poll) :
    (∀ latest, Succeeds true s first latest → ShowsUpTo sdk W stream wallet latest
        (loadEvents sdk collation (sdk.textOf W wallet) true s first)) ∧
      Along (loadEvents sdk collation (sdk.textOf W wallet) false)
        (fun t poll => ∀ latest, Succeeds false t poll latest →
          ShowsUpTo sdk W stream wallet latest
            (loadEvents sdk collation (sdk.textOf W wallet) false t poll))
        (loadEvents sdk collation (sdk.textOf W wallet) true s first) polls := by
  obtain ⟨hfirst, hpolls⟩ := List.forall_mem_cons.1 hhonest
  have hinitial : true = true → Fresh s := fun _ => hs
  exact ⟨fun latest hlatest => showsUpTo_loadEvents hstream (.inl hs) hfirst hlatest hinitial,
    along_showsUpTo hstream (caught_loadEvents hstream (.inl hs) hfirst hinitial) hpolls⟩

/-! ### A payment of the wallet -/

/-- The order of the code points, which is that of `localeCompare` on times. -/
def sampleCollation : Collation where
  le s t := decide (s ≤ t)
  total s t := by simpa using String.le_total s t
  trans s t u hst htu := by
    simp only [decide_eq_true_eq] at hst htu ⊢
    exact String.le_trans hst htu

/-- One payment, in ledger 10. -/
def sampleStream : List (StreamEvent UInt8) := [⟨.executed 1 2 9 100 1, sampleRawEvent⟩]

/-- A poll at this ledger. -/
def samplePoll (latest : ℕ) : Poll where
  getLatestLedger := .ok latest
  getEvents start _ := .ok (if start ≤ 10 then [sampleRawEvent] else [])

/-- A poll that fails. -/
def failingPoll : Poll := ⟨.error "Request timed out", fun _ _ => .ok []⟩

/-- The state before the first poll. -/
def emptyFeed : Feed := ⟨[], false, none, false, none, none⟩

theorem streamOk_sampleStream :
    StreamOk (sampleStellarFor (.executed 1 2 9 100 1)) sampleWire sampleStream where
  fits := List.forall_mem_singleton.2 ⟨⟨by decide, by decide⟩, by decide⟩
  received := List.forall_mem_singleton.2 (received_sample 1 2 9 100 1)
  ids := List.nodup_singleton _

theorem honest_samplePoll (latest : ℕ) : Honest sampleStream 1 (samplePoll latest) := by
  intro latest' start rawEvents _ hevents
  obtain rfl := Except.ok.inj hevents
  constructor
  · intro raw hraw
    split_ifs at hraw with hstart
    · obtain rfl := List.mem_singleton.1 hraw
      exact ⟨_, List.mem_singleton_self _, rfl, rfl, hstart⟩
    · cases hraw
  · intro e he _ hstart _
    obtain rfl := List.mem_singleton.1 he
    have hle : start ≤ 10 := hstart
    rw [if_pos hle]
    exact List.mem_singleton_self _

theorem honest_failingPoll : Honest sampleStream 1 failingPoll := fun _ _ _ h => by cases h

/-- The payment is shown after two polls that succeed, with one between them that fails. -/
theorem feed_shows_sample :
    Along (loadEvents (sampleStellarFor (.executed 1 2 9 100 1)) sampleCollation
        ((sampleStellarFor (.executed 1 2 9 100 1)).textOf sampleWire 1) false)
      (fun t poll => ∀ latest, Succeeds false t poll latest →
        ShowsUpTo (sampleStellarFor (.executed 1 2 9 100 1)) sampleWire sampleStream 1 latest
          (loadEvents (sampleStellarFor (.executed 1 2 9 100 1)) sampleCollation
            ((sampleStellarFor (.executed 1 2 9 100 1)).textOf sampleWire 1) false t poll))
      (loadEvents (sampleStellarFor (.executed 1 2 9 100 1)) sampleCollation
        ((sampleStellarFor (.executed 1 2 9 100 1)).textOf sampleWire 1) true emptyFeed
        (samplePoll 9))
      [failingPoll, samplePoll 12] :=
  (feed_shows (sampleStellarFor (.executed 1 2 9 100 1)) sampleWire sampleCollation sampleStream 1
    streamOk_sampleStream emptyFeed ⟨rfl, rfl⟩ (samplePoll 9) [failingPoll, samplePoll 12]
    (List.forall_mem_cons.2 ⟨honest_samplePoll 9, List.forall_mem_cons.2
      ⟨honest_failingPoll, List.forall_mem_singleton.2 (honest_samplePoll 12)⟩⟩)).2

end SorobanPay.ActivityFeed
