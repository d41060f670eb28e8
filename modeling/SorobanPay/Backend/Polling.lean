import SorobanPay.Backend.EventStream
import SorobanPay.Backend.IndexerService
import SorobanPay.Foundation.Replay
import SorobanPay.Foundation.Run

/-!
# The polling loop of the indexer service

`poll` loads the cursor from the database and then fetches page after page of the events after the
cursor, persists the events of a page one by one, each in a transaction of its own, and saves the
identifier of the last one as the new cursor. It ends with a page that is not full. Between any two
of these steps the process may crash, and then only the database is left: the tables and the saved
cursor. A call of the database or of the RPC that fails ends the poll, which is to the database as
a crash.

The RPC returns the events strictly after the cursor in the order of the ledger, as many as it
likes up to the limit asked for.

## Main definitions

* `IndexerState`, `Phase`, `Input`, `pollStep`: the loop as a machine.
* `persisted`: what a step of the machine persists.
* `pollRun`, `persistedLog`: the state after some inputs, and what has been persisted.
* `WellDated`: what is assumed of the stream.
* `CaughtUp`, `Passed`: where the saved cursor is in the stream.

## Main results

* `replayable_persistEvent`: persisting a list of events again changes nothing.
* `PollInv.pollStep`: the invariant of the machine.
* `exactly_once`: after any crashes the tables are those of a run without.
* `exists_crashFree`: such a run exists.
-/

set_option autoImplicit false

namespace SorobanPay

open Foundation

/-! ### Persisting again -/

section Replay

variable (S M : String)

/-- The row that an event creates for the pair `(S, M)` if there is none. -/
def DecodedEvent.create (event : DecodedEvent) : Option SubscriptionRow :=
  if (S = event.subscriber ∧ M = event.merchant) ∧ event.type = .subscribe then
    some ⟨"", event.amount, 0, event.occurredAt, .active⟩
  else none

/-- What an event does to the row of the pair `(S, M)`. -/
def SubscriptionRow.touch (row : SubscriptionRow) (event : DecodedEvent) : SubscriptionRow :=
  if S = event.subscriber ∧ M = event.merchant then
    { row with
      amount := if event.type = .subscribe then event.amount else row.amount
      status := event.type.status.getD row.status }
  else row

theorem persistEvent_subscriptions_eq_elim (t : Tables) (event : DecodedEvent) :
    (persistEvent t event).subscriptions S M =
      (t.subscriptions S M).elim (event.create S M) fun row => some (row.touch S M event) := by
  rw [persistEvent_subscriptions]
  cases t.subscriptions S M <;>
    by_cases hpair : S = event.subscriber ∧ M = event.merchant <;>
    simp [DecodedEvent.apply, DecodedEvent.create, SubscriptionRow.touch, hpair]

/-- The columns that an event leaves. -/
theorem foldl_touch_fixed (events : List DecodedEvent) (row : SubscriptionRow) :
    (events.foldl (SubscriptionRow.touch S M) row).token = row.token ∧
      (events.foldl (SubscriptionRow.touch S M) row).intervalSec = row.intervalSec ∧
        (events.foldl (SubscriptionRow.touch S M) row).nextPayment = row.nextPayment := by
  induction events generalizing row with
  | nil => exact ⟨rfl, rfl, rfl⟩
  | cons event events ih =>
    obtain ⟨htoken, hinterval, hnext⟩ := ih (row.touch S M event)
    rw [List.foldl_cons, htoken, hinterval, hnext, SubscriptionRow.touch]
    split_ifs <;> exact ⟨rfl, rfl, rfl⟩

theorem replayable_touch : Replayable (SubscriptionRow.touch S M) := by
  intro events row
  obtain ⟨htoken, hinterval, hnext⟩ :=
    foldl_touch_fixed S M events (events.foldl (SubscriptionRow.touch S M) row)
  refine SubscriptionRow.ext htoken ?_ hinterval hnext ?_
  · refine (Replayable.overwrite fun event : DecodedEvent =>
      if (S = event.subscriber ∧ M = event.merchant) ∧ event.type = .subscribe then
        some event.amount else none).view SubscriptionRow.amount (fun row event => ?_) events row
    by_cases hpair : S = event.subscriber ∧ M = event.merchant <;>
      by_cases htype : event.type = .subscribe <;> simp [SubscriptionRow.touch, hpair, htype]
  · refine (Replayable.overwrite fun event : DecodedEvent =>
      if S = event.subscriber ∧ M = event.merchant then event.type.status else none).view
        SubscriptionRow.status (fun row event => ?_) events row
    by_cases hpair : S = event.subscriber ∧ M = event.merchant <;>
      simp [SubscriptionRow.touch, hpair]

end Replay

/-- **Persisting a list of events again changes nothing.** -/
theorem replayable_persistEvent : Replayable persistEvent := by
  intro events t
  refine Tables.ext ?_ ?_
  · funext S M
    refine (Replayable.upsert (replayable_touch S M) ?_).view (fun t => t.subscriptions S M)
      (persistEvent_subscriptions_eq_elim S M) events t
    intro event row later hcreate
    unfold DecodedEvent.create at hcreate
    split_ifs at hcreate with hsubscribes
    obtain ⟨hpair, htype⟩ := hsubscribes
    obtain rfl := Option.some.inj hcreate
    obtain ⟨htoken, hinterval, hnext⟩ :=
      foldl_touch_fixed S M later ⟨"", event.amount, 0, event.occurredAt, .active⟩
    rw [SubscriptionRow.touch, if_pos hpair, htoken, hinterval, hnext]
    simp [htype, EventType.status]
  · funext key
    exact (Replayable.keepFirst fun event : DecodedEvent => event.payment key).view
      (fun t => t.payments key) (fun t event => persistEvent_payments t event key) events t

/-! ### The loop -/

/-- `MAX_EVENTS_PER_PAGE`. -/
def maxEventsPerPage : ℕ := 100

/-- `fetchEventsPage`, when the RPC has `n` events to give. -/
def fetchEventsPage (stream : List EventResponse) (cursor : String) (n : ℕ) :
    List EventResponse :=
  (eventsAfter stream cursor).take (min n maxEventsPerPage)

/-- Where the loop is: between two polls, before it fetches the page after a cursor, or before it
persists the next of the events of a page that are left. -/
inductive Phase
  | idle
  | fetching (cursor : String)
  | processing (page todo : List EventResponse)

/-- The database, with the cursor of `indexer_state`, and the loop. -/
structure PollState where
  tables : Tables
  cursor : String
  phase : Phase

/-- The database before the first poll. -/
def PollState.start : PollState := ⟨.empty, "", .idle⟩

/-- What can happen next. -/
inductive PollInput
  | poll
  | fetch (n : ℕ)
  | persist (now : ℕ)
  | save
  | crash

/-- One step of the loop; an input that does not fit the phase changes nothing. -/
def pollStep (sdk : Sdk) (stream : List EventResponse) (s : PollState) : PollInput → PollState
  | .poll =>
    match s.phase with
    | .idle => { s with phase := .fetching s.cursor }
    | _ => s
  | .fetch n =>
    match s.phase with
    | .fetching cursor =>
      match fetchEventsPage stream cursor n with
      | [] => { s with phase := .idle }
      | page => { s with phase := .processing page page }
    | _ => s
  | .persist now =>
    match s.phase with
    | .processing page (event :: todo) =>
      { s with
        tables := (decodeEvent sdk now event).elim s.tables (persistEvent s.tables)
        phase := .processing page todo }
    | _ => s
  | .save =>
    match s.phase with
    | .processing page [] =>
      match page.getLast? with
      | some lastEvent =>
        { s with
          cursor := lastEvent.id
          phase := if page.length < maxEventsPerPage then .idle else .fetching lastEvent.id }
      | none => s
    | _ => s
  | .crash => { s with phase := .idle }

/-- What a step persists. -/
def persisted (sdk : Sdk) (s : PollState) : PollInput → List DecodedEvent
  | .persist now =>
    match s.phase with
    | .processing _ (event :: _) => (decodeEvent sdk now event).toList
    | _ => []
  | _ => []

/-- The saved cursor is at the end of the stream. -/
def CaughtUp (stream : List EventResponse) (s : PollState) : Prop :=
  eventsAfter stream s.cursor = []

/-- The saved cursor is at an event or past it. -/
def Passed (stream : List EventResponse) (s : PollState) (event : EventResponse) : Prop :=
  event ∈ stream ∧ event ∉ eventsAfter stream s.cursor

/-- What is assumed of the stream: its events are told apart by their identifiers, and carry the
close time of their ledger. -/
structure WellDated (stream : List EventResponse) : Prop extends WellIdentified stream where
  closed : ∀ event ∈ stream, event.ledgerClosedAt.isSome = true

/-! ### The invariant -/

variable {sdk : Sdk} {stream : List EventResponse}

/-- The time at which an event is decoded does not matter. -/
theorem WellDated.decodeEvent_eq (h : WellDated stream) {event : EventResponse}
    (hevent : event ∈ stream) (now : ℕ) : decodeEvent sdk now event = decodeEvent sdk 0 event := by
  obtain ⟨closedAt, hclosed⟩ := Option.isSome_iff_exists.1 (h.closed event hevent)
  simp only [decodeEvent, hclosed, Option.getD_some]

/-- An event is decoded and persisted, if it can be decoded. -/
def handleEvent (sdk : Sdk) (t : Tables) (event : EventResponse) : Tables :=
  (decodeEvent sdk 0 event).elim t (persistEvent t)

theorem replayable_handleEvent (sdk : Sdk) : Replayable (handleEvent sdk) :=
  replayable_persistEvent.filterMap (decodeEvent sdk 0)

/-- The phase fits what has been handled since the cursor was saved. -/
def Phase.Fits (cursor : String) (since left : List EventResponse) : Phase → Prop
  | .idle => since = []
  | .fetching c => since = [] ∧ c = cursor
  | .processing page todo => page ≠ [] ∧ page = since ++ todo ∧ ∃ beyond, left = todo ++ beyond

/-- Up to the saved cursor everything has been persisted, and the tables are on their way to those
of the whole stream. -/
structure PollInv (sdk : Sdk) (stream : List EventResponse) (s : PollState)
    (log : List DecodedEvent) (saved since left : List EventResponse) : Prop where
  consumed : Consumed (handleEvent sdk) .empty stream saved since left s.tables
  cursor : eventsAfter stream s.cursor = since ++ left
  phase : s.phase.Fits s.cursor since left
  persisted : ∀ event ∈ saved ++ since, ∀ decoded, decodeEvent sdk 0 event = some decoded →
    decoded ∈ log

theorem PollInv.start : PollInv sdk stream .start [] [] [] stream :=
  ⟨.start, rfl, rfl, by simp⟩

section Moves

variable {tables : Tables} {cursor : String} {log : List DecodedEvent}
  {saved since left page todo : List EventResponse} {event : EventResponse}

theorem PollInv.fetch {c : String} {n : ℕ}
    (h : PollInv sdk stream ⟨tables, cursor, .fetching c⟩ log saved since left)
    (hpage : fetchEventsPage stream c n ≠ []) :
    PollInv sdk stream
      ⟨tables, cursor, .processing (fetchEventsPage stream c n) (fetchEventsPage stream c n)⟩ log
      saved since left := by
  obtain ⟨hconsumed, hcursor, ⟨rfl, rfl⟩, hlog⟩ := h
  have hleft : eventsAfter stream c = left := hcursor
  refine ⟨hconsumed, hcursor, ⟨hpage, rfl, left.drop (min n maxEventsPerPage), ?_⟩, hlog⟩
  rw [fetchEventsPage, hleft, List.take_append_drop]

theorem PollInv.persist (hstream : WellDated stream) (now : ℕ)
    (h : PollInv sdk stream ⟨tables, cursor, .processing page (event :: todo)⟩ log saved since
      left) :
    ∃ left', PollInv sdk stream
      ⟨(decodeEvent sdk now event).elim tables (persistEvent tables), cursor,
        .processing page todo⟩
      (log ++ (decodeEvent sdk now event).toList) saved (since ++ [event]) left' := by
  obtain ⟨hconsumed, hcursor, ⟨hpage, rfl, beyond, rfl⟩, hlog⟩ := h
  have hevent : event ∈ stream := by simp [hconsumed.split]
  have hdecode : decodeEvent sdk now event = decodeEvent sdk 0 event :=
    hstream.decodeEvent_eq hevent now
  rw [hdecode]
  refine ⟨todo ++ beyond, hconsumed.handle, ?_, ⟨hpage, by simp, beyond, rfl⟩, ?_⟩
  · rw [List.append_assoc]
    exact hcursor
  · intro e he decoded hdecoded
    rw [← List.append_assoc, List.mem_append, List.mem_singleton] at he
    rw [List.mem_append]
    rcases he with he | rfl
    · exact .inl (hlog e he decoded hdecoded)
    · exact .inr (by rw [hdecoded, Option.mem_toList])

theorem PollInv.save (hstream : WellDated stream) {phase : Phase}
    (h : PollInv sdk stream ⟨tables, cursor, .processing page []⟩ log saved since left)
    (hpage : page ≠ []) (hphase : phase.Fits (page.getLast hpage).id [] left) :
    PollInv sdk stream ⟨tables, (page.getLast hpage).id, phase⟩ log (saved ++ since) [] left := by
  obtain ⟨hconsumed, hcursor, ⟨-, hsince, -⟩, hlog⟩ := h
  obtain rfl : page = since := hsince.trans (List.append_nil since)
  refine ⟨hconsumed.save, hstream.eventsAfter_getLast hpage hconsumed.split, hphase, ?_⟩
  rw [List.append_nil]
  exact hlog

theorem PollInv.crash {phase : Phase}
    (h : PollInv sdk stream ⟨tables, cursor, phase⟩ log saved since left) :
    PollInv sdk stream ⟨tables, cursor, .idle⟩ log saved [] (since ++ left) := by
  obtain ⟨hconsumed, hcursor, -, hlog⟩ := h
  refine ⟨hconsumed.crash (replayable_handleEvent sdk), hcursor, rfl, ?_⟩
  rw [List.append_nil]
  exact fun event hevent => hlog event (List.mem_append_left _ hevent)

end Moves

/-- **The invariant of the loop.** -/
theorem PollInv.pollStep (hstream : WellDated stream) {s : PollState}
    {log : List DecodedEvent} {saved since left : List EventResponse}
    (h : PollInv sdk stream s log saved since left) (input : PollInput) :
    ∃ saved' since' left', PollInv sdk stream (SorobanPay.pollStep sdk stream s input)
      (log ++ SorobanPay.persisted sdk s input) saved' since' left' := by
  rcases s with ⟨tables, cursor, phase⟩
  -- an input that does not fit the phase changes nothing
  have hstay : ∃ saved' since' left',
      PollInv sdk stream ⟨tables, cursor, phase⟩ (log ++ []) saved' since' left' := by
    rw [List.append_nil]
    exact ⟨saved, since, left, h⟩
  cases input with
  | poll =>
    cases phase with
    | idle =>
      obtain ⟨saved', since', left', hconsumed, hcursor, hphase, hlog⟩ := hstay
      exact ⟨saved', since', left', hconsumed, hcursor, ⟨hphase, rfl⟩, hlog⟩
    | fetching | processing => exact hstay
  | fetch n =>
    cases phase with
    | fetching c =>
      simp only [SorobanPay.pollStep, SorobanPay.persisted, List.append_nil]
      split
      · exact ⟨saved, since, left, h.consumed, h.cursor, h.phase.1, h.persisted⟩
      · exact ⟨saved, since, left, h.fetch ‹_›⟩
    | idle | processing => exact hstay
  | persist now =>
    cases phase with
    | processing page todo =>
      rcases todo with _ | ⟨event, todo⟩
      · exact hstay
      · exact ⟨saved, since ++ [event], h.persist hstream now⟩
    | idle | fetching => exact hstay
  | save =>
    cases phase with
    | processing page todo =>
      rcases todo with _ | ⟨event, todo⟩
      · have hpage := h.phase.1
        have hlast := List.getLast?_eq_some_getLast hpage
        simp only [SorobanPay.pollStep, SorobanPay.persisted, hlast, List.append_nil]
        refine ⟨saved ++ since, [], left, h.save hstream hpage ?_⟩
        split_ifs
        · rfl
        · exact ⟨rfl, rfl⟩
      · exact hstay
    | idle | fetching => exact hstay
  | crash =>
    refine ⟨saved, [], since ++ left, ?_⟩
    simp only [SorobanPay.pollStep, SorobanPay.persisted, List.append_nil]
    exact h.crash

/-! ### Runs -/

/-- The state after some inputs. -/
def pollRun (sdk : Sdk) (stream : List EventResponse) (inputs : List PollInput) : PollState :=
  after (pollStep sdk stream) .start inputs

/-- What has been persisted, in order. -/
def persistedLog (sdk : Sdk) (stream : List EventResponse) (inputs : List PollInput) :
    List DecodedEvent :=
  history (pollStep sdk stream) (persisted sdk) .start inputs

theorem pollInv_pollRun (sdk : Sdk) (hstream : WellDated stream) (inputs : List PollInput) :
    ∃ saved since left,
      PollInv sdk stream (pollRun sdk stream inputs) (persistedLog sdk stream inputs) saved since
        left := by
  let Inv (t : PollState × List DecodedEvent) : Prop :=
    ∃ saved since left, PollInv sdk stream t.1 t.2 saved since left
  have hstep : ∀ t input, Inv t →
      Inv (logged (pollStep sdk stream) (persisted sdk) t input) := by
    rintro ⟨s, log⟩ input ⟨saved, since, left, h⟩
    exact h.pollStep hstream input
  have hrun : Inv (after (logged (pollStep sdk stream) (persisted sdk)) (.start, []) inputs) :=
    after_invariant hstep ⟨[], [], stream, .start⟩ inputs
  rw [after_logged] at hrun
  exact hrun

theorem pollStep_tables (s : PollState) (input : PollInput) :
    (pollStep sdk stream s input).tables = (persisted sdk s input).foldl persistEvent s.tables := by
  rcases s with ⟨tables, cursor, phase⟩
  cases input with
  | poll => cases phase <;> rfl
  | fetch n =>
    cases phase with
    | fetching c =>
      simp only [pollStep]
      split <;> rfl
    | idle | processing => rfl
  | persist now =>
    cases phase with
    | processing page todo =>
      rcases todo with _ | ⟨event, todo⟩
      · rfl
      · simp only [pollStep, persisted]
        cases decodeEvent sdk now event <;> rfl
    | idle | fetching => rfl
  | save =>
    cases phase with
    | processing page todo =>
      rcases todo with _ | ⟨event, todo⟩
      · simp only [pollStep]
        split <;> rfl
      · rfl
    | idle | fetching => rfl
  | crash => rfl

/-- The tables hold what has been persisted. -/
theorem pollRun_tables (inputs : List PollInput) :
    (pollRun sdk stream inputs).tables =
      (persistedLog sdk stream inputs).foldl persistEvent .empty := by
  suffices h : ∀ s, (after (pollStep sdk stream) s inputs).tables =
      (history (pollStep sdk stream) (persisted sdk) s inputs).foldl persistEvent s.tables from
    h .start
  induction inputs with
  | nil => exact fun _ => rfl
  | cons input inputs ih =>
    intro s
    rw [after_cons, history_cons, List.foldl_append, ih, pollStep_tables]

/-- The tables once the loop has caught up. -/
theorem CaughtUp.tables_eq (hstream : WellDated stream) {inputs : List PollInput}
    (h : CaughtUp stream (pollRun sdk stream inputs)) :
    (pollRun sdk stream inputs).tables = stream.foldl (handleEvent sdk) .empty := by
  obtain ⟨saved, since, left, hinv⟩ := pollInv_pollRun sdk hstream inputs
  have hnil : since ++ left = [] := hinv.cursor.symm.trans h
  obtain ⟨rfl, rfl⟩ := List.append_eq_nil_iff.1 hnil
  exact hinv.consumed.eq_of_nil

/-- **Exactly once.** After any crashes, a loop that has caught up leaves the tables of a loop that
has caught up without; and an event that the saved cursor has passed has been persisted, if it can
be decoded at all. -/
theorem exactly_once (sdk : Sdk) (stream : List EventResponse) (hstream : WellDated stream)
    (inputs : List PollInput) :
    (∀ crashFree : List PollInput, .crash ∉ crashFree →
      CaughtUp stream (pollRun sdk stream crashFree) →
      CaughtUp stream (pollRun sdk stream inputs) →
      (pollRun sdk stream inputs).tables = (pollRun sdk stream crashFree).tables) ∧
    ∀ event now decoded, Passed stream (pollRun sdk stream inputs) event →
      decodeEvent sdk now event = some decoded → decoded ∈ persistedLog sdk stream inputs := by
  refine ⟨fun crashFree _ hfree hcaught => ?_, fun event now decoded hpassed hdecoded => ?_⟩
  · rw [hcaught.tables_eq hstream, hfree.tables_eq hstream]
  · obtain ⟨saved, since, left, hinv⟩ := pollInv_pollRun sdk hstream inputs
    obtain ⟨hmem, hnot⟩ := hpassed
    rw [hstream.decodeEvent_eq hmem] at hdecoded
    refine hinv.persisted event (List.mem_append_left _ ?_) decoded hdecoded
    rw [hinv.consumed.split, List.mem_append] at hmem
    rw [hinv.cursor] at hnot
    exact hmem.resolve_right hnot

/-- A subscription is paid and cancelled. -/
def pollSample : List EventResponse :=
  [sampleResponse "1" 10 (.subscribe 1 2 9 100), sampleResponse "2" 20 (.executed 1 2 9 100 0),
    sampleResponse "3" 30 (.cancel 1 2 0)]

theorem wellDated_pollSample : WellDated pollSample where
  nodup := by decide
  ne_empty := by simp [pollSample, sampleResponse]
  closed := by simp [pollSample, sampleResponse]

/-- The loop crashes with the payment persisted and the cursor not saved, and handles it again. -/
theorem exactly_once_sample :
    let sdk : Sdk := ⟨fun _ => []⟩
    let crashing : List PollInput :=
      [.poll, .fetch 2, .persist 0, .persist 0, .crash, .poll, .fetch 3, .persist 0, .persist 0,
        .persist 0, .save]
    let crashFree : List PollInput := [.poll, .fetch 3, .persist 0, .persist 0, .persist 0, .save]
    (pollRun sdk pollSample crashing).tables = (pollRun sdk pollSample crashFree).tables ∧
      ∃ decoded, decodeEvent sdk 0 (sampleResponse "2" 20 (.executed 1 2 9 100 0)) = some decoded ∧
        decoded ∈ persistedLog sdk pollSample crashing := by
  intro sdk crashing crashFree
  have hcaught : (pollRun sdk pollSample crashing).cursor = "3" ∧
      (pollRun sdk pollSample crashFree).cursor = "3" := ⟨rfl, rfl⟩
  have hend : eventsAfter pollSample "3" = [] := by
    simp [eventsAfter, pollSample, sampleResponse]
  obtain ⟨hsame, hpersisted⟩ := exactly_once sdk pollSample wellDated_pollSample crashing
  obtain ⟨decoded, hdecoded⟩ := Option.isSome_iff_exists.1 <|
    show (decodeEvent sdk 0 (sampleResponse "2" 20 (.executed 1 2 9 100 0))).isSome = true from rfl
  refine ⟨hsame crashFree (by simp [crashFree]) ?_ ?_, decoded, hdecoded,
    hpersisted _ 0 decoded ⟨?_, ?_⟩ hdecoded⟩
  · rw [CaughtUp, hcaught.2, hend]
  · rw [CaughtUp, hcaught.1, hend]
  · simp [pollSample]
  · rw [hcaught.1, hend]
    exact List.not_mem_nil

/-! ### Without crashes -/

/-- One poll that is given the next event and nothing else. -/
def pollOne : List PollInput := [.poll, .fetch 1, .persist 0, .save]

theorem after_pollOne (sdk : Sdk) {s : PollState} (hidle : s.phase = .idle)
    {event : EventResponse} {rest : List EventResponse}
    (hrest : eventsAfter stream s.cursor = event :: rest) :
    (after (pollStep sdk stream) s pollOne).phase = .idle ∧
      (after (pollStep sdk stream) s pollOne).cursor = event.id := by
  rcases s with ⟨tables, cursor, phase⟩
  obtain rfl : phase = .idle := hidle
  have hpage : fetchEventsPage stream cursor 1 = [event] := by
    rw [fetchEventsPage, show eventsAfter stream cursor = event :: rest from hrest]
    rfl
  simp [pollOne, pollStep, hpage, maxEventsPerPage]

/-- **Catching up.** The loop can catch up without a crash. -/
theorem exists_crashFree (sdk : Sdk) (hstream : WellIdentified stream) :
    ∃ crashFree : List PollInput, .crash ∉ crashFree ∧
      CaughtUp stream (pollRun sdk stream crashFree) := by
  suffices h : ∀ (left pre : List EventResponse) (s : PollState), stream = pre ++ left →
      s.phase = .idle → eventsAfter stream s.cursor = left →
      ∃ crashFree : List PollInput, .crash ∉ crashFree ∧
        CaughtUp stream (after (pollStep sdk stream) s crashFree) from
    h stream [] .start rfl rfl rfl
  intro left
  induction left with
  | nil => exact fun pre s _ _ hleft => ⟨[], by simp, hleft⟩
  | cons event left ih =>
    intro pre s hsplit hidle hleft
    obtain ⟨hphase, hcursor⟩ := after_pollOne sdk hidle hleft
    have hnext : eventsAfter stream (after (pollStep sdk stream) s pollOne).cursor = left := by
      rw [hcursor, hstream.eventsAfter_eq hsplit]
    obtain ⟨crashFree, hfree, hcaught⟩ :=
      ih (pre ++ [event]) _ (by simp [hsplit]) hphase hnext
    refine ⟨pollOne ++ crashFree, ?_, ?_⟩
    · rw [List.mem_append, not_or]
      exact ⟨by simp [pollOne], hfree⟩
    · rw [after_append]
      exact hcaught

end SorobanPay
