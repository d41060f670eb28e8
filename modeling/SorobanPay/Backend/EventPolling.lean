import SorobanPay.Backend.EventIndexer
import SorobanPay.Backend.EventStream
import SorobanPay.Foundation.Listing

/-!
# The polling loop of the event indexer

`fetchAndStoreEventsWithCursor` loads the saved position, a cursor and a ledger, and runs
`_fetchBatch` until it succeeds or gives up: a batch asks the RPC for a page of events after the
position, processes them one by one, and saves the position after the last. A retry starts from the
position that was loaded. Any call of the database may fail. A crash in the middle of a batch is to
the database a batch of the events it has come to, at a position that is not saved, and the next
loading.

`processEvent` swallows its errors, so that the position moves past an event whatever has become of
it. `no_loss_iff` says when no event is lost: as long as, in every batch whose position is saved,
each event of a stored type is in the outbox already, or is stored by the batch.

## Main definitions

* `Position`, `requested`, `Position.advance`: what a batch asks for and what it saves.
* `PollingState`, `pollingStep`: the loop as a machine.
* `Committed`, `NoLoss`: the rows of an event are there, and those of all events that have been
  passed.
* `PageStored`, `Loses`: a batch stores the events of its page, and saves a position that loses one.

## Main results

* `committed_page_iff`: which pages are stored.
* `no_loss_iff`: when no event is lost.
-/

set_option autoImplicit false

namespace SorobanPay.EventIndexer

open Foundation

/-! ### Positions -/

/-- The row of `IndexerState`. -/
structure Position where
  cursor : Option String
  ledger : ℕ
  deriving DecidableEq, Repr

/-- The position when there is no row. -/
def Position.start : Position := ⟨none, 0⟩

/-- The events that a batch asks for: those after the cursor, or without one those from the ledger
on. -/
def requested (stream : List EventResponse) (pos : Position) : List EventResponse :=
  match present pos.cursor with
  | some cursor => eventsAfter stream cursor
  | none => stream.filter fun event => max pos.ledger 1 ≤ event.ledger

/-- The largest page. -/
def batchLimit : ℕ := 100

/-- The page that the RPC returns when it has `available` events to give. -/
def fetchPage (stream : List EventResponse) (pos : Position) (available : ℕ) :
    List EventResponse :=
  (requested stream pos).take (min available batchLimit)

/-- The position after an event. -/
def Position.pass (pos : Position) (event : EventResponse) : Position where
  cursor := if event.id = "" then pos.cursor else some event.id
  ledger := if pos.ledger < event.ledger then event.ledger else pos.ledger

/-- The position after a page. -/
def Position.advance (pos : Position) (page : List EventResponse) : Position :=
  page.foldl Position.pass pos

/-! ### The loop -/

/-- The database and the memory of the loop: the tables, the saved position, and the position that
a batch may start from. -/
structure PollingState where
  db : Db
  saved : Position
  loaded : Option Position

/-- Nothing has been done. -/
def PollingState.start : PollingState := ⟨.empty, .start, none⟩

/-- What can happen next: the saved position is loaded, or a batch is run, in which the calls for
each event and the saving end as they like. -/
inductive PollingInput
  | load
  | batch (available : ℕ) (outcome : String → DbCall → Outcome) (save : Outcome)

/-- The events of a page are processed. -/
def processPage (sdk : SdkTexts) (outcome : String → DbCall → Outcome) (db : Db)
    (page : List EventResponse) : Db :=
  page.foldl (fun db event => processEvent sdk (outcome event.id) db event) db

/-- `_fetchBatch`. -/
def fetchBatch (sdk : SdkTexts) (stream : List EventResponse) (s : PollingState) (pos : Position)
    (available : ℕ) (outcome : String → DbCall → Outcome) (save : Outcome) : PollingState :=
  match fetchPage stream pos available with
  | [] => { s with loaded := none }
  | page =>
    { db := processPage sdk outcome s.db page
      saved := if save = .failed then s.saved else pos.advance page
      -- a batch that fails may be tried again
      loaded := if save = .acknowledged then none else some pos }

/-- One step of the loop. -/
def pollingStep (sdk : SdkTexts) (stream : List EventResponse) (s : PollingState) :
    PollingInput → PollingState
  | .load => { s with loaded := some s.saved }
  | .batch available outcome save =>
    match s.loaded with
    | none => s
    | some pos => fetchBatch sdk stream s pos available outcome save

/-! ### What is lost -/

/-- The event is of a stored type. -/
def IsStoredType (event : EventResponse) : Prop :=
  ∃ eventType ∈ storedEventTypes,
    (event.topic.head?.bind fun name => (scValToSymbol name).bind EventType.ofName) = some eventType

/-- The rows of an event are there. -/
def Committed (sdk : SdkTexts) (db : Db) (event : EventResponse) : Prop :=
  ∃ e, toStored sdk event = some e ∧ e.row ∈ db.events ∧ db.outbox event.id = some e.outboxRow

/-- The position is past an event. -/
def Passed (stream : List EventResponse) (pos : Position) (event : EventResponse) : Prop :=
  event ∈ stream ∧ event ∉ requested stream pos

/-- The rows of all events of stored types that the saved position is past are there. -/
def NoLoss (sdk : SdkTexts) (stream : List EventResponse) (s : PollingState) : Prop :=
  ∀ event, Passed stream s.saved event → IsStoredType event → Committed sdk s.db event

/-- Every event of a stored type of a page is in the outbox already, or its parties are known, it
is not stored and the calls that store it succeed; and in this case no earlier event of the page
has the same row. -/
structure PageStored (sdk : SdkTexts) (outcome : String → DbCall → Outcome) (db : Db)
    (page : List EventResponse) : Prop where
  each : ∀ event ∈ page, IsStoredType event → (db.outbox event.id).isSome = true ∨
    ∃ e, toStored sdk event = some e ∧ Commits (outcome event.id) db e
  distinct : page.Pairwise fun earlier event => (db.outbox event.id).isSome = true ∨
    ∀ e e', toStored sdk earlier = some e → toStored sdk event = some e' → e.row ≠ e'.row

/-- A batch saves a position, and does not store its page. -/
def Loses (sdk : SdkTexts) (stream : List EventResponse) (s : PollingState) :
    PollingInput → Prop
  | .load => False
  | .batch available outcome save =>
    save ≠ .failed ∧
      ∃ pos, s.loaded = some pos ∧ ¬ PageStored sdk outcome s.db (fetchPage stream pos available)

/-! ### One event -/

variable {sdk : SdkTexts} {stream page : List EventResponse} {event event' : EventResponse}
  {db : Db} {e : StoredEvent}

theorem toStored_id (h : toStored sdk event = some e) : e.id = event.id := by
  simp only [toStored, Option.bind_eq_bind, Option.bind_eq_some_iff] at h
  obtain ⟨fields, -, subscriber, -, merchant, -, h⟩ := h
  split_ifs at h
  cases h
  rfl

theorem isStoredType_of_toStored (h : toStored sdk event = some e) : IsStoredType event := by
  simp only [toStored, Option.bind_eq_bind, Option.bind_eq_some_iff] at h
  obtain ⟨fields, hfields, subscriber, -, merchant, -, h⟩ := h
  split_ifs at h with htype
  refine ⟨fields.eventType, htype, ?_⟩
  unfold decodeFields at hfields
  split at hfields
  · rename_i name _ _ htopic
    obtain ⟨eventType, heventType, rfl⟩ := Option.map_eq_some_iff.1 hfields
    rw [htopic, List.head?_cons, Option.bind_some, heventType]
  · cases hfields

section Event

variable {outcome : DbCall → Outcome} {key : String}

theorem mem_events_processEvent {row : EventRow} :
    row ∈ (processEvent sdk outcome db event).events ↔ row ∈ db.events ∨
      ∃ e, toStored sdk event = some e ∧ Commits outcome db e ∧ row = e.row := by
  have hevents := congrArg Prod.fst (processEvent_log sdk outcome db event)
  simp only [Db.log] at hevents
  rw [hevents]
  rcases toStored sdk event with _ | e
  · simp
  · by_cases hcommits : Commits outcome db e <;> simp [hcommits, Db.storeEvent]

theorem outbox_processEvent :
    (processEvent sdk outcome db event).outbox key = (db.outbox key).or
      ((toStored sdk event).bind fun e =>
        if Commits outcome db e ∧ key = e.id then some e.outboxRow else none) := by
  have houtbox := congrArg Prod.snd (processEvent_log sdk outcome db event)
  simp only [Db.log] at houtbox
  rw [houtbox]
  rcases toStored sdk event with _ | e
  · simp
  · by_cases hcommits : Commits outcome db e <;> by_cases hkey : key = e.id <;>
      simp [hcommits, hkey, Db.storeEvent]

theorem outbox_processEvent_of_some {row : OutboxRow} (h : db.outbox key = some row) :
    (processEvent sdk outcome db event).outbox key = some row := by
  rw [outbox_processEvent, h, Option.some_or]

theorem outbox_processEvent_of_ne (h : key ≠ event.id) :
    (processEvent sdk outcome db event).outbox key = db.outbox key := by
  rw [outbox_processEvent]
  rcases hstored : toStored sdk event with _ | e
  · simp
  · simp [toStored_id hstored, h]

theorem isSome_outbox_processEvent :
    ((processEvent sdk outcome db event).outbox event.id).isSome = true ↔
      (db.outbox event.id).isSome = true ∨
        ∃ e, toStored sdk event = some e ∧ Commits outcome db e := by
  rw [outbox_processEvent]
  rcases hstored : toStored sdk event with _ | e
  · simp
  · by_cases hcommits : Commits outcome db e <;> simp [hcommits, toStored_id hstored]

end Event

/-! ### The outbox and the events -/

/-- Every row of the outbox belongs to an event of the stream whose row is there too. -/
def Consistent (sdk : SdkTexts) (stream : List EventResponse) (db : Db) : Prop :=
  ∀ key row, db.outbox key = some row → ∃ event ∈ stream, event.id = key ∧
    ∃ e, toStored sdk event = some e ∧ row = e.outboxRow ∧ e.row ∈ db.events

theorem consistent_empty : Consistent sdk stream .empty := fun _ _ h => by cases h

theorem Consistent.processEvent (h : Consistent sdk stream db) (hevent : event ∈ stream)
    (outcome : DbCall → Outcome) :
    Consistent sdk stream (EventIndexer.processEvent sdk outcome db event) := by
  intro key row hrow
  rw [outbox_processEvent, Option.or_eq_some_iff] at hrow
  rcases hrow with hrow | ⟨-, hrow⟩
  · obtain ⟨event', hevent', hid, e, hstored, rfl, hmem⟩ := h key row hrow
    exact ⟨event', hevent', hid, e, hstored, rfl, mem_events_processEvent.2 (.inl hmem)⟩
  · obtain ⟨e, hstored, hnew⟩ := Option.bind_eq_some_iff.1 hrow
    split_ifs at hnew with hcommits
    obtain ⟨hcommits, rfl⟩ := hcommits
    refine ⟨event, hevent, (toStored_id hstored).symm, e, hstored, (Option.some.inj hnew).symm, ?_⟩
    exact mem_events_processEvent.2 (.inr ⟨e, hstored, hcommits, rfl⟩)

theorem Committed.processEvent (h : Committed sdk db event') (outcome : DbCall → Outcome)
    (event : EventResponse) :
    Committed sdk (EventIndexer.processEvent sdk outcome db event) event' := by
  obtain ⟨e, hstored, hrow, houtbox⟩ := h
  exact ⟨e, hstored, mem_events_processEvent.2 (.inl hrow), outbox_processEvent_of_some houtbox⟩

/-- The rows of an event are there if it is in the outbox. -/
theorem Consistent.committed_iff (h : Consistent sdk stream db) (hstream : WellIdentified stream)
    (hevent : event ∈ stream) :
    Committed sdk db event ↔ (db.outbox event.id).isSome = true := by
  constructor
  · rintro ⟨e, -, -, houtbox⟩
    rw [houtbox, Option.isSome_some]
  · intro hsome
    obtain ⟨row, hrow⟩ := Option.isSome_iff_exists.1 hsome
    obtain ⟨event', hevent', hid, e, hstored, rfl, hmem⟩ := h _ _ hrow
    obtain rfl := List.inj_on_of_nodup_map hstream.nodup hevent' hevent hid
    exact ⟨e, hstored, hmem, hrow⟩

/-! ### Pages -/

section Page

variable {outcome : String → DbCall → Outcome}

theorem processPage_cons :
    processPage sdk outcome db (event :: page) =
      processPage sdk outcome (processEvent sdk (outcome event.id) db event) page := rfl

theorem Consistent.processPage (h : Consistent sdk stream db)
    (outcome : String → DbCall → Outcome) (hpage : ∀ event ∈ page, event ∈ stream) :
    Consistent sdk stream (EventIndexer.processPage sdk outcome db page) := by
  induction page generalizing db with
  | nil => exact h
  | cons event page ih =>
    exact ih (h.processEvent (hpage event List.mem_cons_self) _)
      fun e he => hpage e (List.mem_cons_of_mem _ he)

theorem Committed.processPage (h : Committed sdk db event)
    (outcome : String → DbCall → Outcome) (page : List EventResponse) :
    Committed sdk (EventIndexer.processPage sdk outcome db page) event := by
  induction page generalizing db with
  | nil => exact h
  | cons event' page ih => exact ih (h.processEvent _ event')

theorem outbox_processPage {key : String} (hkey : ∀ event ∈ page, key ≠ event.id) :
    (processPage sdk outcome db page).outbox key = db.outbox key := by
  induction page generalizing db with
  | nil => rfl
  | cons event page ih =>
    rw [processPage_cons, ih fun e he => hkey e (List.mem_cons_of_mem _ he),
      outbox_processEvent_of_ne (hkey event List.mem_cons_self)]

theorem pageStored_nil : PageStored sdk outcome db [] := ⟨by simp, .nil⟩

/-- What is left of a page that is stored is stored after its first event. -/
theorem PageStored.tail (hids : ∀ e ∈ page, e.id ≠ event.id)
    (h : PageStored sdk outcome db (event :: page)) :
    PageStored sdk outcome (processEvent sdk (outcome event.id) db event) page := by
  have hsame : ∀ e ∈ page, (processEvent sdk (outcome event.id) db event).outbox e.id =
      db.outbox e.id := fun e he => outbox_processEvent_of_ne (hids e he)
  obtain ⟨hfirst, hdistinct⟩ := List.pairwise_cons.1 h.distinct
  refine ⟨fun e he htype => ?_, hdistinct.imp_of_mem fun _ he h => by rwa [hsame _ he]⟩
  rw [hsame e he]
  rcases h.each e (List.mem_cons_of_mem _ he) htype with houtbox | ⟨stored, hstored, hcommits⟩
  · exact .inl houtbox
  · refine (hfirst e he).imp_right fun hne => ⟨stored, hstored, hcommits.1, ?_, hcommits.2.2⟩
    rw [mem_events_processEvent]
    rintro (hrow | ⟨first, hfirst, -, hrow⟩)
    · exact hcommits.2.1 hrow
    · exact hne first stored hfirst hstored hrow.symm

/-- A page is stored if its first event is, and what is left of it after that. -/
theorem PageStored.cons (hstream : WellIdentified stream) (hdb : Consistent sdk stream db)
    (hevent : event ∈ stream) (hids : ∀ e ∈ page, e.id ≠ event.id)
    (hhead : IsStoredType event →
      Committed sdk (processEvent sdk (outcome event.id) db event) event)
    (h : PageStored sdk outcome (processEvent sdk (outcome event.id) db event) page) :
    PageStored sdk outcome db (event :: page) := by
  have hnext := hdb.processEvent hevent (outcome event.id)
  have hsame : ∀ e ∈ page, (processEvent sdk (outcome event.id) db event).outbox e.id =
      db.outbox e.id := fun e he => outbox_processEvent_of_ne (hids e he)
  refine ⟨List.forall_mem_cons.2 ⟨fun htype => ?_, fun e he htype => ?_⟩,
    List.pairwise_cons.2 ⟨fun e he => ?_, ?_⟩⟩
  · exact isSome_outbox_processEvent.1 ((hnext.committed_iff hstream hevent).1 (hhead htype))
  · have he' := h.each e he htype
    rw [hsame e he] at he'
    refine he'.imp_right fun ⟨stored, hstored, hfind, hrow, hstore⟩ =>
      ⟨stored, hstored, hfind, fun hmem => hrow ?_, hstore⟩
    exact mem_events_processEvent.2 (.inl hmem)
  · -- the row of the first event is there when the later one is looked up
    by_cases houtbox : (db.outbox e.id).isSome = true
    · exact .inl houtbox
    · refine .inr fun first stored hfirst hstored heq => ?_
      obtain ⟨first', hfirst', hrow, -⟩ := hhead (isStoredType_of_toStored hfirst)
      obtain rfl := Option.some.inj (hfirst.symm.trans hfirst')
      have he' := h.each e he (isStoredType_of_toStored hstored)
      rw [hsame e he] at he'
      obtain ⟨stored', hstored', -, hfresh, -⟩ := he'.resolve_left houtbox
      obtain rfl := Option.some.inj (hstored.symm.trans hstored')
      exact hfresh (heq ▸ hrow)
  · exact h.distinct.imp_of_mem fun _ he h => by rwa [hsame _ he] at h

/-- An event of a page is stored when its rows are there once it has been processed, and the rest of
the page once it has been stored. -/
theorem pageStored_cons_iff (hstream : WellIdentified stream) (hdb : Consistent sdk stream db)
    (hevent : event ∈ stream) (hids : ∀ e ∈ page, e.id ≠ event.id) :
    PageStored sdk outcome db (event :: page) ↔
      (IsStoredType event →
        Committed sdk (processEvent sdk (outcome event.id) db event) event) ∧
      PageStored sdk outcome (processEvent sdk (outcome event.id) db event) page := by
  have hnext := hdb.processEvent hevent (outcome event.id)
  constructor
  · refine fun h => ⟨fun htype => ?_, h.tail hids⟩
    rw [hnext.committed_iff hstream hevent, isSome_outbox_processEvent]
    exact h.each event List.mem_cons_self htype
  · exact fun h => h.2.cons hstream hdb hevent hids h.1

/-- **Which pages are stored.** After a page has been processed, the rows of all its events of
stored types are there exactly if `PageStored` holds of it beforehand. -/
theorem committed_page_iff (hstream : WellIdentified stream) (hdb : Consistent sdk stream db)
    (hpage : page.Sublist stream) :
    (∀ event ∈ page, IsStoredType event →
      Committed sdk (processPage sdk outcome db page) event) ↔ PageStored sdk outcome db page := by
  induction page generalizing db with
  | nil => simp [pageStored_nil]
  | cons event page ih =>
    have hevent : event ∈ stream := hpage.subset List.mem_cons_self
    have hrest : page.Sublist stream := (List.sublist_cons_self event page).trans hpage
    have hids : ∀ e ∈ page, e.id ≠ event.id := by
      have hnodup := hstream.nodup.sublist (hpage.map (·.id))
      rw [List.map_cons, List.nodup_cons] at hnodup
      exact fun e he heq => hnodup.1 (heq ▸ List.mem_map_of_mem he)
    have hnext := hdb.processEvent hevent (outcome event.id)
    have hend := hnext.processPage outcome fun e he => hrest.subset he
    rw [pageStored_cons_iff hstream hdb hevent hids, processPage_cons, List.forall_mem_cons,
      ih hnext hrest, hend.committed_iff hstream hevent, hnext.committed_iff hstream hevent,
      outbox_processPage fun e he => (hids e he).symm]

end Page

/-! ### Positions in the stream -/

/-- The position is between two parts of the stream. -/
structure Position.At (stream before after : List EventResponse) (pos : Position) : Prop where
  split : stream = before ++ after
  requested_eq : requested stream pos = after

theorem Position.at_start (hledger : ∀ event ∈ stream, 0 < event.ledger) :
    Position.start.At stream [] stream := by
  refine ⟨rfl, ?_⟩
  simp only [requested, Position.start, present, Option.filter_none]
  exact List.filter_eq_self.2 fun event hevent => by
    simpa [Nat.succ_le_iff] using hledger event hevent

theorem Position.At.advance (hstream : WellIdentified stream) {pos : Position}
    {before after : List EventResponse} (h : pos.At stream before (page ++ after))
    (hpage : page ≠ []) : (pos.advance page).At stream (before ++ page) after := by
  have hsplit := h.split
  refine ⟨by rw [List.append_assoc, hsplit], ?_⟩
  have hid : (page.getLast hpage).id ≠ "" :=
    hstream.ne_empty _ (by simp [hsplit, List.getLast_mem hpage])
  have hcursor : (pos.advance page).cursor = some (page.getLast hpage).id := by
    rw [Position.advance]
    conv_lhs => rw [← List.dropLast_concat_getLast hpage, List.foldl_concat]
    rw [Position.pass, if_neg hid]
  rw [requested, hcursor, present, Option.filter_some, if_pos (by simpa using hid)]
  exact hstream.eventsAfter_getLast hpage hsplit

theorem Position.At.passed_iff (hstream : WellIdentified stream) {pos : Position}
    {before after : List EventResponse} (h : pos.At stream before after) :
    Passed stream pos event ↔ event ∈ before := by
  rw [Passed, h.requested_eq]
  constructor
  · rintro ⟨hmem, hafter⟩
    rw [h.split, List.mem_append] at hmem
    exact hmem.resolve_right hafter
  · exact fun hbefore => ⟨by simp [h.split, hbefore], hstream.notMem_of_mem h.split hbefore⟩

/-! ### The invariant -/

/-- The rows of all events before a position are there. -/
def Safe (sdk : SdkTexts) (stream : List EventResponse) (db : Db) (pos : Position) : Prop :=
  ∃ before after, pos.At stream before after ∧
    ∀ event ∈ before, IsStoredType event → Committed sdk db event

/-- Nothing is lost before the saved position, nor before the one that is loaded. -/
structure PollingInv (sdk : SdkTexts) (stream : List EventResponse) (s : PollingState) : Prop where
  consistent : Consistent sdk stream s.db
  saved : Safe sdk stream s.db s.saved
  loaded : ∀ pos, s.loaded = some pos → Safe sdk stream s.db pos

theorem Safe.processPage {pos : Position} (h : Safe sdk stream db pos)
    (outcome : String → DbCall → Outcome) (page : List EventResponse) :
    Safe sdk stream (EventIndexer.processPage sdk outcome db page) pos := by
  obtain ⟨before, after, hat, hcommitted⟩ := h
  exact ⟨before, after, hat, fun event hevent htype =>
    (hcommitted event hevent htype).processPage outcome page⟩

theorem Safe.noLoss (hstream : WellIdentified stream) {s : PollingState}
    (h : Safe sdk stream s.db s.saved) : NoLoss sdk stream s := by
  obtain ⟨before, after, hat, hcommitted⟩ := h
  exact fun event hpassed htype => hcommitted event ((hat.passed_iff hstream).1 hpassed) htype

/-- A page is what follows the position it is asked for at. -/
theorem Position.At.fetch {pos : Position} {before after : List EventResponse}
    (h : pos.At stream before after) (n : ℕ) :
    ∃ rest, pos.At stream before (fetchPage stream pos n ++ rest) := by
  refine ⟨after.drop (min n batchLimit), ?_⟩
  rw [fetchPage, h.requested_eq, List.take_append_drop]
  exact h

theorem Position.At.sublist {pos : Position} {before rest : List EventResponse}
    (h : pos.At stream before (page ++ rest)) : page.Sublist stream := by
  rw [h.split]
  exact (List.sublist_append_left page rest).trans (List.sublist_append_right before _)

theorem PollingInv.start (hledger : ∀ event ∈ stream, 0 < event.ledger) :
    PollingInv sdk stream .start :=
  ⟨consistent_empty, ⟨[], stream, Position.at_start hledger, by simp⟩, by simp [PollingState.start]⟩

section Batch

variable {s : PollingState} {pos : Position} {available : ℕ}
  {outcome : String → DbCall → Outcome} {save : Outcome}

/-- What a batch does to the invariant. -/
theorem PollingInv.fetchBatch (hstream : WellIdentified stream) (h : PollingInv sdk stream s)
    (hloaded : s.loaded = some pos)
    (hstored : save ≠ .failed → PageStored sdk outcome s.db (fetchPage stream pos available)) :
    PollingInv sdk stream (fetchBatch sdk stream s pos available outcome save) := by
  obtain ⟨before, after, hat, hcommitted⟩ := h.loaded pos hloaded
  obtain ⟨rest, hrest⟩ := hat.fetch available
  have hsub := hrest.sublist
  have hsafe : ∀ pos', Safe sdk stream s.db pos' → Safe sdk stream
      (processPage sdk outcome s.db (fetchPage stream pos available)) pos' :=
    fun _ hpos' => hpos'.processPage outcome _
  rw [EventIndexer.fetchBatch]
  split
  · exact ⟨h.consistent, h.saved, by simp⟩
  · rename_i hpage
    refine ⟨h.consistent.processPage outcome fun e he => hsub.subset he, ?_, fun pos' hpos' => ?_⟩
    · dsimp only
      split_ifs with hsave
      · exact hsafe _ h.saved
      · refine ⟨before ++ fetchPage stream pos available, rest, hrest.advance hstream hpage, ?_⟩
        intro event hevent htype
        rcases List.mem_append.1 hevent with hevent | hevent
        · exact (hcommitted event hevent htype).processPage outcome _
        · exact (committed_page_iff hstream h.consistent hsub).2 (hstored hsave) event hevent htype
    · dsimp only at hpos'
      split_ifs at hpos' with hsave
      obtain rfl := Option.some.inj hpos'
      exact hsafe _ (h.loaded _ hloaded)

/-- A batch that saves its position and loses nothing has stored its page. -/
theorem PollingInv.pageStored (hstream : WellIdentified stream) (h : PollingInv sdk stream s)
    (hloaded : s.loaded = some pos) (hsave : save ≠ .failed)
    (hnext : NoLoss sdk stream (EventIndexer.fetchBatch sdk stream s pos available outcome save)) :
    PageStored sdk outcome s.db (fetchPage stream pos available) := by
  obtain ⟨before, after, hat, hcommitted⟩ := h.loaded pos hloaded
  obtain ⟨rest, hrest⟩ := hat.fetch available
  have hsub := hrest.sublist
  rw [EventIndexer.fetchBatch] at hnext
  split at hnext
  · rename_i hpage
    rw [hpage]
    exact pageStored_nil
  · rename_i hpage
    rw [← committed_page_iff hstream h.consistent hsub]
    intro event hevent htype
    refine hnext event ?_ htype
    dsimp only
    rw [if_neg hsave]
    exact ((hrest.advance hstream hpage).passed_iff hstream).2 (List.mem_append_right _ hevent)

end Batch

theorem PollingInv.pollingStep (hstream : WellIdentified stream) {s : PollingState}
    {input : PollingInput} (h : PollingInv sdk stream s) (hinput : ¬ Loses sdk stream s input) :
    PollingInv sdk stream (EventIndexer.pollingStep sdk stream s input) := by
  cases input with
  | load => exact ⟨h.consistent, h.saved, fun pos hpos => Option.some.inj hpos ▸ h.saved⟩
  | batch available outcome save =>
    rw [EventIndexer.pollingStep]
    split
    · exact h
    · rename_i pos hloaded
      refine h.fetchBatch hstream hloaded fun hsave => ?_
      by_contra hstored
      exact hinput ⟨hsave, pos, hloaded, hstored⟩

theorem Loses.not_noLoss (hstream : WellIdentified stream) {s : PollingState}
    {input : PollingInput} (hinput : Loses sdk stream s input) (h : PollingInv sdk stream s) :
    ¬ NoLoss sdk stream (EventIndexer.pollingStep sdk stream s input) := by
  cases input with
  | load => exact hinput.elim
  | batch available outcome save =>
    obtain ⟨hsave, pos, hloaded, hstored⟩ := hinput
    rw [EventIndexer.pollingStep, hloaded]
    exact fun hnext => hstored (h.pageStored hstream hloaded hsave hnext)

/-- **When no event is lost.** In every state of a run, the rows of all events of stored types that
the saved position is past are there, exactly if no batch of the run saves a position without
storing its page. -/
theorem no_loss_iff (hstream : WellIdentified stream)
    (hledger : ∀ event ∈ stream, 0 < event.ledger) {inputs : List PollingInput} :
    Throughout (pollingStep sdk stream) (NoLoss sdk stream) .start inputs ↔
      Along (pollingStep sdk stream) (fun s input => ¬ Loses sdk stream s input) .start inputs :=
  throughout_iff_along (PollingInv sdk stream) (fun _ h => h.saved.noLoss hstream)
    (fun _ _ h hinput => h.pollingStep hstream hinput)
    (fun _ _ h hnext hinput => hinput.not_noLoss hstream h hnext) (PollingInv.start hledger)

/-- One subscription, read off the RPC. -/
def pollingSample : List EventResponse := [sampleResponse "1" 10 (.subscribe 1 2 9 100)]

theorem wellIdentified_pollingSample : WellIdentified pollingSample where
  nodup := by decide
  ne_empty := by simp [pollingSample, sampleResponse]

/-- The transaction fails that stores an event. -/
def storeFails : String → DbCall → Outcome := fun _ call =>
  if call = .storeEvent then .failed else .acknowledged

/-- An event whose transaction fails is lost. -/
theorem not_noLoss_storeFails :
    ¬ NoLoss sampleTexts pollingSample
      (after (pollingStep sampleTexts pollingSample) .start
        [.load, .batch 1 storeFails .acknowledged]) := by
  intro h
  obtain ⟨e, -, -, houtbox⟩ := h (sampleResponse "1" 10 (.subscribe 1 2 9 100))
    ⟨by simp [pollingSample], by
      have hend : requested pollingSample ⟨some "1", 10⟩ = [] := rfl
      exact hend ▸ List.not_mem_nil⟩
    ⟨.subscribe, by decide, rfl⟩
  cases houtbox

/-- The transaction fails, and so does the saving of the position; the batch is tried again. -/
theorem no_loss_sample :
    Throughout (pollingStep sampleTexts pollingSample) (NoLoss sampleTexts pollingSample) .start
      [.load, .batch 1 storeFails .failed, .batch 1 (fun _ => noFailures) .acknowledged] := by
  refine (no_loss_iff wellIdentified_pollingSample
    (by simp [pollingSample, sampleResponse])).2 ⟨id, fun h => h.1 rfl, ?_, trivial⟩
  rintro ⟨-, pos, hpos, hstored⟩
  obtain rfl : Position.start = pos := Option.some.inj hpos
  refine hstored ⟨fun event hevent _ => .inr ?_, List.pairwise_singleton _ _⟩
  obtain rfl := List.mem_singleton.1 hevent
  exact ⟨_, rfl, rfl, List.not_mem_nil, by decide⟩

end SorobanPay.EventIndexer
