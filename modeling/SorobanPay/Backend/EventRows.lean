import Mathlib.Data.List.Sort
import SorobanPay.Backend.EventReplay
import SorobanPay.Tokens.Ledger

/-!
# The rows of the event indexer against its stream

The event indexer takes an event for a duplicate if the table `Event` has a row with its content,
whatever the identifiers of the two events. The rows are later read oldest first and replayed
(`fetchChainEventsFromDB` of `services/reconciler.ts`).

`keepsEvery_iff` says when this keeps every event: when no two events of the stream that are stored
have the same content. And the replay comes to the right states only if it can do without the
events of the types that are not stored.

## Main definitions

* `pairHistory`, `rowHistory`: what a stream, and what the rows tell of a pair.
* `KeepsEvery`: there is one row for each event of a stored type, and the rows tell the states.
* `EndsActive`: the histories whose end can be told by the stored events.

## Main results

* `enumerates_events`: the rows that are there after a stream.
* `keepsEvery_iff`: when every event is kept.
-/

set_option autoImplicit false

namespace SorobanPay.EventIndexer

open Foundation

/-! ### Histories -/

/-- The event of the state machine that an event of a supported type is for a pair. -/
def pairEvent (sdk : SdkTexts) (s m : String) (event : EventResponse) :
    Option SubscriptionEventType := do
  let fields ← decodeFields sdk event
  let subscriber ← present fields.subscriber
  let merchant ← present fields.merchant
  if s = subscriber ∧ m = merchant then some (stateMachineEvent fields.eventType) else none

/-- What a stream tells of a pair. -/
def pairHistory (sdk : SdkTexts) (s m : String) (stream : List EventResponse) :
    List SubscriptionEventType := stream.filterMap (pairEvent sdk s m)

/-- The rows of `Event` as they are read for a replay, oldest first. -/
def fetchRows (db : Db) : List EventRow :=
  db.events.insertionSort fun a b => a.ledgerTimestamp ≤ b.ledgerTimestamp

/-- The event of the state machine that a row is for a pair. -/
def EventRow.eventFor (s m : String) (row : EventRow) : Option SubscriptionEventType :=
  if s = row.subscriber ∧ m = row.merchant then some (stateMachineEvent row.type) else none

/-- What rows tell of a pair. -/
def rowHistory (s m : String) (rows : List EventRow) : List SubscriptionEventType :=
  rows.filterMap (EventRow.eventFor s m)

/-- The rows that the events of a stream are stored as, one for each event of a stored type. -/
def storedRows (sdk : SdkTexts) (stream : List EventResponse) : List EventRow :=
  (stream.filterMap (toStored sdk)).map StoredEvent.row

/-- There is one row for each event of a stored type, and the rows tell the states of all pairs. -/
structure KeepsEvery (sdk : SdkTexts) (stream : List EventResponse) (db : Db) : Prop where
  rows : db.events.Perm (storedRows sdk stream)
  states : ∀ s m, foldStatus (rowHistory s m (fetchRows db)) =
    foldStatus (pairHistory sdk s m stream)

/-- There is no event, or the last one is a subscription, or a payment with no cancellation after
the last subscription before it. -/
def EndsActive (es : List SubscriptionEventType) : Prop :=
  es = [] ∨ ∃ pre e, es = pre ++ [e] ∧ (e = .subscribe ∨
    e = .executed ∧ ¬ Raised SubscriptionEventType.Ends (· = .subscribe) pre)

variable {sdk : SdkTexts} {stream events : List EventResponse} {db : Db} {s m : String}

/-! ### Rows -/

theorem storedRows_cons (event : EventResponse) :
    storedRows sdk (event :: stream) =
      ((toStored sdk event).map StoredEvent.row).toList ++ storedRows sdk stream := by
  rcases hstored : toStored sdk event with _ | e <;> simp [storedRows, hstored]

/-- The rows after a stream, each of them once. -/
theorem enumerates_foldl (sdk : SdkTexts) (stream : List EventResponse) {db : Db}
    {S : Set EventRow} (h : Enumerates db.events S) :
    Enumerates (stream.foldl (processEvent sdk noFailures) db).events
      {row | row ∈ S ∨ row ∈ storedRows sdk stream} := by
  induction stream generalizing db S with
  | nil => simpa [storedRows] using h
  | cons event stream ih =>
    rw [List.foldl_cons, processEvent_noFailures]
    simp only [storedRows_cons, List.mem_append, Option.mem_toList]
    rcases toStored sdk event with _ | e
    · simpa using ih h
    · simp only [Option.map_some, Option.some.injEq, Option.elim_some]
      by_cases hrow : e.row ∈ db.events
      · have hevents : (db.handle e).events = db.events := if_pos hrow
        have hset : {row | row ∈ S ∨ e.row = row ∨ row ∈ storedRows sdk stream} =
            {row | row ∈ S ∨ row ∈ storedRows sdk stream} := by
          ext row
          have hmem : e.row = row → row ∈ S := fun heq => heq ▸ (h.mem_iff _).1 hrow
          simp only [Set.mem_ofPred_eq]
          tauto
        rw [hset]
        exact ih (hevents ▸ h)
      · have hevents : (db.handle e).events = db.events ++ [e.row] := if_neg hrow
        have hset : {row | row ∈ S ∨ e.row = row ∨ row ∈ storedRows sdk stream} =
            {row | row ∈ insert e.row S ∨ row ∈ storedRows sdk stream} := by
          ext row
          simp only [Set.mem_ofPred_eq, Set.mem_insert_iff, eq_comm]
          tauto
        rw [hset]
        refine ih ?_
        rw [hevents]
        exact h.append_singleton_iff.2 fun hmem => hrow ((h.mem_iff _).2 hmem)

/-- **The rows after a stream**: those of its stored events, each of them once. -/
theorem enumerates_events (sdk : SdkTexts) (stream : List EventResponse) :
    Enumerates (stream.foldl (processEvent sdk noFailures) .empty).events
      {row | row ∈ storedRows sdk stream} := by
  have hempty : Enumerates Db.empty.events ∅ := Enumerates.nil
  simpa using enumerates_foldl sdk stream hempty

/-- There is one row for each stored event exactly if no two of them have the same row. -/
theorem perm_storedRows_iff (h : Enumerates db.events {row | row ∈ storedRows sdk stream}) :
    db.events.Perm (storedRows sdk stream) ↔ (storedRows sdk stream).Nodup :=
  ⟨fun hperm => hperm.nodup_iff.1 h.nodup,
    fun hnodup => (List.perm_ext_iff_of_nodup h.nodup hnodup).2 h.mem_iff⟩

/-! ### States -/

theorem kept_of_mem_storedRows {row : EventRow} (h : row ∈ storedRows sdk stream) :
    Kept (stateMachineEvent row.type) := by
  obtain ⟨e, he, rfl⟩ := List.mem_map.1 h
  obtain ⟨event, -, hstored⟩ := List.mem_filterMap.1 he
  exact kept_of_toStored hstored

theorem kept_stateMachineEvent_iff (type : EventType) :
    Kept (stateMachineEvent type) ↔ type ∈ storedEventTypes := by
  cases type <;> decide

/-- What the row of an event tells of a pair is what the event tells, if it is stored. -/
theorem eventFor_row (sdk : SdkTexts) (s m : String) (event : EventResponse) :
    (toStored sdk event).bind (fun e => e.row.eventFor s m) =
      (pairEvent sdk s m event).filter (fun e => Kept e) := by
  unfold toStored pairEvent
  simp only [Option.bind_eq_bind]
  rcases decodeFields sdk event with _ | fields
  · rfl
  simp only [Option.bind_some]
  rcases present fields.subscriber with _ | subscriber
  · rfl
  simp only [Option.bind_some]
  rcases present fields.merchant with _ | merchant
  · rfl
  simp only [Option.bind_some, ← kept_stateMachineEvent_iff]
  by_cases hkept : Kept (stateMachineEvent fields.eventType) <;>
    by_cases hpair : s = subscriber ∧ m = merchant <;>
    simp [hkept, hpair, EventRow.eventFor, StoredEvent.row, Option.filter]

theorem rowHistory_storedRows (sdk : SdkTexts) (s m : String) (stream : List EventResponse) :
    rowHistory s m (storedRows sdk stream) = (pairHistory sdk s m stream).filter Kept := by
  rw [rowHistory, storedRows, List.filterMap_map, List.filterMap_filterMap, pairHistory,
    List.filter_filterMap]
  exact List.filterMap_congr fun event _ => eventFor_row sdk s m event

theorem kept_of_mem_rowHistory {rows : List EventRow} {e : SubscriptionEventType}
    (hrows : ∀ row ∈ rows, Kept (stateMachineEvent row.type)) (h : e ∈ rowHistory s m rows) :
    Kept e := by
  obtain ⟨row, hrow, heq⟩ := List.mem_filterMap.1 h
  unfold EventRow.eventFor at heq
  split_ifs at heq
  exact Option.some.inj heq ▸ hrows row hrow

/-- Rows that are the same up to order and repetition tell the same state. -/
theorem foldStatus_rowHistory {rows rows' : List EventRow} (h : ∀ row, row ∈ rows ↔ row ∈ rows')
    (hkept : ∀ row ∈ rows', Kept (stateMachineEvent row.type)) :
    foldStatus (rowHistory s m rows) = foldStatus (rowHistory s m rows') := by
  have hmem : ∀ e, e ∈ rowHistory s m rows ↔ e ∈ rowHistory s m rows' := fun e => by
    simp only [rowHistory, List.mem_filterMap, h]
  by_cases hnil : rowHistory s m rows' = []
  · have hnil' : rowHistory s m rows = [] :=
      List.eq_nil_iff_forall_not_mem.2 fun e he => by simpa [hnil] using (hmem e).1 he
    rw [hnil, hnil']
  · have hnil' : rowHistory s m rows ≠ [] := by
      obtain ⟨e, he⟩ := List.exists_mem_of_ne_nil _ hnil
      exact List.ne_nil_of_mem ((hmem e).2 he)
    have hkept' : ∀ e ∈ rowHistory s m rows', Kept e := fun e => kept_of_mem_rowHistory hkept
    rw [foldStatus_of_kept hnil hkept',
      foldStatus_of_kept hnil' fun e he => hkept' e ((hmem e).1 he)]

/-- The rows after a stream tell the state of a pair exactly if its history ends with an event that
is stored and makes it active. -/
theorem states_iff (sdk : SdkTexts) (s m : String) (stream : List EventResponse) :
    foldStatus (rowHistory s m
        (fetchRows (stream.foldl (processEvent sdk noFailures) .empty))) =
      foldStatus (pairHistory sdk s m stream) ↔ EndsActive (pairHistory sdk s m stream) := by
  have hmem : ∀ row, row ∈ fetchRows (stream.foldl (processEvent sdk noFailures) .empty) ↔
      row ∈ storedRows sdk stream := fun row => by
    rw [fetchRows, List.mem_insertionSort, (enumerates_events sdk stream).mem_iff,
      Set.mem_ofPred_eq]
  rw [foldStatus_rowHistory hmem fun row => kept_of_mem_storedRows, rowHistory_storedRows,
    foldStatus_filter_kept_iff, EndsActive]

/-- **When every event is kept.** If nothing fails, and a stream is processed to its end, starting
again from any earlier events on the way, then there is one row for each event of a stored type and
the rows tell the states of all pairs exactly if no two events that are stored have the same type,
pair, token, amount and ledger, and every history ends with an event that is stored and makes the
pair active. -/
theorem keepsEvery_iff (sdk : SdkTexts) {stream events : List EventResponse}
    (hdelivered : Redelivery stream events stream.length) :
    KeepsEvery sdk stream (events.foldl (processEvent sdk noFailures) .empty) ↔
      (stream.filterMap (toStored sdk)).Pairwise (fun e e' => e.row ≠ e'.row) ∧
        ∀ s m, EndsActive (pairHistory sdk s m stream) := by
  rw [foldl_processEvent_of_redelivery hdelivered allActive_empty, ← List.pairwise_map,
    ← List.nodup_iff_pairwise_ne]
  constructor
  · rintro ⟨hrows, hstates⟩
    exact ⟨(perm_storedRows_iff (enumerates_events sdk stream)).1 hrows,
      fun s m => (states_iff sdk s m stream).1 (hstates s m)⟩
  · rintro ⟨hrows, hends⟩
    exact ⟨(perm_storedRows_iff (enumerates_events sdk stream)).2 hrows,
      fun s m => (states_iff sdk s m stream).2 (hends s m)⟩

/-- A subscription that is cancelled and made again at once. -/
def sampleRevived : List (Step UInt8 (List UInt8) (External UInt8)) :=
  [sampleStep 1 (.subscribe 1 2 9 100 86400 false none), sampleStep 1 (.cancel 1 2 9),
    sampleStep 1 (.subscribe 1 2 9 100 86400 false none)]

/-- The events of one ledger. -/
def sampleLedgerEvents : List EventResponse :=
  [sampleResponse "1" 10 (.subscribe 1 2 9 100), sampleResponse "2" 10 (.cancel 1 2 1),
    sampleResponse "3" 10 (.subscribe 1 2 9 100)]

/-- **An event that is taken for a duplicate.** The contract publishes two subscriptions that look
the same, and the second one gets no row. -/
theorem not_keepsEvery_revived :
    (after (next sampleHost) sampleStart sampleRevived).events =
        [.subscribe 1 2 9 100, .cancel 1 2 1, .subscribe 1 2 9 100] ∧
      (sampleLedgerEvents.map (·.id)).Nodup ∧
      ¬ KeepsEvery sampleTexts sampleLedgerEvents
        (sampleLedgerEvents.foldl (processEvent sampleTexts noFailures) .empty) := by
  refine ⟨rfl, by decide, fun h => ?_⟩
  have hnodup := (perm_storedRows_iff (enumerates_events sampleTexts sampleLedgerEvents)).1 h.rows
  revert hnodup
  decide +kernel

/-- A stream of which the first event is delivered twice. -/
theorem keepsEvery_sample :
    let stream := [sampleResponse "1" 10 (.subscribe 1 2 9 100),
      sampleResponse "2" 20 (.executed 1 2 9 100 0)]
    KeepsEvery sampleTexts stream
        ([sampleResponse "1" 10 (.subscribe 1 2 9 100),
          sampleResponse "1" 10 (.subscribe 1 2 9 100),
          sampleResponse "2" 20 (.executed 1 2 9 100 0)].foldl
            (processEvent sampleTexts noFailures) .empty) ↔
      (stream.filterMap (toStored sampleTexts)).Pairwise (fun e e' => e.row ≠ e'.row) ∧
        ∀ s m, EndsActive (pairHistory sampleTexts s m stream) := by
  intro stream
  have hfirst : Redelivery stream [sampleResponse "1" 10 (.subscribe 1 2 9 100)] 1 :=
    .deliver .start (Nat.le_refl 0) rfl
  have hagain : Redelivery stream [sampleResponse "1" 10 (.subscribe 1 2 9 100),
      sampleResponse "1" 10 (.subscribe 1 2 9 100)] 1 := .deliver hfirst (Nat.zero_le 1) rfl
  exact keepsEvery_iff sampleTexts (.deliver hagain (Nat.le_refl 1) rfl)

end SorobanPay.EventIndexer
