import Mathlib.Data.List.Sort
import SorobanPay.Backend.EventIndexer
import SorobanPay.Foundation.InsertionMap
import SorobanPay.Foundation.Listing

/-!
# The outbox relay

`OutboxRelay` of `services/eventIndexer.ts` reads the pending rows of the table `OutboxEvent` and
makes the calls that the type of each event asks for. The call that fails is an input of each run;
what has been called is kept beside the table. `cacheDeletePattern` and `publishCacheInvalidation`
are not part of the repository.

## Main definitions

* `SideEffect`, `cacheInvalidations`, `notifications`: the calls that an event asks for.
* `dispatchOutboxEvent`, `processPendingEvents`: the relay.
* `DispatchFails`, `DispatchThrows`: a dispatch goes wrong, and ends the run.

## Main results

* `run_processPendingEvents`: what a run of the relay leaves.
-/

set_option autoImplicit false

namespace SorobanPay.OutboxRelay

open Foundation EventIndexer

/-! ### Rows and calls -/

/-- What the relay reads of a payload. -/
structure Payload where
  eventType : String
  subscriber : String
  merchant : String
  token : String
  amount : String
  deriving DecidableEq, Repr

/-- A row of `OutboxEvent`, with the columns that the relay uses. -/
structure OutboxEventRecord where
  payload : String
  status : OutboxStatus
  createdAt : ℕ
  publishedAt : Option ℕ
  deriving DecidableEq, Repr

/-- The calls that the relay makes, with their arguments. -/
inductive SideEffect
  | deleteMerchantPattern (merchant : String)
  | deleteAnalyticsPattern (merchant : String)
  | deleteSubscriptionPattern (subscriber merchant : String)
  | publishCacheInvalidation (merchant subscriber eventType : String)
  | sendPaymentFailureEmail (subscriber merchant amount token : String)
  | enqueueRetries (subscriber merchant amount token : String)
  | sendCancellationEmail (subscriber merchant : String)
  deriving DecidableEq, Repr

/-- The calls that are made together. -/
def cacheInvalidations (p : Payload) : List SideEffect :=
  [.deleteMerchantPattern p.merchant,
    .deleteAnalyticsPattern p.merchant,
    .deleteSubscriptionPattern p.subscriber p.merchant,
    .publishCacheInvalidation p.merchant p.subscriber p.eventType]

/-- The calls that depend on the type of the event. -/
def notifications (p : Payload) : List SideEffect :=
  (if p.eventType = "payment_transfer_failure" then
    [.sendPaymentFailureEmail p.subscriber p.merchant p.amount p.token,
      .enqueueRetries p.subscriber p.merchant p.amount p.token]
  else []) ++
  if p.eventType = "cancel" then [.sendCancellationEmail p.subscriber p.merchant] else []

/-- All side effects that an event calls for. -/
def sideEffects (p : Payload) : List SideEffect := cacheInvalidations p ++ notifications p

/-- A call that has been made for an event, and whether its promise was fulfilled. -/
structure Called where
  event : ℕ
  effect : SideEffect
  fulfilled : Bool
  deriving DecidableEq, Repr

/-- The table, and what the relay has done so far: the events it has dispatched and the calls it
has made. -/
structure World where
  outboxEvent : InsertionMap ℕ OutboxEventRecord
  nextId : ℕ
  dispatched : List ℕ
  called : List Called

/-- How the calls for one event end, and when. -/
structure DispatchReplies where
  fulfilled : SideEffect → Bool
  markPublished : Outcome
  markFailed : Outcome
  now : ℕ

namespace World

/-- Nothing is stored. -/
def empty : World where
  outboxEvent := InsertionMap.empty
  nextId := 1
  dispatched := []
  called := []

/-- The indexer stores an event. -/
def create (w : World) (payload : String) (createdAt : ℕ) : World :=
  { w with
    outboxEvent := w.outboxEvent.set w.nextId ⟨payload, .pending, createdAt, none⟩
    nextId := w.nextId + 1 }

/-- `updateMany` by the id of a row. -/
def update (w : World) (id : ℕ) (f : OutboxEventRecord → OutboxEventRecord) : World :=
  { w with outboxEvent := w.outboxEvent.modify id f }

/-- A dispatch begins. -/
def dispatch (w : World) (id : ℕ) : World := { w with dispatched := w.dispatched ++ [id] }

/-- Calls are made for an event. -/
def call (w : World) (id : ℕ) (fulfilled : SideEffect → Bool) (effects : List SideEffect) :
    World :=
  { w with called := w.called ++ effects.map fun effect => ⟨id, effect, fulfilled effect⟩ }

/-- The pending rows in the order of their creation. -/
def pending (w : World) : List (ℕ × OutboxEventRecord) :=
  (w.outboxEvent.entries.filter fun entry => entry.2.status = .pending).insertionSort
    fun a b => a.2.createdAt ≤ b.2.createdAt

end World

/-- The row is published. -/
def OutboxEventRecord.published (now : ℕ) (row : OutboxEventRecord) : OutboxEventRecord :=
  { row with
    status := .published
    publishedAt := some now }

/-- The row is marked failed. -/
def OutboxEventRecord.failed (row : OutboxEventRecord) : OutboxEventRecord :=
  { row with status := .failed }

/-! ### The relay -/

section Relay

variable (parse : String → Option Payload)

/-- The block of `_dispatchOutboxEvent` whose errors make the event failed. -/
def deliver (replies : DispatchReplies) (id : ℕ) (p : Payload) : Tx World Unit Unit := do
  -- `Promise.all` starts all its calls, and is rejected if one of them is
  Tx.modify fun w => w.call id replies.fulfilled (cacheInvalidations p)
  Tx.failIf (¬ ∀ effect ∈ cacheInvalidations p, replies.fulfilled effect = true) ()
  -- the errors of these calls are caught one by one
  Tx.modify fun w => w.call id replies.fulfilled (notifications p)
  Tx.tell replies.markPublished fun w => w.update id (.published replies.now)

/-- `_dispatchOutboxEvent`. `parse` reads a payload, if its text is the JSON of one. -/
def dispatchOutboxEvent (replies : DispatchReplies) (id : ℕ) (payload : String) :
    Tx World Unit Unit := do
  Tx.modify fun w => w.dispatch id
  match parse payload with
  | none => Tx.tell replies.markFailed fun w => w.update id .failed
  | some p =>
    (deliver replies id p).orElse (Tx.tell replies.markFailed fun w => w.update id .failed)

/-- How the calls of a run end: the query, and the calls for each event. -/
structure RunReplies where
  findMany : Outcome
  dispatch : ℕ → DispatchReplies

/-- `processPendingEvents`. -/
def processPendingEvents (replies : RunReplies) : Tx World Unit Unit := do
  let pending ← Tx.ask replies.findMany World.pending
  pending.forM fun entry =>
    dispatchOutboxEvent parse (replies.dispatch entry.1) entry.1 entry.2.payload

/-- What happens to the outbox: an event is stored, or the relay runs. -/
inductive Input
  | create (payload : String) (createdAt : ℕ)
  | run (replies : RunReplies)

/-- One input. The error of a run is logged by the loop. -/
def next (w : World) : Input → World
  | .create payload createdAt => w.create payload createdAt
  | .run replies => ((processPendingEvents parse replies).run w).2

end Relay

/-! ### What a dispatch does -/

section Dispatch

variable (parse : String → Option Payload) (replies : DispatchReplies) (event : ℕ)
  (payload : String)

/-- The payload is one, and all the caches of the event are invalidated. -/
def CachesInvalidated : Prop :=
  ∃ p ∈ parse payload, ∀ effect ∈ cacheInvalidations p, replies.fulfilled effect = true

instance : Decidable (CachesInvalidated parse replies payload) :=
  inferInstanceAs (Decidable (∃ p ∈ parse payload, _))

/-- The dispatch comes to one of the calls that mark the event failed. -/
def DispatchFails : Prop :=
  ¬ CachesInvalidated parse replies payload ∨ replies.markPublished ≠ .acknowledged

instance : Decidable (DispatchFails parse replies payload) := inferInstanceAs (Decidable (_ ∨ _))

/-- The call that marks the event failed has no reply either, and the run ends. -/
def DispatchThrows : Prop :=
  DispatchFails parse replies payload ∧ replies.markFailed ≠ .acknowledged

instance : Decidable (DispatchThrows parse replies payload) := inferInstanceAs (Decidable (_ ∧ _))

/-- What the dispatch makes of the row. -/
def settle (row : OutboxEventRecord) : OutboxEventRecord :=
  let row' :=
    if CachesInvalidated parse replies payload ∧ replies.markPublished ≠ .failed then
      row.published replies.now
    else row
  if DispatchFails parse replies payload ∧ replies.markFailed ≠ .failed then row'.failed else row'

/-- The calls that the dispatch makes. -/
def callsMade : List Called :=
  (parse payload).elim [] fun p =>
    (if CachesInvalidated parse replies payload then sideEffects p else cacheInvalidations p).map
      fun effect => ⟨event, effect, replies.fulfilled effect⟩

variable {parse replies event payload}

/-- `w'` is `w` after the dispatch of an event that has made some calls and changed its row. -/
structure Dispatched (event : ℕ) (f : OutboxEventRecord → OutboxEventRecord) (calls : List Called)
    (w w' : World) : Prop where
  nextId : w'.nextId = w.nextId
  dispatched : w'.dispatched = w.dispatched ++ [event]
  called : w'.called = w.called ++ calls
  get : ∀ k, w'.outboxEvent.get k =
    if k = event then (w.outboxEvent.get k).map f else w.outboxEvent.get k

namespace Dispatched

variable {f g : OutboxEventRecord → OutboxEventRecord} {calls : List Called} {w w' : World}

theorem start : Dispatched event (fun row => row) [] w (w.dispatch event) where
  nextId := rfl
  dispatched := rfl
  called := (List.append_nil _).symm
  get k := by
    rw [Option.map_id']
    exact (ite_self _).symm

theorem congr {f' : OutboxEventRecord → OutboxEventRecord} {calls' : List Called}
    (h : Dispatched event f calls w w') (hf : ∀ row, f row = f' row) (hcalls : calls = calls') :
    Dispatched event f' calls' w w' := by
  rw [← funext hf, ← hcalls]
  exact h

theorem call (h : Dispatched event f calls w w') (fulfilled : SideEffect → Bool)
    (effects : List SideEffect) :
    Dispatched event f (calls ++ effects.map fun effect => ⟨event, effect, fulfilled effect⟩) w
      (w'.call event fulfilled effects) where
  nextId := h.nextId
  dispatched := h.dispatched
  called := by rw [World.call, h.called, List.append_assoc]
  get := h.get

theorem update (h : Dispatched event f calls w w') :
    Dispatched event (fun row => g (f row)) calls w (w'.update event g) where
  nextId := h.nextId
  dispatched := h.dispatched
  called := h.called
  get k := by
    rw [World.update, InsertionMap.get_modify, h.get]
    split_ifs
    · exact Option.map_map ..
    · rfl

/-- A call that has an effect exactly if it does not fail. -/
theorem tell (h : Dispatched event f calls w w') (outcome : Outcome) :
    Dispatched event (fun row => if outcome = .failed then f row else g (f row)) calls w
      (if outcome = .failed then w' else w'.update event g) := by
  split_ifs
  · exact h
  · exact h.update

end Dispatched

theorem run_deliver_of_not_caches {p : Payload} (w : World)
    (h : ¬ ∀ effect ∈ cacheInvalidations p, replies.fulfilled effect = true) :
    (deliver replies event p).run w =
      (.error (), w.call event replies.fulfilled (cacheInvalidations p)) := by
  simp only [deliver, Tx.run_bind, Tx.run_modify, Tx.run_failIf, if_pos h]

theorem run_deliver_of_caches {p : Payload} (w : World)
    (h : ∀ effect ∈ cacheInvalidations p, replies.fulfilled effect = true) :
    (deliver replies event p).run w =
      (if replies.markPublished = .acknowledged then .ok () else .error (),
        let w' := (w.call event replies.fulfilled (cacheInvalidations p)).call event
          replies.fulfilled (notifications p)
        if replies.markPublished = .failed then w'
        else w'.update event (.published replies.now)) := by
  simp only [deliver, Tx.run_bind, Tx.run_modify, Tx.run_failIf, not_not.2 h, if_false,
    Tx.run_tell_eq]

/-- What the block leaves whose errors make the event failed. -/
def attempted (parse : String → Option Payload) (replies : DispatchReplies) (event : ℕ)
    (payload : String) (w : World) : World :=
  match parse payload with
  | none => w.dispatch event
  | some p => ((deliver replies event p).run (w.dispatch event)).2

theorem run_dispatchOutboxEvent_eq (w : World) :
    (dispatchOutboxEvent parse replies event payload).run w =
      if DispatchFails parse replies payload then
        (Tx.tell replies.markFailed fun w => w.update event .failed).run
          (attempted parse replies event payload w)
      else (.ok (), attempted parse replies event payload w) := by
  simp only [dispatchOutboxEvent, Tx.run_bind, Tx.run_modify, attempted]
  rcases hparse : parse payload with _ | p
  · have hfails : DispatchFails parse replies payload := .inl (by simp [CachesInvalidated, hparse])
    rw [if_pos hfails]
  · have hiff : CachesInvalidated parse replies payload ↔
        ∀ effect ∈ cacheInvalidations p, replies.fulfilled effect = true := by
      simp [CachesInvalidated, hparse]
    simp only [Tx.run_orElse]
    by_cases hall : ∀ effect ∈ cacheInvalidations p, replies.fulfilled effect = true
    · by_cases hack : replies.markPublished = .acknowledged
      · simp [run_deliver_of_caches _ hall, DispatchFails, hiff.2 hall, hack]
      · simp [run_deliver_of_caches _ hall, DispatchFails, hack]
    · have hfails : DispatchFails parse replies payload := .inl fun h => hall (hiff.1 h)
      rw [run_deliver_of_not_caches _ hall, if_pos hfails]

theorem dispatched_attempted (parse : String → Option Payload) (replies : DispatchReplies)
    (event : ℕ) (payload : String) (w : World) :
    Dispatched event
      (fun row =>
        if CachesInvalidated parse replies payload ∧ replies.markPublished ≠ .failed then
          row.published replies.now
        else row)
      (callsMade parse replies event payload) w (attempted parse replies event payload w) := by
  have hstart : Dispatched event (fun row => row) [] w (w.dispatch event) := .start
  rcases hparse : parse payload with _ | p
  · have hcaches : ¬ CachesInvalidated parse replies payload := by simp [CachesInvalidated, hparse]
    simp only [attempted, hparse]
    exact hstart.congr (fun row => by simp [hcaches]) (by simp [callsMade, hparse])
  · have hiff : CachesInvalidated parse replies payload ↔
        ∀ effect ∈ cacheInvalidations p, replies.fulfilled effect = true := by
      simp [CachesInvalidated, hparse]
    simp only [attempted, hparse]
    have hcalled := hstart.call replies.fulfilled (cacheInvalidations p)
    by_cases hall : ∀ effect ∈ cacheInvalidations p, replies.fulfilled effect = true
    · rw [run_deliver_of_caches _ hall]
      refine ((hcalled.call replies.fulfilled (notifications p)).tell (g := .published replies.now)
        replies.markPublished).congr (fun row => ?_) ?_
      · simp [hiff.2 hall, ite_not]
      · simp [callsMade, hparse, hiff.2 hall, sideEffects]
    · rw [run_deliver_of_not_caches _ hall]
      have hcaches : ¬ CachesInvalidated parse replies payload := fun h => hall (hiff.1 h)
      exact hcalled.congr (fun row => by simp [hcaches]) (by simp [callsMade, hparse, hcaches])

/-- **What a dispatch leaves.** -/
theorem run_dispatchOutboxEvent (parse : String → Option Payload) (replies : DispatchReplies)
    (event : ℕ) (payload : String) (w : World) :
    ∃ w', (dispatchOutboxEvent parse replies event payload).run w =
        (if DispatchThrows parse replies payload then .error () else .ok (), w') ∧
      Dispatched event (settle parse replies payload) (callsMade parse replies event payload)
        w w' := by
  have hattempted := dispatched_attempted parse replies event payload w
  rw [run_dispatchOutboxEvent_eq]
  by_cases hfails : DispatchFails parse replies payload
  · rw [if_pos hfails, Tx.run_tell_eq]
    refine ⟨_, Prod.ext ?_ rfl, (hattempted.tell (g := .failed) replies.markFailed).congr
      (fun row => ?_) rfl⟩
    · simp [DispatchThrows, hfails, ite_not]
    · simp [settle, hfails, ite_not]
  · rw [if_neg hfails]
    refine ⟨_, Prod.ext ?_ rfl, hattempted.congr (fun row => ?_) rfl⟩
    · simp [DispatchThrows, hfails]
    · simp [settle, hfails]

end Dispatch

/-! ### What a run does -/

section Run

variable (parse : String → Option Payload) (replies : RunReplies)

/-- The rows of a list that are dispatched: a dispatch that throws is the last one. -/
def reached : List (ℕ × OutboxEventRecord) → List (ℕ × OutboxEventRecord)
  | [] => []
  | entry :: entries =>
    if DispatchThrows parse (replies.dispatch entry.1) entry.2.payload then [entry]
    else entry :: reached entries

/-- The rows that a run dispatches. -/
def World.reached (w : World) : List (ℕ × OutboxEventRecord) :=
  if replies.findMany = .acknowledged then OutboxRelay.reached parse replies w.pending else []

/-- `w'` is `w` after the dispatches of some rows. -/
structure Ran (entries : List (ℕ × OutboxEventRecord)) (w w' : World) : Prop where
  nextId : w'.nextId = w.nextId
  dispatched : w'.dispatched = w.dispatched ++ entries.map Prod.fst
  called : w'.called = w.called ++
    entries.flatMap fun entry => callsMade parse (replies.dispatch entry.1) entry.1 entry.2.payload
  settled : ∀ entry ∈ entries, w'.outboxEvent.get entry.1 =
    (w.outboxEvent.get entry.1).map (settle parse (replies.dispatch entry.1) entry.2.payload)
  frame : ∀ k, k ∉ entries.map Prod.fst → w'.outboxEvent.get k = w.outboxEvent.get k

variable {parse replies} {entries : List (ℕ × OutboxEventRecord)} {entry : ℕ × OutboxEventRecord}
  {w w' w'' : World}

theorem Ran.nil (w : World) : Ran parse replies [] w w where
  nextId := rfl
  dispatched := (List.append_nil _).symm
  called := (List.append_nil _).symm
  settled := by simp
  frame _ _ := rfl

theorem Ran.cons (hnew : entry.1 ∉ entries.map Prod.fst)
    (hfirst : Dispatched entry.1 (settle parse (replies.dispatch entry.1) entry.2.payload)
      (callsMade parse (replies.dispatch entry.1) entry.1 entry.2.payload) w w')
    (hrest : Ran parse replies entries w' w'') : Ran parse replies (entry :: entries) w w'' where
  nextId := hrest.nextId.trans hfirst.nextId
  dispatched := by
    rw [hrest.dispatched, hfirst.dispatched, List.append_assoc, List.map_cons]
    rfl
  called := by rw [hrest.called, hfirst.called, List.append_assoc, List.flatMap_cons]
  settled e he := by
    rcases List.mem_cons.1 he with rfl | he
    · rw [hrest.frame _ hnew, hfirst.get, if_pos rfl]
    · have hne : e.1 ≠ entry.1 := fun heq => hnew (heq ▸ List.mem_map_of_mem he)
      rw [hrest.settled e he, hfirst.get, if_neg hne]
  frame k hk := by
    rw [List.map_cons, List.mem_cons, not_or] at hk
    rw [hrest.frame k hk.2, hfirst.get, if_neg hk.1]

theorem reached_sublist (entries : List (ℕ × OutboxEventRecord)) :
    (reached parse replies entries).Sublist entries := by
  induction entries with
  | nil => exact List.Sublist.slnil
  | cons entry entries ih =>
    rw [reached]
    split_ifs
    · exact (List.nil_sublist entries).cons_cons entry
    · exact ih.cons_cons entry

theorem ran_forM {entries : List (ℕ × OutboxEventRecord)} (hnodup : (entries.map Prod.fst).Nodup)
    (w : World) :
    Ran parse replies (reached parse replies entries) w
      ((entries.forM fun entry => dispatchOutboxEvent parse (replies.dispatch entry.1) entry.1
        entry.2.payload).run w).2 := by
  induction entries generalizing w with
  | nil => exact Ran.nil w
  | cons entry entries ih =>
    obtain ⟨hnew, hnodup⟩ := List.nodup_cons.1 hnodup
    obtain ⟨w', hrun, hfirst⟩ := run_dispatchOutboxEvent parse (replies.dispatch entry.1) entry.1
      entry.2.payload w
    rw [Tx.run_forM_cons, Tx.run_bind, hrun, reached]
    split_ifs
    · exact Ran.cons (by simp) hfirst (Ran.nil w')
    · refine Ran.cons (fun hmem => hnew ?_) hfirst (ih hnodup w')
      exact ((reached_sublist entries).map Prod.fst).subset hmem

theorem mem_pending_iff {id : ℕ} {row : OutboxEventRecord} :
    (id, row) ∈ w.pending ↔ w.outboxEvent.get id = some row ∧ row.status = .pending := by
  rw [World.pending, List.mem_insertionSort, List.mem_filter, InsertionMap.mem_entries_iff,
    decide_eq_true_iff]

theorem nodup_pending (w : World) : (w.pending.map Prod.fst).Nodup := by
  rw [World.pending, ((List.perm_insertionSort _ _).map Prod.fst).nodup_iff]
  exact w.outboxEvent.nodup.sublist (List.filter_sublist.map Prod.fst)

/-- **What a run leaves.** -/
theorem run_processPendingEvents (parse : String → Option Payload) (replies : RunReplies)
    (w : World) :
    Ran parse replies (w.reached parse replies) w
      ((processPendingEvents parse replies).run w).2 := by
  rw [processPendingEvents, Tx.run_bind, World.reached]
  rcases replies.findMany with _ | _ | _
  · exact ran_forM (nodup_pending w) w
  · exact Ran.nil w
  · exact Ran.nil w

end Run

end SorobanPay.OutboxRelay
