import SorobanPay.Foundation.Interleaving
import SorobanPay.Foundation.Run
import SorobanPay.Foundation.Transaction

/-!
# Events that have been processed

`isDuplicateEvent` and `markEventProcessed` of `indexerStateService.ts`. A process remembers the
events that it has marked, or has found in the table, and asks the table about the others. It
remembers an event before the table does, and the table may fail to; a restart is another process,
which remembers nothing. Calls of many processes overlap.

So the answers of one process may be ahead of the table, but not wrong: no event is called a
duplicate that no call has been made for. And from the moment at which a call has returned, no
process answers otherwise.

## Main definitions

* `EventStore`, `EventCall`, `turn`, `poolStep`: the calls of the processes.
* `Marks`: a call has been made to mark an event.

## Main results

* `AllMarked.step`: what is known of an event comes from a call.
* `processed_events`: the answers are right, and stay so.
-/

set_option autoImplicit false

namespace SorobanPay.ProcessedEvents

open Foundation

variable {EventId : Type} [DecidableEq EventId]

/-- What each process remembers in `_processedEvents`, and the table `ProcessedEvent` with the
ledgers of the events. -/
structure EventStore (EventId : Type) where
  processedEvents : ℕ → EventId → Bool
  rows : EventId → Option ℕ

/-- Nothing is remembered and nothing is stored. -/
def EventStore.empty (EventId : Type) : EventStore EventId := ⟨fun _ _ => false, fun _ => none⟩

/-- `_processedEvents.add`. -/
def EventStore.add (store : EventStore EventId) (process : ℕ) (eventId : EventId) :
    EventStore EventId :=
  { store with
    processedEvents := fun p id => (p == process && id == eventId) || store.processedEvents p id }

/-- The `upsert` of a mark: it updates nothing. -/
def EventStore.upsert (store : EventStore EventId) (eventId : EventId) (ledger : ℕ) :
    EventStore EventId :=
  { store with rows := Function.update store.rows eventId ((store.rows eventId).or (some ledger)) }

inductive EventRequest (EventId : Type)
  | isDuplicateEvent (eventId : EventId)
  | markEventProcessed (eventId : EventId) (ledger : ℕ)
  deriving DecidableEq, Repr

/-- A call waits for the table, has been answered, or has thrown what the table has thrown. -/
inductive Progress
  | waiting
  | answered (duplicate : Bool)
  | done
  | threw
  deriving DecidableEq, Repr

/-- A call in a process. -/
structure EventCall (EventId : Type) where
  process : ℕ
  request : EventRequest EventId
  progress : Progress
  deriving DecidableEq, Repr

/-- What a call does before it waits for the table. -/
def begin (store : EventStore EventId) (process : ℕ) (request : EventRequest EventId) :
    EventStore EventId × EventCall EventId :=
  match request with
  | .isDuplicateEvent eventId =>
    if store.processedEvents process eventId then (store, ⟨process, request, .answered true⟩)
    else (store, ⟨process, request, .waiting⟩)
  | .markEventProcessed eventId _ => (store.add process eventId, ⟨process, request, .waiting⟩)

/-- What the reply of the table makes of a call. -/
def turn (store : EventStore EventId) (call : EventCall EventId) (outcome : Outcome) :
    EventStore EventId × EventCall EventId :=
  match call.progress, call.request with
  | .waiting, .isDuplicateEvent eventId =>
    match outcome with
    | .acknowledged =>
      match store.rows eventId with
      | some _ => (store.add call.process eventId, { call with progress := .answered true })
      | none => (store, { call with progress := .answered false })
    | .failed | .unacknowledged => (store, { call with progress := .threw })
  | .waiting, .markEventProcessed eventId ledger =>
    match outcome with
    | .acknowledged => (store.upsert eventId ledger, { call with progress := .done })
    | .failed => (store, { call with progress := .threw })
    | .unacknowledged => (store.upsert eventId ledger, { call with progress := .threw })
  | _, _ => (store, call)

/-- A call is made, or the table replies to one. -/
inductive EventAct (EventId : Type)
  | call (process : ℕ) (request : EventRequest EventId)
  | turn (i : ℕ) (outcome : Outcome)

abbrev EventPool (EventId : Type) : Type := Pool (EventStore EventId) (EventCall EventId)

def poolStep (p : EventPool EventId) : EventAct EventId → EventPool EventId
  | .call process request =>
    (p.act fun store => (begin store process request).1).start (begin p.shared process request).2
  | .turn i outcome => p.resume turn i outcome

/-! ### The store -/

section Store

variable {store : EventStore EventId} {process p : ℕ} {eventId id : EventId} {ledger : ℕ}

theorem processedEvents_add : (store.add process eventId).processedEvents p id = true ↔
    (p = process ∧ id = eventId) ∨ store.processedEvents p id = true := by
  simp [EventStore.add]

theorem rows_upsert : ((store.upsert eventId ledger).rows id).isSome = true ↔
    id = eventId ∨ (store.rows id).isSome = true := by
  by_cases h : id = eventId <;> simp [EventStore.upsert, h]

/-- A row stays as it is. -/
theorem rows_upsert_of_some {l : ℕ} (h : store.rows id = some l) :
    (store.upsert eventId ledger).rows id = some l := by
  by_cases hid : id = eventId
  · subst hid
    simp [EventStore.upsert, h]
  · simp [EventStore.upsert, hid, h]

/-- What a process remembers, and what is stored, only grows. -/
structure Grows (store store' : EventStore EventId) : Prop where
  remembered : ∀ p id, store.processedEvents p id = true → store'.processedEvents p id = true
  stored : ∀ id l, store.rows id = some l → store'.rows id = some l

omit [DecidableEq EventId] in
theorem Grows.refl (store : EventStore EventId) : Grows store store :=
  ⟨fun _ _ h => h, fun _ _ h => h⟩

omit [DecidableEq EventId] in
theorem Grows.trans {store' store'' : EventStore EventId} (h : Grows store store')
    (h' : Grows store' store'') : Grows store store'' :=
  ⟨fun p id hp => h'.remembered p id (h.remembered p id hp),
    fun id l hl => h'.stored id l (h.stored id l hl)⟩

theorem grows_add : Grows store (store.add process eventId) :=
  ⟨fun _ _ h => processedEvents_add.2 (.inr h), fun _ _ h => h⟩

theorem grows_upsert : Grows store (store.upsert eventId ledger) :=
  ⟨fun _ _ h => h, fun _ _ h => rows_upsert_of_some h⟩

end Store

/-! ### Turns -/

section Turns

variable {store : EventStore EventId} {call : EventCall EventId} {outcome : Outcome}

/-- What a turn does to a call that waits. -/
theorem turn_cases (store : EventStore EventId) (call : EventCall EventId) (outcome : Outcome) :
    turn store call outcome = (store, call) ∨ call.progress = .waiting ∧
      (turn store call outcome = (store, { call with progress := .threw }) ∨
        (∃ id, call.request = .isDuplicateEvent id ∧ ((∃ l, store.rows id = some l ∧
            turn store call outcome =
              (store.add call.process id, { call with progress := .answered true })) ∨
          (store.rows id = none ∧
            turn store call outcome = (store, { call with progress := .answered false })))) ∨
        ∃ id l progress, call.request = .markEventProcessed id l ∧
          turn store call outcome = (store.upsert id l, { call with progress := progress })) := by
  obtain ⟨process, request, progress⟩ := call
  cases progress with
  | waiting =>
    refine .inr ⟨rfl, ?_⟩
    cases request with
    | isDuplicateEvent id =>
      cases outcome with
      | acknowledged =>
        refine .inr (.inl ⟨id, rfl, ?_⟩)
        cases hrow : store.rows id with
        | some l => exact .inl ⟨l, rfl, by simp [turn, hrow]⟩
        | none => exact .inr ⟨rfl, by simp [turn, hrow]⟩
      | failed | unacknowledged => exact .inl rfl
    | markEventProcessed id l =>
      cases outcome with
      | acknowledged | unacknowledged => exact .inr (.inr ⟨id, l, _, rfl, rfl⟩)
      | failed => exact .inl rfl
  | _ => exact .inl rfl

theorem turn_grows : Grows store (turn store call outcome).1 := by
  rcases turn_cases store call outcome with h | ⟨-, h | ⟨id, -, ⟨l, -, h⟩ | ⟨-, h⟩⟩ |
      ⟨id, l, progress, -, h⟩⟩ <;> rw [h]
  · exact .refl store
  · exact .refl store
  · exact grows_add
  · exact .refl store
  · exact grows_upsert

theorem begin_grows {process : ℕ} {request : EventRequest EventId} :
    Grows store (begin store process request).1 := by
  cases request with
  | isDuplicateEvent id =>
    simp only [begin]
    split_ifs <;> exact .refl store
  | markEventProcessed id l => exact grows_add

/-- A call stays the call that it is. -/
theorem turn_same : (turn store call outcome).2.process = call.process ∧
    (turn store call outcome).2.request = call.request := by
  rcases turn_cases store call outcome with h | ⟨-, h | ⟨id, -, ⟨l, -, h⟩ | ⟨-, h⟩⟩ |
      ⟨id, l, progress, -, h⟩⟩ <;> rw [h] <;> exact ⟨rfl, rfl⟩

theorem begin_same {process : ℕ} {request : EventRequest EventId} :
    (begin store process request).2.process = process ∧
      (begin store process request).2.request = request := by
  cases request with
  | isDuplicateEvent id =>
    simp only [begin]
    split_ifs <;> exact ⟨rfl, rfl⟩
  | markEventProcessed id l => exact ⟨rfl, rfl⟩

end Turns

/-! ### Marks -/

/-- A call has been made to mark the event. -/
def Marks (p : EventPool EventId) (id : EventId) : Prop :=
  ∃ (i : ℕ) (call : EventCall EventId) (l : ℕ),
    p.calls[i]? = some call ∧ call.request = .markEventProcessed id l

variable {p : EventPool EventId} {id : EventId}

/-- A call that has been made remains. -/
theorem exists_call_poolStep (act : EventAct EventId) {i : ℕ} {call : EventCall EventId}
    (h : p.calls[i]? = some call) : ∃ call', (poolStep p act).calls[i]? = some call' ∧
      call'.process = call.process ∧ call'.request = call.request := by
  cases act with
  | call process request => exact ⟨call, Pool.getElem?_start_of_some h, rfl, rfl⟩
  | turn j outcome =>
    by_cases hij : j = i
    · subst hij
      exact ⟨_, Pool.getElem?_resume_self h, turn_same⟩
    · exact ⟨call, (Pool.getElem?_resume_of_ne hij).trans h, rfl, rfl⟩

theorem Marks.step (h : Marks p id) (act : EventAct EventId) : Marks (poolStep p act) id := by
  obtain ⟨i, call, l, hcall, hrequest⟩ := h
  obtain ⟨call', hcall', -, hsame⟩ := exists_call_poolStep act hcall
  exact ⟨i, call', l, hcall', hsame.trans hrequest⟩

/-- All that is remembered, stored or answered comes from calls that mark the events. -/
structure AllMarked (p : EventPool EventId) : Prop where
  remembered : ∀ process id, p.shared.processedEvents process id = true → Marks p id
  stored : ∀ id, (p.shared.rows id).isSome = true → Marks p id
  answered : ∀ (i : ℕ) (call : EventCall EventId) id, p.calls[i]? = some call →
    call.request = .isDuplicateEvent id → call.progress = .answered true → Marks p id

omit [DecidableEq EventId] in
theorem allMarked_empty : AllMarked (.idle (.empty EventId)) :=
  ⟨fun _ _ h => by simp [Pool.idle, EventStore.empty] at h,
    fun _ h => by simp [Pool.idle, EventStore.empty] at h,
    fun _ _ _ h => by simp [Pool.idle] at h⟩

/-- **What is known of an event comes from a call**: a step keeps it so. -/
theorem AllMarked.step (h : AllMarked p) (act : EventAct EventId) : AllMarked (poolStep p act) := by
  have hkeep : ∀ id, Marks p id → Marks (poolStep p act) id := fun _ hm => hm.step act
  cases act with
  | call process request =>
    cases request with
    | isDuplicateEvent id =>
      have hshared : (begin p.shared process (.isDuplicateEvent id)).1 = p.shared := by
        simp only [begin]
        split_ifs <;> rfl
      refine ⟨fun p' id' hp => hkeep _ (h.remembered p' id' (hshared ▸ hp)),
        fun id' hp => hkeep _ (h.stored id' (hshared ▸ hp)), fun i call id' hcall hreq hans => ?_⟩
      rcases Pool.getElem?_start hcall with hcall | ⟨-, rfl⟩
      · exact hkeep _ (h.answered i call id' hcall hreq hans)
      · simp only [begin] at hreq hans
        split_ifs at hreq hans with hseen
        · obtain rfl := EventRequest.isDuplicateEvent.inj hreq
          exact hkeep _ (h.remembered process _ hseen)
    | markEventProcessed id l =>
      have hnew : Marks (poolStep p (.call process (.markEventProcessed id l))) id :=
        ⟨p.calls.length, _, l, List.getElem?_concat_length, rfl⟩
      refine ⟨fun p' id' hp => ?_, fun id' hp => hkeep _ (h.stored id' hp),
        fun i call id' hcall hreq hans => ?_⟩
      · rcases processedEvents_add.1 hp with ⟨-, rfl⟩ | hp
        · exact hnew
        · exact hkeep _ (h.remembered p' id' hp)
      · rcases Pool.getElem?_start hcall with hcall | ⟨-, rfl⟩
        · exact hkeep _ (h.answered i call id' hcall hreq hans)
        · cases hreq
  | turn i outcome =>
    cases hcall : p.calls[i]? with
    | none =>
      rw [poolStep, Pool.resume_of_none hcall]
      exact h
    | some call =>
      have hshared : (poolStep p (.turn i outcome)).shared = (turn p.shared call outcome).1 := by
        rw [poolStep, Pool.resume_of_some hcall]
      have hself : (poolStep p (.turn i outcome)).calls[i]? = some (turn p.shared call outcome).2 :=
        Pool.getElem?_resume_self hcall
      have hothers : ∀ (j : ℕ) (call' : EventCall EventId) id', j ≠ i →
          (poolStep p (.turn i outcome)).calls[j]? = some call' →
            call'.request = .isDuplicateEvent id' →
            call'.progress = .answered true → Marks p id' := fun j call' id' hji hj =>
        h.answered j call' id' ((Pool.getElem?_resume_of_ne (Ne.symm hji)).symm.trans hj)
      have hturn : (∀ p' id', (turn p.shared call outcome).1.processedEvents p' id' = true →
            Marks p id') ∧
          (∀ id', ((turn p.shared call outcome).1.rows id').isSome = true → Marks p id') ∧
          (∀ id', call.request = .isDuplicateEvent id' →
            (turn p.shared call outcome).2.progress = .answered true → Marks p id') := by
        rcases turn_cases p.shared call outcome with heq | ⟨-, heq |
            ⟨id, hreq, ⟨l, hrow, heq⟩ | ⟨-, heq⟩⟩ | ⟨id, l, progress, hreq, heq⟩⟩ <;>
          rw [heq]
        · exact ⟨h.remembered, h.stored, fun id' hr ha => h.answered i call id' hcall hr ha⟩
        · exact ⟨h.remembered, h.stored, fun id' _ ha => by cases ha⟩
        · have hmarks := h.stored id (Option.isSome_of_eq_some hrow)
          refine ⟨fun p' id' hp => ?_, h.stored, fun id' hr _ => ?_⟩
          · rcases processedEvents_add.1 hp with ⟨-, rfl⟩ | hp
            · exact hmarks
            · exact h.remembered p' id' hp
          · obtain rfl := EventRequest.isDuplicateEvent.inj (hreq.symm.trans hr)
            exact hmarks
        · exact ⟨h.remembered, h.stored, fun id' _ ha => by cases ha⟩
        · refine ⟨h.remembered, fun id' hp => ?_, fun id' hr _ => ?_⟩
          · rcases rows_upsert.1 hp with rfl | hp
            · exact ⟨i, call, l, hcall, hreq⟩
            · exact h.stored id' hp
          · rw [hreq] at hr
            cases hr
      refine ⟨fun p' id' hp => hkeep _ (hturn.1 p' id' (hshared ▸ hp)),
        fun id' hp => hkeep _ (hturn.2.1 id' (hshared ▸ hp)), fun j call' id' hj hreq hans => ?_⟩
      by_cases hji : j = i
      · subst hji
        obtain rfl := Option.some.inj (hself.symm.trans hj)
        exact hkeep _ (hturn.2.2 id' (turn_same.2.symm.trans hreq) hans)
      · exact hkeep _ (hothers j call' id' hji hj hreq hans)

/-! ### Later calls -/

theorem poolStep_grows (act : EventAct EventId) : Grows p.shared (poolStep p act).shared := by
  cases act with
  | call process request => exact begin_grows
  | turn i outcome =>
    rw [poolStep, Pool.shared_resume]
    cases p.calls[i]? with
    | none => exact .refl p.shared
    | some call => exact turn_grows

/-- What the calls that mark events have left: the process remembers the event, and the table has it
once the call has returned. -/
def Kept (store : EventStore EventId) (call : EventCall EventId) : Prop :=
  ∀ id l, call.request = .markEventProcessed id l →
    store.processedEvents call.process id = true ∧
      (call.progress = .done → (store.rows id).isSome = true)

omit [DecidableEq EventId] in
theorem Kept.mono {store store' : EventStore EventId} {call : EventCall EventId}
    (h : Kept store call) (hgrows : Grows store store') : Kept store' call := by
  intro id l hrequest
  obtain ⟨hseen, hdone⟩ := h id l hrequest
  refine ⟨hgrows.remembered _ _ hseen, fun hprogress => ?_⟩
  obtain ⟨l', hl'⟩ := Option.isSome_iff_exists.1 (hdone hprogress)
  exact Option.isSome_of_eq_some (hgrows.stored id l' hl')

theorem Kept.turn {store : EventStore EventId} {call : EventCall EventId} {outcome : Outcome}
    (h : Kept store call) :
    Kept (turn store call outcome).1 (ProcessedEvents.turn store call outcome).2 := by
  rcases turn_cases store call outcome with heq | ⟨-, heq | ⟨id, hreq, ⟨l, -, heq⟩ | ⟨-, heq⟩⟩ |
      ⟨id, l, progress, hreq, heq⟩⟩ <;> rw [heq]
  · exact h
  · exact fun id' l' hr => ⟨(h id' l' hr).1, fun hp => by cases hp⟩
  · exact fun id' l' hr => by cases hreq.symm.trans hr
  · exact fun id' l' hr => by cases hreq.symm.trans hr
  · intro id' l' hr
    obtain ⟨rfl, rfl⟩ := EventRequest.markEventProcessed.inj (hreq.symm.trans hr)
    exact ⟨(h _ _ hr).1, fun _ => rows_upsert.2 (.inl rfl)⟩

theorem kept_begin {store : EventStore EventId} {process : ℕ} {request : EventRequest EventId} :
    Kept (begin store process request).1 (begin store process request).2 := by
  intro id l hreq
  obtain rfl := begin_same.2.symm.trans hreq
  exact ⟨processedEvents_add.2 (.inl ⟨rfl, rfl⟩), fun hp => by cases hp⟩

theorem kept_step (h : p.Since 0 Kept) (act : EventAct EventId) :
    (poolStep p act).Since 0 Kept := by
  cases act with
  | call process request =>
    refine Pool.Since.start (fun i call hi hcall => ?_) kept_begin
    exact (h i call hi hcall).mono begin_grows
  | turn i outcome =>
    exact Pool.Since.resume h (fun _ _ hcall => hcall.turn) fun _ _ _ hcall => hcall.mono turn_grows

/-- Calls that ask for an event which the table has are not told that it is new, and in a process
that remembers it they are told that it is not at once. -/
def Told (id : EventId) (process : ℕ) (stored : Bool) (call : EventCall EventId) : Prop :=
  call.request = .isDuplicateEvent id →
    (stored = true → call.progress ≠ .answered false) ∧
      (call.process = process → call.progress = .answered true)

variable {process n : ℕ} {stored : Bool}

/-- **Later calls.** An event is remembered by a process, and stored by the table, before they are
made. -/
theorem told_step (hseen : p.shared.processedEvents process id = true)
    (hstored : stored = true → (p.shared.rows id).isSome = true)
    (h : p.Since n fun _ => Told id process stored) (act : EventAct EventId) :
    (poolStep p act).Since n fun _ => Told id process stored := by
  cases act with
  | call process' request =>
    refine Pool.Since.start (fun i call hi hcall => h i call hi hcall) fun hreq => ?_
    obtain rfl := begin_same.2.symm.trans hreq
    simp only [begin]
    split_ifs with hs
    · exact ⟨fun _ => by simp, fun _ => rfl⟩
    · refine ⟨fun _ => by simp, fun hp => absurd hseen ?_⟩
      obtain rfl : process' = process := hp
      exact hs
  | turn i outcome =>
    intro j call hj hcall hreq
    rcases hc : p.calls[i]? with _ | call'
    · rw [poolStep, Pool.resume_of_none hc] at hcall
      exact h j call hj hcall hreq
    by_cases hij : i = j
    · subst hij
      rw [poolStep, Pool.getElem?_resume_self hc] at hcall
      obtain rfl := Option.some.inj hcall
      have hsame := turn_same.2.symm.trans hreq
      have htold := h i call' hj hc hsame
      rcases turn_cases p.shared call' outcome with heq | ⟨hwaits, hturn⟩
      · rw [heq]
        exact htold
      -- a call that waits is in another process
      have hother : call'.process ≠ process := fun hp => by
        have hanswered := htold.2 hp
        rw [hwaits] at hanswered
        cases hanswered
      rw [turn_same.1]
      refine ⟨fun hs => ?_, fun hp => absurd hp hother⟩
      rcases hturn with heq | ⟨id', hreq', ⟨l, -, heq⟩ | ⟨hrow, heq⟩⟩ |
        ⟨id', l, progress, hreq', heq⟩
      · simp [heq]
      · simp [heq]
      · obtain rfl := EventRequest.isDuplicateEvent.inj (hreq'.symm.trans hsame)
        have hsome := hstored hs
        rw [hrow] at hsome
        cases hsome
      · cases hsame.symm.trans hreq'
    · rw [poolStep, Pool.getElem?_resume_of_ne hij] at hcall
      exact h j call hj hcall hreq

/-- **Duplicates.** Let calls be made in any processes and in any order, and let the table reply to
them or fail. An event that is called a duplicate has been marked, or is being marked, by some call.
A ledger that is stored stays. And after any of these calls: if it has returned, nobody who asks
from then on is told that the event is new, and in its own process they are told that it is not,
also if the table has failed. -/
theorem processed_events (acts acts' : List (EventAct EventId)) :
    let p := after poolStep (.idle (.empty EventId)) acts
    let q := after poolStep p acts'
    (∀ (i : ℕ) (call : EventCall EventId) id, q.calls[i]? = some call →
      call.request = .isDuplicateEvent id → call.progress = .answered true → Marks q id) ∧
    (∀ id l, p.shared.rows id = some l → q.shared.rows id = some l) ∧
    ∀ (j : ℕ) (mark : EventCall EventId) id l, p.calls[j]? = some mark →
      mark.request = .markEventProcessed id l →
        ∀ (i : ℕ) (call : EventCall EventId), p.calls.length ≤ i → q.calls[i]? = some call →
          call.request = .isDuplicateEvent id →
            (mark.progress = .done → call.progress ≠ .answered false) ∧
              (call.process = mark.process → call.progress = .answered true) := by
  intro p q
  have hmarked : AllMarked q :=
    after_invariant (fun _ act h => h.step act)
      (after_invariant (fun _ act h => h.step act) allMarked_empty acts) acts'
  have hgrows : Grows p.shared q.shared :=
    @after_invariant _ _ poolStep (fun r => Grows p.shared r.shared)
      (fun _ act h => h.trans (poolStep_grows act)) p (.refl _) acts'
  refine ⟨hmarked.answered, hgrows.stored, fun j mark id l hmark hreq i call hi hcall hask => ?_⟩
  have hkept : p.Since 0 Kept :=
    @after_invariant _ _ poolStep (fun r => r.Since 0 Kept) (fun _ act h => kept_step h act) _
      (fun _ _ _ h => by simp [Pool.idle] at h) acts
  obtain ⟨hseen, hdone⟩ := hkept j mark (Nat.zero_le j) hmark id l hreq
  have htold := @after_invariant _ _ poolStep
    (fun r => Grows p.shared r.shared ∧
      r.Since p.calls.length fun _ => Told id mark.process (decide (mark.progress = .done)))
    (fun r act h => ⟨h.1.trans (poolStep_grows act), told_step (h.1.remembered _ _ hseen)
      (fun hs => ?_) h.2 act⟩) p ⟨.refl _, Pool.since_length⟩ acts'
  · have hcall := htold.2 i call hi hcall hask
    simpa using hcall
  · obtain ⟨l', hl'⟩ := Option.isSome_iff_exists.1 (hdone (of_decide_eq_true hs))
    exact Option.isSome_of_eq_some (h.1.stored id l' hl')

end SorobanPay.ProcessedEvents
