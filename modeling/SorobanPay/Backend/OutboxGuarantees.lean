import SorobanPay.Backend.OutboxRelay

/-!
# What the outbox relay guarantees

A row is published after its caches have been invalidated and its other calls have been made. A
dispatch that fails marks its event failed, and no run dispatches the event again. Only where the
mark has no effect either does the event stay pending, and then every run that gets to it
dispatches it.

## Main definitions

* `PublishedAfterCalls`: what has been called for the events that are published.
* `SettledForGood`: events that are not pending are left alone.
* `FailureRecorded`, `PendingDispatched`: what becomes of a dispatch that fails, and of the events
  that are pending.

## Main results

* `outboxRelay_guarantees`: all of these hold, whatever fails.
* `failed_event_dropped`: an event whose dispatch has failed once is never dispatched again.
-/

set_option autoImplicit false

namespace SorobanPay.OutboxRelay

open Foundation EventIndexer

variable {parse : String → Option Payload} {w w' : World} {id : ℕ} {row : OutboxEventRecord}

/-- The caches of every published event have been invalidated, and its other calls made. -/
def PublishedAfterCalls (parse : String → Option Payload) (w : World) : Prop :=
  ∀ id row, w.outboxEvent.get id = some row → row.status = .published →
    ∃ p, parse row.payload = some p ∧
      (∀ effect ∈ cacheInvalidations p, ⟨id, effect, true⟩ ∈ w.called) ∧
      ∀ effect ∈ notifications p, ∃ fulfilled, ⟨id, effect, fulfilled⟩ ∈ w.called

/-- An event that is not pending is neither changed nor dispatched, and no call is made for it. -/
def SettledForGood (w w' : World) : Prop :=
  ∀ id row, w.outboxEvent.get id = some row → row.status ≠ .pending →
    w'.outboxEvent.get id = some row ∧ w'.dispatched.count id = w.dispatched.count id ∧
      w'.called.filter (fun call => call.event = id) = w.called.filter fun call => call.event = id

/-- A run whose dispatch of an event fails marks it failed. Where that call has no effect, and the
one that marks it published had none, the row is as it was. -/
def FailureRecorded (parse : String → Option Payload) (w : World) : Input → Prop
  | .create _ _ => True
  | .run replies =>
    ∀ id row, w.outboxEvent.get id = some row →
      w.dispatched.count id < (next parse w (.run replies)).dispatched.count id →
        DispatchFails parse (replies.dispatch id) row.payload →
          ((replies.dispatch id).markFailed ≠ .failed →
            ∃ row', (next parse w (.run replies)).outboxEvent.get id = some row' ∧
              row'.status = .failed) ∧
          ((replies.dispatch id).markFailed = .failed →
            (CachesInvalidated parse (replies.dispatch id) row.payload →
              (replies.dispatch id).markPublished = .failed) →
              (next parse w (.run replies)).outboxEvent.get id = some row)

/-- A run that reads the table dispatches a pending event once, unless the dispatch of another one
that is no younger throws. -/
def PendingDispatched (parse : String → Option Payload) (w : World) : Input → Prop
  | .create _ _ => True
  | .run replies =>
    replies.findMany = .acknowledged →
      ∀ id row, w.outboxEvent.get id = some row → row.status = .pending →
        (∀ id' row', w.outboxEvent.get id' = some row' → row'.status = .pending → id' ≠ id →
          row'.createdAt ≤ row.createdAt →
            ¬ DispatchThrows parse (replies.dispatch id') row'.payload) →
          (next parse w (.run replies)).dispatched.count id = w.dispatched.count id + 1

/-! ### Steps -/

theorem reached_subset_pending {replies : RunReplies} {entry : ℕ × OutboxEventRecord}
    (h : entry ∈ w.reached parse replies) : entry ∈ w.pending := by
  rw [World.reached] at h
  split_ifs at h
  · exact (reached_sublist _).subset h
  · simp at h

theorem nodup_reached (parse : String → Option Payload) (replies : RunReplies) (w : World) :
    ((w.reached parse replies).map Prod.fst).Nodup := by
  rw [World.reached]
  split_ifs
  · exact (nodup_pending w).sublist ((reached_sublist _).map Prod.fst)
  · exact List.nodup_nil

/-- The ids that are reached are those of pending rows. -/
theorem mem_reached_iff {replies : RunReplies} (hget : w.outboxEvent.get id = some row) :
    id ∈ (w.reached parse replies).map Prod.fst ↔ (id, row) ∈ w.reached parse replies := by
  refine ⟨fun h => ?_, List.mem_map_of_mem⟩
  obtain ⟨⟨id', row'⟩, hentry, rfl⟩ := List.mem_map.1 h
  have hrow := (mem_pending_iff.1 (reached_subset_pending hentry)).1
  rwa [Option.some.inj (hget.symm.trans hrow)]

theorem not_mem_reached (hget : w.outboxEvent.get id = some row) (hrow : row.status ≠ .pending)
    (replies : RunReplies) : id ∉ (w.reached parse replies).map Prod.fst := by
  rw [mem_reached_iff hget]
  exact fun h => hrow (mem_pending_iff.1 (reached_subset_pending h)).2

/-- A row after a run is the row before it, or what a dispatch makes of it. -/
theorem get_run {replies : RunReplies} {row' : OutboxEventRecord}
    (hget : (next parse w (.run replies)).outboxEvent.get id = some row') :
    w.outboxEvent.get id = some row' ∨
      ∃ row, (id, row) ∈ w.reached parse replies ∧ w.outboxEvent.get id = some row ∧
        row.status = .pending ∧ row' = settle parse (replies.dispatch id) row.payload row := by
  have hran := run_processPendingEvents parse replies w
  by_cases hmem : id ∈ (w.reached parse replies).map Prod.fst
  · obtain ⟨⟨id, row⟩, hentry, rfl⟩ := List.mem_map.1 hmem
    obtain ⟨hrow, hpending⟩ := mem_pending_iff.1 (reached_subset_pending hentry)
    refine .inr ⟨row, hentry, hrow, hpending, ?_⟩
    have hsettled := hran.settled _ hentry
    rw [hrow, Option.map_some] at hsettled
    exact Option.some.inj (hget.symm.trans hsettled)
  · exact .inl ((hran.frame id hmem).symm.trans hget)

/-- The keys of the table are below the next one. -/
theorem below_next (h : w.outboxEvent.Below w.nextId) (i : Input) :
    (next parse w i).outboxEvent.Below (next parse w i).nextId := by
  cases i with
  | create payload createdAt => exact h.set _
  | run replies =>
    intro k row' hget
    rw [next, (run_processPendingEvents parse replies w).nextId]
    rcases get_run hget with hget | ⟨row, -, hget, -, -⟩
    · exact h k _ hget
    · exact h k _ hget

theorem caches_of_published {replies : DispatchReplies} {payload : String}
    (hsettled : (settle parse replies payload row).status = .published)
    (hrow : row.status ≠ .published) : CachesInvalidated parse replies payload := by
  by_contra hcaches
  simp only [settle, hcaches, false_and, if_false] at hsettled
  split_ifs at hsettled
  · exact OutboxStatus.noConfusion hsettled
  · exact hrow hsettled

@[simp] theorem payload_settle (replies : DispatchReplies) (payload : String) :
    (settle parse replies payload row).payload = row.payload := by
  simp only [settle]
  split_ifs <;> rfl

/-- Where the caches are invalidated, all calls are made. -/
theorem mem_callsMade (id : ℕ) {replies : DispatchReplies} {payload : String}
    (h : CachesInvalidated parse replies payload) :
    ∃ p, parse payload = some p ∧
      (∀ effect ∈ cacheInvalidations p, ⟨id, effect, true⟩ ∈ callsMade parse replies id payload) ∧
      ∀ effect ∈ notifications p,
        ⟨id, effect, replies.fulfilled effect⟩ ∈ callsMade parse replies id payload := by
  have hcaches := h
  obtain ⟨p, hparse, hall⟩ := h
  have hmade : callsMade parse replies id payload =
      (sideEffects p).map fun effect => ⟨id, effect, replies.fulfilled effect⟩ := by
    rw [callsMade, show parse payload = some p from hparse, Option.elim_some, if_pos hcaches]
  refine ⟨p, hparse, fun effect heffect => ?_, fun effect heffect => ?_⟩ <;>
    rw [hmade, List.mem_map]
  · exact ⟨effect, List.mem_append_left _ heffect, by rw [hall effect heffect]⟩
  · exact ⟨effect, List.mem_append_right _ heffect, rfl⟩

theorem publishedAfterCalls_run (h : PublishedAfterCalls parse w) (replies : RunReplies) :
    PublishedAfterCalls parse (next parse w (.run replies)) := by
  have hcalled := (run_processPendingEvents parse replies w).called
  intro id row' hget hpublished
  rw [next, hcalled]
  rcases get_run hget with hget | ⟨row, hentry, -, hpending, rfl⟩
  · obtain ⟨p, hparse, hcaches, hothers⟩ := h id row' hget hpublished
    refine ⟨p, hparse, fun effect heffect => List.mem_append_left _ (hcaches effect heffect),
      fun effect heffect => ?_⟩
    obtain ⟨fulfilled, hmem⟩ := hothers effect heffect
    exact ⟨fulfilled, List.mem_append_left _ hmem⟩
  · have hcaches := caches_of_published hpublished (by rw [hpending]; decide)
    obtain ⟨p, hparse, hinvalidated, hothers⟩ := mem_callsMade id hcaches
    have hmade : ∀ call ∈ callsMade parse (replies.dispatch id) id row.payload,
        call ∈ w.called ++ (w.reached parse replies).flatMap fun entry =>
          callsMade parse (replies.dispatch entry.1) entry.1 entry.2.payload := fun call hcall =>
      List.mem_append_right _ (List.mem_flatMap.2 ⟨(id, row), hentry, hcall⟩)
    refine ⟨p, by rwa [payload_settle], fun effect heffect => hmade _ (hinvalidated effect heffect),
      fun effect heffect => ⟨_, hmade _ (hothers effect heffect)⟩⟩

theorem publishedAfterCalls_next (h : PublishedAfterCalls parse w) (i : Input) :
    PublishedAfterCalls parse (next parse w i) := by
  cases i with
  | run replies => exact publishedAfterCalls_run h replies
  | create payload createdAt =>
    intro id row hget hpublished
    rw [next, World.create, InsertionMap.get_set] at hget
    split_ifs at hget with hid
    · rw [← Option.some.inj hget] at hpublished
      exact OutboxStatus.noConfusion hpublished
    · exact h id row hget hpublished

theorem event_of_mem_callsMade {replies : DispatchReplies} {payload : String} {call : Called}
    (h : call ∈ callsMade parse replies id payload) : call.event = id := by
  rw [callsMade] at h
  rcases hparse : parse payload with _ | p <;> rw [hparse] at h
  · simp at h
  · obtain ⟨effect, -, rfl⟩ := List.mem_map.1 h
    rfl

theorem settledForGood_next (hbelow : w.outboxEvent.Below w.nextId) (i : Input) :
    SettledForGood w (next parse w i) := by
  intro id row hget hrow
  cases i with
  | create payload createdAt =>
    refine ⟨?_, rfl, rfl⟩
    rw [next, World.create, InsertionMap.get_set, if_neg (hbelow id row hget).ne, hget]
  | run replies =>
    have hran := run_processPendingEvents parse replies w
    have hnot : id ∉ (w.reached parse replies).map Prod.fst := not_mem_reached hget hrow replies
    refine ⟨(hran.frame id hnot).trans hget, ?_, ?_⟩
    · rw [next, hran.dispatched, List.count_append, List.count_eq_zero_of_not_mem hnot,
        Nat.add_zero]
    · have hnone : ((w.reached parse replies).flatMap fun entry => callsMade parse
          (replies.dispatch entry.1) entry.1 entry.2.payload).filter (fun call => call.event = id) =
          [] := by
        rw [List.filter_eq_nil_iff]
        intro call hcall hevent
        obtain ⟨entry, hentry, hcall⟩ := List.mem_flatMap.1 hcall
        have hid : entry.1 = id :=
          (event_of_mem_callsMade hcall).symm.trans (of_decide_eq_true hevent)
        exact hnot (hid ▸ List.mem_map_of_mem hentry)
      rw [next, hran.called, List.filter_append, hnone, List.append_nil]

theorem failureRecorded (w : World) (i : Input) : FailureRecorded parse w i := by
  cases i with
  | create payload createdAt => trivial
  | run replies =>
    intro id row hget hcount hfails
    have hran := run_processPendingEvents parse replies w
    have hentry : (id, row) ∈ w.reached parse replies := by
      rw [← mem_reached_iff hget, ← List.count_pos_iff]
      rw [next, hran.dispatched, List.count_append] at hcount
      exact Nat.pos_of_lt_add_right hcount
    have hsettled := hran.settled _ hentry
    rw [hget, Option.map_some] at hsettled
    refine ⟨fun hmark => ⟨_, hsettled, ?_⟩, fun hmark hpublish => hsettled.trans ?_⟩
    · simp [settle, hfails, hmark, OutboxEventRecord.failed]
    · have hnot : ¬ (CachesInvalidated parse (replies.dispatch id) row.payload ∧
          (replies.dispatch id).markPublished ≠ .failed) := fun h => h.2 (hpublish h.1)
      simp [settle, hmark, hnot]

/-! ### What is reached -/

theorem pairwise_pending (w : World) :
    w.pending.Pairwise fun a b => a.2.createdAt ≤ b.2.createdAt := by
  have : Std.Total fun a b : ℕ × OutboxEventRecord => a.2.createdAt ≤ b.2.createdAt :=
    ⟨fun a b => Nat.le_total _ _⟩
  have : IsTrans (ℕ × OutboxEventRecord) fun a b => a.2.createdAt ≤ b.2.createdAt :=
    ⟨fun a b c => Nat.le_trans⟩
  exact List.pairwise_insertionSort _ _

/-- An entry is reached if no other one that may come before it throws. -/
theorem mem_reached {replies : RunReplies} {entries : List (ℕ × OutboxEventRecord)}
    (hsorted : entries.Pairwise fun a b => a.2.createdAt ≤ b.2.createdAt)
    {entry : ℕ × OutboxEventRecord} (hentry : entry ∈ entries)
    (hthrows : ∀ e ∈ entries, e ≠ entry → e.2.createdAt ≤ entry.2.createdAt →
      ¬ DispatchThrows parse (replies.dispatch e.1) e.2.payload) :
    entry ∈ reached parse replies entries := by
  induction entries with
  | nil => simp at hentry
  | cons e entries ih =>
    obtain ⟨hfirst, hsorted⟩ := List.pairwise_cons.1 hsorted
    rw [reached]
    by_cases heq : e = entry
    · subst heq
      split_ifs <;> exact List.mem_cons_self
    · have hentry := (List.mem_cons.1 hentry).resolve_left (Ne.symm heq)
      have hsafe := hthrows e List.mem_cons_self heq (hfirst entry hentry)
      rw [if_neg hsafe]
      refine List.mem_cons_of_mem _ (ih hsorted hentry fun e' he' => ?_)
      exact hthrows e' (List.mem_cons_of_mem _ he')

theorem pendingDispatched (w : World) (i : Input) : PendingDispatched parse w i := by
  cases i with
  | create payload createdAt => trivial
  | run replies =>
    intro hfind id row hget hrow hthrows
    have hentry : (id, row) ∈ w.reached parse replies := by
      rw [World.reached, if_pos hfind]
      refine mem_reached (pairwise_pending w) (mem_pending_iff.2 ⟨hget, hrow⟩) ?_
      rintro ⟨id', row'⟩ hmem hne hle
      obtain ⟨hget', hrow'⟩ := mem_pending_iff.1 hmem
      refine hthrows id' row' hget' hrow' (fun hid => hne ?_) hle
      subst hid
      rw [Option.some.inj (hget'.symm.trans hget)]
    have hcount := List.count_eq_one_of_mem (nodup_reached parse replies w)
      ((mem_reached_iff hget).2 hentry)
    rw [next, (run_processPendingEvents parse replies w).dispatched, List.count_append, hcount]

/-! ### Runs -/

theorem throughout_publishedAfterCalls (inputs : List Input) :
    Throughout (next parse) (PublishedAfterCalls parse) World.empty inputs := by
  have hempty : PublishedAfterCalls parse World.empty := fun id row hget => by
    simp [World.empty] at hget
  refine (throughout_iff_along (PublishedAfterCalls parse) (fun _ h => h) (P := fun _ _ => True)
    (fun w i h _ => publishedAfterCalls_next h i) (fun _ _ _ _ => trivial) hempty).2 ?_
  exact along_of_forall fun _ _ => trivial

theorem onwards_settledForGood (inputs : List Input) :
    Onwards (next parse) SettledForGood World.empty inputs := by
  have htrans : ∀ w w' w'', SettledForGood w w' → SettledForGood w' w'' → SettledForGood w w'' := by
    intro w w' w'' h h' id row hget hrow
    obtain ⟨hkept, hdispatched, hcalled⟩ := h id row hget hrow
    obtain ⟨hkept', hdispatched', hcalled'⟩ := h' id row hkept hrow
    exact ⟨hkept', hdispatched'.trans hdispatched, hcalled'.trans hcalled⟩
  have hrefl : ∀ w, SettledForGood w w := fun w id row hget _ => ⟨hget, rfl, rfl⟩
  have hempty : World.empty.outboxEvent.Below World.empty.nextId := fun k v hget =>
    (Option.some_ne_none _ hget.symm).elim
  exact onwards_of_along (fun w => w.outboxEvent.Below w.nextId) (P := fun _ _ => True) htrans
    (fun w _ => hrefl w) (fun w i h _ => ⟨below_next h i, settledForGood_next h i⟩) hempty
    (along_of_forall fun _ _ => trivial)

/-- **The guarantees of the relay**, for every sequence of runs and whatever fails. -/
theorem outboxRelay_guarantees (parse : String → Option Payload) (inputs : List Input) :
    Throughout (next parse) (PublishedAfterCalls parse) World.empty inputs ∧
      Onwards (next parse) SettledForGood World.empty inputs ∧
      Along (next parse) (FailureRecorded parse) World.empty inputs ∧
      Along (next parse) (PendingDispatched parse) World.empty inputs :=
  ⟨throughout_publishedAfterCalls inputs, onwards_settledForGood inputs,
    along_of_forall failureRecorded, along_of_forall pendingDispatched⟩

/-- The text of a payload. -/
def samplePayload : String :=
  "\x7b\"eventType\":\"executed\",\"subscriber\":\"GSUB001\",\"merchant\":\"GMER001\"," ++
    "\"token\":\"CTOKEN001\",\"amount\":\"100\",\"ledger\":\"80\"," ++
    "\"txHash\":\"relay-err-001\"\x7d"

/-- What is read of that text. -/
def sampleParse (text : String) : Option Payload :=
  if text = samplePayload then some ⟨"executed", "GSUB001", "GMER001", "CTOKEN001", "100"⟩ else none

/-- A run while the cache is down. -/
def cacheDown : RunReplies where
  findMany := .acknowledged
  dispatch _ := ⟨fun _ => false, .acknowledged, .acknowledged, 0⟩

/-- **An event that is dropped for good.** The cache is down when the event is dispatched first, and
no later run dispatches it again. -/
theorem failed_event_dropped :
    (after (next sampleParse) World.empty [.create samplePayload 0]).dispatched = [] ∧
      (after (next sampleParse) World.empty
        [.create samplePayload 0, .run cacheDown]).dispatched = [1] ∧
      DispatchFails sampleParse (cacheDown.dispatch 1) samplePayload ∧
      ∀ later : List Input,
        (after (next sampleParse) World.empty
          ([.create samplePayload 0, .run cacheDown] ++ later)).dispatched.count 1 = 1 := by
  refine ⟨rfl, by decide, by decide, fun later => ?_⟩
  have hfailed : (after (next sampleParse) World.empty
      [.create samplePayload 0, .run cacheDown]).outboxEvent.get 1 =
      some ⟨samplePayload, .failed, 0, none⟩ := by decide
  have honwards : Onwards (next sampleParse) SettledForGood World.empty
      ([.create samplePayload 0, .run cacheDown] ++ later) := onwards_settledForGood _
  have hkept := honwards _ later [] (List.append_nil _).symm 1 _ hfailed (by decide)
  rw [hkept.2.1]
  decide

end SorobanPay.OutboxRelay
