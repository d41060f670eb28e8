import Mathlib.Data.List.Dedup
import SorobanPay.Backend.WebhookIngestion
import SorobanPay.Foundation.Run

/-!
# The size of the replay cache

A `ReplayCache` answers by what it has stored, and it forgets only when a new ID comes to a cache
that has reached its size. What it forgets then is out of its window. So its answers are right at
any time, and after an ID has been accepted it holds no more than its size or the IDs of the window.
A replay stores and forgets nothing; while there are only replays, the window moves on and the cache
stays as it is.

## Main definitions

* `Mark`, `mark`, `accepted`: calls of `markSeen`, and those that are accepted.
* `idsWithin`: the IDs that have been accepted in the window that ends at a time.

## Main results

* `kept_append`: one call.
* `replayCache_bounded`: the answers and the size in every run.
-/

set_option autoImplicit false

namespace SorobanPay.WebhookIngestion

open Foundation

/-! ### Runs -/

/-- A call of `markSeen`, with the time that it reads, in milliseconds. -/
structure Mark where
  deliveryId : String
  now : ℕ
  deriving DecidableEq

/-- The clock does not go back. -/
abbrev InOrder (marks : List Mark) : Prop := marks.Pairwise fun c d => c.now ≤ d.now

section Runs

variable (size : ℕ)

/-- One call. -/
def mark (cache : ReplayCache) (c : Mark) : ReplayCache :=
  (cache.markSeenWith size c.now c.deliveryId).1

/-- The answer to a call. -/
def answer (cache : ReplayCache) (c : Mark) : Bool :=
  (cache.markSeenWith size c.now c.deliveryId).2

/-- The calls of a run that are accepted. -/
def accepted (marks : List Mark) : List Mark :=
  history (mark size) (fun cache c => if answer size cache c then [c] else []) .empty marks

end Runs

/-- The IDs of the calls whose window has not ended. -/
def idsWithin (marks : List Mark) (now : ℕ) : List String :=
  ((marks.filter fun c => now ≤ windowEnd c.now).map (·.deliveryId)).dedup

/-- The time of the last of these calls. -/
def lastTime (marks : List Mark) : ℕ := (marks.getLast?.map (·.now)).getD 0

/-- What a cache is to be after these calls. -/
structure Remembers (size : ℕ) (marks : List Mark) : Prop where
  seen : ∀ t, (∀ c ∈ marks, c.now ≤ t) → ∀ id,
    (after (mark size) .empty marks).hasSeen t id = true ↔
      ∃ c ∈ accepted size marks, c.deliveryId = id ∧ t ≤ windowEnd c.now
  stored : ∀ id seenAt, (after (mark size) .empty marks).get id = some seenAt →
    ⟨id, seenAt⟩ ∈ accepted size marks
  bounded : (after (mark size) .empty marks).entries.length ≤
    max size (idsWithin (accepted size marks) (lastTime (accepted size marks))).length

variable {size : ℕ} {marks : List Mark} {c : Mark} {cache : ReplayCache}

/-! ### One call -/

theorem answer_eq (cache : ReplayCache) (c : Mark) :
    answer size cache c = !cache.hasSeen c.now c.deliveryId := by
  rw [answer, ReplayCache.markSeenWith]
  cases cache.hasSeen c.now c.deliveryId <;> rfl

/-- What is in its window has been in it before. -/
theorem hasSeen_of_le {now t : ℕ} {id : String} (h : cache.hasSeen t id = true) (hle : now ≤ t) :
    cache.hasSeen now id = true := by
  obtain ⟨seenAt, hget, hwindow⟩ := (Option.any_eq_true ..).1 h
  have hbefore : now ≤ windowEnd seenAt := hle.trans (of_decide_eq_true hwindow)
  exact (Option.any_eq_true ..).2 ⟨seenAt, hget, decide_eq_true hbefore⟩

theorem mark_of_hasSeen (hseen : cache.hasSeen c.now c.deliveryId = true) :
    mark size cache c = cache := by
  rw [mark, ReplayCache.markSeenWith, if_pos hseen]

/-- A new ID is stored, after what is out of its window has been forgotten if need be. -/
theorem mark_of_new (hnew : cache.hasSeen c.now c.deliveryId = false) :
    mark size cache c = InsertionMap.set
      (if size ≤ cache.entries.length then cache.prune c.now else cache) c.deliveryId c.now := by
  rw [mark, ReplayCache.markSeenWith, if_neg (by rw [hnew]; exact Bool.false_ne_true)]

theorem accepted_append (size : ℕ) (marks : List Mark) (c : Mark) :
    accepted size (marks ++ [c]) = accepted size marks ++
      if answer size (after (mark size) .empty marks) c then [c] else [] := by
  rw [accepted, history_append, history_cons, history_nil, List.append_nil]
  rfl

theorem mem_idsWithin {now : ℕ} {id : String} : id ∈ idsWithin marks now ↔
    ∃ d ∈ marks, d.deliveryId = id ∧ now ≤ windowEnd d.now := by
  simp only [idsWithin, List.mem_dedup, List.mem_map, List.mem_filter, decide_eq_true_eq]
  exact exists_congr fun d => by tauto

theorem lastTime_append (marks : List Mark) (c : Mark) : lastTime (marks ++ [c]) = c.now := by
  rw [lastTime, List.getLast?_concat]
  rfl

/-- What is found after a new ID has been stored. -/
theorem get_mark {id : String} {seenAt : ℕ} (hnew : cache.hasSeen c.now c.deliveryId = false)
    (h : (mark size cache c).get id = some seenAt) : id = c.deliveryId ∧ seenAt = c.now ∨
      cache.get id = some seenAt ∧ (size ≤ cache.entries.length → c.now ≤ windowEnd seenAt) := by
  rw [mark_of_new hnew, InsertionMap.get_set] at h
  split_ifs at h with hid hsize
  · exact .inl ⟨hid, (Option.some.inj h).symm⟩
  · rw [ReplayCache.prune, InsertionMap.get_filter, Option.filter_eq_some_iff] at h
    exact .inr ⟨h.1, fun _ => of_decide_eq_true h.2⟩
  · exact .inr ⟨h, fun hle => absurd hle hsize⟩

/-- The size after a new ID has been stored. -/
theorem length_mark_le (h : Remembers size marks)
    (hnew : (after (mark size) .empty marks).hasSeen c.now c.deliveryId = false) :
    (mark size (after (mark size) .empty marks) c).entries.length ≤
      max size (idsWithin (accepted size marks ++ [c]) c.now).length := by
  rcases Nat.lt_or_ge (after (mark size) .empty marks).entries.length size with hlt | hge
  · refine le_max_of_le_left ?_
    rw [mark_of_new hnew, if_neg (not_le.2 hlt)]
    exact (InsertionMap.length_set_le _ _ _).trans hlt
  · -- what is left has been accepted in the window
    refine le_max_of_le_right ?_
    rw [← InsertionMap.length_keys]
    refine (List.subperm_of_subset (InsertionMap.nodup_keys _) fun id hid => ?_).length_le
    obtain ⟨seenAt, hget⟩ := InsertionMap.mem_keys_iff.1 hid
    rw [mem_idsWithin]
    rcases get_mark hnew hget with ⟨rfl, -⟩ | ⟨hbefore, hwindow⟩
    · exact ⟨c, by simp, rfl, Nat.le_add_right _ _⟩
    · exact ⟨⟨id, seenAt⟩, List.mem_append_left _ (h.stored id seenAt hbefore), rfl, hwindow hge⟩

/-- **One call.** -/
theorem Remembers.append (h : Remembers size marks) (c : Mark) : Remembers size (marks ++ [c]) := by
  have hafter : after (mark size) .empty (marks ++ [c]) =
      mark size (after (mark size) .empty marks) c := after_append ..
  have htimes : ∀ {t}, (∀ d ∈ marks ++ [c], d.now ≤ t) → (∀ d ∈ marks, d.now ≤ t) ∧ c.now ≤ t :=
    fun ht => ⟨fun d hd => ht d (List.mem_append_left _ hd), ht c (by simp)⟩
  cases hseen : (after (mark size) .empty marks).hasSeen c.now c.deliveryId with
  | true =>
    have haccepted : accepted size (marks ++ [c]) = accepted size marks := by
      rw [accepted_append, answer_eq, hseen]
      exact List.append_nil _
    refine ⟨fun t ht id => ?_, fun id seenAt => ?_, ?_⟩
    all_goals rw [hafter, mark_of_hasSeen hseen, haccepted]
    · exact h.seen t (htimes ht).1 id
    · exact h.stored id seenAt
    · exact h.bounded
  | false =>
    have haccepted : accepted size (marks ++ [c]) = accepted size marks ++ [c] := by
      rw [accepted_append, answer_eq, hseen]
      rfl
    refine ⟨fun t ht id => ?_, fun id seenAt hget => ?_, ?_⟩
    · rw [hafter, mark, hasSeen_markSeenWith size hseen (htimes ht).2, haccepted]
      simp only [List.mem_append, List.mem_singleton, or_and_right, exists_or, exists_eq_left]
      rw [← h.seen t (htimes ht).1 id]
      split_ifs with hid
      · subst hid
        refine ⟨fun hle => .inr ⟨rfl, hle⟩, fun hseen' => hseen'.elim (fun hbefore => ?_) And.right⟩
        rw [hasSeen_of_le hbefore (htimes ht).2] at hseen
        cases hseen
      · simp [Ne.symm hid]
    · rw [hafter] at hget
      rw [haccepted]
      rcases get_mark hseen hget with ⟨rfl, rfl⟩ | ⟨hbefore, -⟩
      · exact List.mem_append_right _ (List.mem_singleton_self _)
      · exact List.mem_append_left _ (h.stored id seenAt hbefore)
    · rw [hafter, haccepted, lastTime_append]
      exact length_mark_le h hseen

theorem remembers (size : ℕ) (marks : List Mark) : Remembers size marks := by
  induction marks using List.reverseRecOn with
  | nil =>
    refine ⟨fun t _ id => ?_, fun _ _ hget => ?_, Nat.zero_le _⟩
    · exact iff_of_false Bool.false_ne_true fun ⟨_, hc, _⟩ => absurd hc List.not_mem_nil
    · exact absurd hget.symm (Option.some_ne_none _)
  | append_singleton marks c ih => exact ih.append c

theorem mem_of_mem_accepted (h : c ∈ accepted size marks) : c ∈ marks := by
  induction marks using List.reverseRecOn with
  | nil => exact absurd h List.not_mem_nil
  | append_singleton marks d ih =>
    rw [accepted_append, List.mem_append] at h
    refine List.mem_append.2 (h.imp ih fun hd => ?_)
    split_ifs at hd
    · exact hd
    · exact absurd hd List.not_mem_nil

/-- **The replay cache.** At times that do not go back, an ID is taken for a replay exactly if it
has been accepted in the window; and the cache never has more entries than its size and the IDs that
were accepted in the window that ends at the last accepted call, whichever is more. -/
theorem replayCache_bounded (size : ℕ) (marks : List Mark) (c : Mark)
    (hclock : InOrder (marks ++ [c])) :
    (((after (mark size) .empty marks).markSeenWith size c.now c.deliveryId).2 = false ↔
      ∃ d ∈ accepted size marks, d.deliveryId = c.deliveryId ∧
        d.now ≤ c.now ∧ c.now ≤ windowEnd d.now) ∧
      (after (mark size) .empty (marks ++ [c])).entries.length ≤
        max size (idsWithin (accepted size (marks ++ [c]))
          (lastTime (accepted size (marks ++ [c])))).length := by
  have htimes : ∀ d ∈ marks, d.now ≤ c.now := fun d hd =>
    (List.pairwise_append.1 hclock).2.2 d hd c (List.mem_singleton_self _)
  refine ⟨?_, (remembers size (marks ++ [c])).bounded⟩
  change answer size _ c = false ↔ _
  rw [answer_eq, Bool.not_eq_false', (remembers size marks).seen c.now htimes]
  refine exists_congr fun d => and_congr_right fun hd => and_congr_right fun _ => ?_
  exact (and_iff_right (htimes d (mem_of_mem_accepted hd))).symm

/-- Two IDs. -/
def sampleMarks : List Mark := [⟨"a", 0⟩, ⟨"b", 1⟩]

/-- The second of them again, when the window of the first has ended. -/
def sampleLateMark : Mark := ⟨"b", 600001⟩

theorem inOrder_sampleMarks : InOrder (sampleMarks ++ [sampleLateMark]) := by decide

/-- The second ID is taken for a replay, and both are stored. -/
theorem replayCache_bounded_sample :
    ((after (mark 1) .empty sampleMarks).markSeenWith 1 600001 "b").2 = false ∧
      (after (mark 1) .empty (sampleMarks ++ [sampleLateMark])).entries.length ≤
        max 1 (idsWithin (accepted 1 (sampleMarks ++ [sampleLateMark]))
          (lastTime (accepted 1 (sampleMarks ++ [sampleLateMark])))).length := by
  obtain ⟨hanswer, hbounded⟩ := replayCache_bounded 1 sampleMarks sampleLateMark inOrder_sampleMarks
  exact ⟨hanswer.2 ⟨⟨"b", 1⟩, by decide, rfl, by decide, by decide⟩, hbounded⟩

/-- When a replay comes, more entries may be stored than the size and the IDs that were accepted in
the window that ends at this call. -/
theorem not_bounded_sample :
    InOrder (sampleMarks ++ [sampleLateMark]) ∧
      ¬ (after (mark 1) .empty (sampleMarks ++ [sampleLateMark])).entries.length ≤
        max 1
          (idsWithin (accepted 1 (sampleMarks ++ [sampleLateMark])) sampleLateMark.now).length :=
  ⟨inOrder_sampleMarks, by decide⟩

end SorobanPay.WebhookIngestion
