import Mathlib.Logic.Function.Basic
import SorobanPay.Backend.CacheLayers
import SorobanPay.Foundation.Run

/-!
# What the map in memory evicts

The map in memory holds at most `maxEntries` entries. `set` makes room before it looks whether the
key is there, so that a full map loses an entry although no room is needed. The entry that is lost
is the first one in the order of the `Map`, which keeps the place of a key that is set again; it is
the entry that has been there longest, and not always the one whose last `set` is the oldest.

## Main definitions

* `CacheCall`, `Observed`: the calls, with a note of when each key has come and was last set.
* `EvictsRight`: what an eviction is to be.
* `SparesOthers`: the calls that evict right.

## Main results

* `keys_evict`, `keys_set`: the keys after a `set`.
* `evictsRight_iff`: one call.
* `evictions_iff`: when every eviction of a run is right.
-/

set_option autoImplicit false

namespace SorobanPay.Redis

open Foundation

/-! ### Runs -/

/-- The calls, with the time at which they read the clock. -/
inductive CacheCall
  | set (key value : String) (ttlSeconds now : ℕ)
  | get (key : String) (now : ℕ)
  | del (key : String)
  | clear

/-- The map, how often `set` has been called, and two notes for each key: the number of the call of
`set` that has put it into the map, and the number of the last one. -/
structure Observed where
  cache : InMemoryFallbackCache := .empty
  sets : ℕ := 0
  insertedAt : String → ℕ := fun _ => 0
  lastSet : String → ℕ := fun _ => 0

namespace Observed

/-- One call. A key that `set` evicts to make room for itself is put into the map anew. -/
def step (s : Observed) : CacheCall → Observed
  | .set key value ttlSeconds now => {
      cache := s.cache.set key value ttlSeconds now
      sets := s.sets + 1
      insertedAt :=
        if key ∈ s.cache.evict.keys then s.insertedAt
        else Function.update s.insertedAt key (s.sets + 1)
      lastSet := Function.update s.lastSet key (s.sets + 1) }
  | .get key now => { s with cache := (s.cache.get key now).1 }
  | .del key => { s with cache := s.cache.erase key }
  | .clear => { s with cache := .empty }

/-- The map has no room for another key. -/
def Full (s : Observed) : Prop := maxEntries ≤ s.cache.keys.length

/-- A `set` is right if it evicts no other key for one that is there, and for a new key at most one,
only if the map is full, and the one whose last `set` is the oldest. -/
structure EvictsRight (s : Observed) (key : String) (after : InMemoryFallbackCache) : Prop where
  overwrite : key ∈ s.cache.keys → ∀ k ∈ s.cache.keys, k ∈ after.keys
  once : ∀ k ∈ s.cache.keys, ∀ k' ∈ s.cache.keys, k ∉ after.keys → k' ∉ after.keys → k = k'
  full : ∀ k ∈ s.cache.keys, k ∉ after.keys → s.Full
  oldest : ∀ k ∈ s.cache.keys, k ∉ after.keys →
    ∀ k' ∈ s.cache.keys, k' ≠ k → s.lastSet k < s.lastSet k'

/-- The map stays within its bound, and what a `set` evicts is right. -/
def Kept (s : Observed) (call : CacheCall) : Prop :=
  (s.step call).cache.entries.length ≤ maxEntries ∧
    match call with
    | .set key _ _ _ => s.EvictsRight key (s.step call).cache
    | .get .. | .del _ | .clear => True

/-- The key has been in the map longer than every other one. -/
def Longest (s : Observed) (first : String) : Prop :=
  first ∈ s.cache.keys ∧ ∀ k ∈ s.cache.keys, s.insertedAt first ≤ s.insertedAt k

/-- The map has room, or the key is the one that has been there longest, or it is new and the one
that has been there longest has not been set since another one was. -/
def SparesOthers (s : Observed) : CacheCall → Prop
  | .set key _ _ _ => s.Full → ∃ first, s.Longest first ∧
      if key ∈ s.cache.keys then key = first
      else ∀ k ∈ s.cache.keys, k ≠ first → s.lastSet first < s.lastSet k
  | .get .. | .del _ | .clear => True

end Observed

/-! ### The keys after a call -/

section Keys

variable {m : InMemoryFallbackCache} {key value : String} {ttlSeconds now : ℕ}

/-- A full map loses its first key. -/
theorem keys_evict :
    m.evict.keys = if maxEntries ≤ m.keys.length then m.keys.tail else m.keys := by
  rw [InMemoryFallbackCache.evict, InsertionMap.length_keys]
  split_ifs with hfull
  · cases hentries : m.entries with
    | nil => rw [List.head?_nil, Option.elim_none, InsertionMap.keys, hentries]; rfl
    | cons entry rest =>
      have hkeys : m.keys = entry.1 :: rest.map Prod.fst := by
        rw [InsertionMap.keys, hentries]
        rfl
      have hother : ∀ k ∈ rest.map Prod.fst, decide (k ≠ entry.1) = true := by
        have hnodup := m.nodup_keys
        rw [hkeys, List.nodup_cons] at hnodup
        exact fun k hk => decide_eq_true fun heq => hnodup.1 (heq ▸ hk)
      rw [List.head?_cons, Option.elim_some, InsertionMap.keys_erase, hkeys, List.tail_cons,
        List.filter_cons_of_neg (by simp)]
      exact List.filter_eq_self.2 hother
  · rfl

theorem sublist_keys_evict : m.evict.keys.Sublist m.keys := by
  rw [keys_evict]
  split_ifs
  · exact List.tail_sublist _
  · exact List.Sublist.refl _

/-- The keys after a `set`. -/
theorem keys_set : (m.set key value ttlSeconds now).keys =
    if key ∈ m.evict.keys then m.evict.keys else m.evict.keys ++ [key] :=
  InsertionMap.keys_set

theorem mem_keys_set {k : String} :
    k ∈ (m.set key value ttlSeconds now).keys ↔ k ∈ m.evict.keys ∨ k = key := by
  rw [keys_set]
  split_ifs with hkey
  · refine ⟨.inl, fun hk => hk.elim id fun heq => heq ▸ hkey⟩
  · rw [List.mem_append, List.mem_singleton]

theorem sublist_keys_get : (m.get key now).1.keys.Sublist m.keys := by
  rw [InMemoryFallbackCache.get]
  split
  · exact List.Sublist.refl _
  · split_ifs
    · rw [InsertionMap.keys_erase]
      exact List.filter_sublist
    · exact List.Sublist.refl _

end Keys

namespace Observed

variable {s : Observed} {key value : String} {ttlSeconds now : ℕ} {call : CacheCall}

/-! ### The invariant -/

/-- The map stays within its bound, and its keys are in the order in which they have come. -/
structure Aged (s : Observed) : Prop where
  size : s.cache.keys.length ≤ maxEntries
  order : s.cache.keys.Pairwise fun a b => s.insertedAt a < s.insertedAt b
  le : ∀ k ∈ s.cache.keys, s.insertedAt k ≤ s.sets

theorem aged_start : Aged {} := ⟨Nat.zero_le _, .nil, fun _ hk => absurd hk List.not_mem_nil⟩

/-- Keys may go. -/
theorem Aged.of_sublist (h : Aged s) {cache : InMemoryFallbackCache}
    (hsub : cache.keys.Sublist s.cache.keys) : Aged { s with cache } :=
  ⟨hsub.length_le.trans h.size, h.order.sublist hsub, fun k hk => h.le k (hsub.subset hk)⟩

/-- After an eviction there is room. -/
theorem length_keys_evict_lt (h : Aged s) : s.cache.evict.keys.length < maxEntries := by
  have hpos : 0 < maxEntries := by decide
  have hsize := h.size
  rw [keys_evict]
  split_ifs
  · rw [List.length_tail]
    omega
  · omega

theorem aged_set (h : Aged s) : Aged (s.step (.set key value ttlSeconds now)) := by
  have hevict : Aged { s with cache := s.cache.evict } := h.of_sublist sublist_keys_evict
  have hlt := length_keys_evict_lt h
  by_cases hkey : key ∈ s.cache.evict.keys
  · have hkeys : (s.step (.set key value ttlSeconds now)).cache.keys = s.cache.evict.keys :=
      keys_set.trans (if_pos hkey)
    have hinserted : (s.step (.set key value ttlSeconds now)).insertedAt = s.insertedAt :=
      if_pos hkey
    refine ⟨by rw [hkeys]; exact hlt.le, by rw [hkeys, hinserted]; exact hevict.order, ?_⟩
    rw [hkeys, hinserted]
    exact fun k hk => Nat.le_succ_of_le (hevict.le k hk)
  · have hkeys : (s.step (.set key value ttlSeconds now)).cache.keys =
        s.cache.evict.keys ++ [key] := keys_set.trans (if_neg hkey)
    have hinserted : (s.step (.set key value ttlSeconds now)).insertedAt =
        Function.update s.insertedAt key (s.sets + 1) := if_neg hkey
    -- the new key comes last, and the notes of the others stay
    have hself : Function.update s.insertedAt key (s.sets + 1) key = s.sets + 1 :=
      Function.update_self ..
    have hother : ∀ k ∈ s.cache.evict.keys,
        Function.update s.insertedAt key (s.sets + 1) k = s.insertedAt k := by
      intro k hk
      have hne : k ≠ key := fun heq => hkey (heq ▸ hk)
      exact Function.update_of_ne hne _ _
    refine ⟨?_, ?_, fun k hk => ?_⟩
    · rw [hkeys, List.length_append]
      exact hlt
    · rw [hkeys, hinserted, List.pairwise_append]
      refine ⟨hevict.order.imp_of_mem fun {a b} ha hb hab => ?_, List.pairwise_singleton _ _,
        fun a ha b hb => ?_⟩
      · rw [hother a ha, hother b hb]
        exact hab
      · rw [List.mem_singleton.1 hb, hother a ha, hself]
        exact Nat.lt_succ_of_le (hevict.le a ha)
    · rw [hkeys, List.mem_append, List.mem_singleton] at hk
      rw [hinserted]
      rcases hk with hk | rfl
      · rw [hother k hk]
        exact Nat.le_succ_of_le (hevict.le k hk)
      · exact hself.le

theorem aged_step (h : Aged s) (call : CacheCall) : Aged (s.step call) := by
  cases call with
  | set key value ttlSeconds now => exact aged_set h
  | get key now => exact h.of_sublist sublist_keys_get
  | del key =>
    refine h.of_sublist ?_
    rw [InsertionMap.keys_erase]
    exact List.filter_sublist
  | clear => exact h.of_sublist (List.nil_sublist _)

/-! ### What is evicted -/

/-- What a `set` evicts is the first key of a full map, unless it is the key itself. -/
theorem not_mem_keys_set_iff {k : String} (hk : k ∈ s.cache.keys) :
    k ∉ (s.cache.set key value ttlSeconds now).keys ↔
      s.Full ∧ s.cache.keys.head? = some k ∧ k ≠ key := by
  have hnodup := s.cache.nodup_keys
  rw [mem_keys_set, not_or, keys_evict, Full]
  split_ifs with hfull
  · cases hkeys : s.cache.keys with
    | nil => exact absurd hk (by rw [hkeys]; exact List.not_mem_nil)
    | cons first rest =>
      rw [hkeys] at hk hnodup
      rw [List.nodup_cons] at hnodup
      rw [List.tail_cons, List.head?_cons, Option.some.injEq]
      have hfirst : k ∉ rest ↔ first = k := by
        rcases List.mem_cons.1 hk with rfl | hrest
        · exact iff_of_true hnodup.1 rfl
        · exact iff_of_false (not_not.2 hrest) fun heq => hnodup.1 (heq ▸ hrest)
      rw [hfirst, ← hkeys]
      exact ⟨fun h => ⟨hfull, h⟩, fun h => h.2⟩
  · exact iff_of_false (fun h => h.1 hk) fun h => hfull h.1

/-- The first key is the one that has been there longest. -/
theorem longest_iff (h : Aged s) {first : String} :
    s.Longest first ↔ s.cache.keys.head? = some first := by
  have horder := h.order
  unfold Longest
  cases hkeys : s.cache.keys with
  | nil => simp
  | cons k rest =>
    rw [hkeys, List.pairwise_cons] at horder
    rw [List.head?_cons, Option.some.injEq]
    constructor
    · rintro ⟨hfirst, hmin⟩
      rcases List.mem_cons.1 hfirst with rfl | hrest
      · rfl
      · exact absurd (hmin k List.mem_cons_self) (not_le.2 (horder.1 first hrest))
    · rintro rfl
      refine ⟨List.mem_cons_self, fun k' hk' => ?_⟩
      rcases List.mem_cons.1 hk' with rfl | hrest
      · exact le_rfl
      · exact (horder.1 k' hrest).le

/-- **One call** evicts right exactly if it spares the others. -/
theorem evictsRight_iff (h : Aged s) :
    s.EvictsRight key (s.cache.set key value ttlSeconds now) ↔
      s.SparesOthers (.set key value ttlSeconds now) := by
  have hevicted : ∀ k ∈ s.cache.keys, k ∉ (s.cache.set key value ttlSeconds now).keys ↔
      s.Full ∧ s.cache.keys.head? = some k ∧ k ≠ key := fun k hk => not_mem_keys_set_iff hk
  rw [SparesOthers]
  constructor
  · intro hright hfull
    have hpos : 0 < maxEntries := by decide
    obtain ⟨first, hfirst⟩ : ∃ first, s.cache.keys.head? = some first :=
      Option.isSome_iff_exists.1 (by
        rw [List.isSome_head?, ← List.length_pos_iff]
        exact hpos.trans_le hfull)
    have hmem : first ∈ s.cache.keys := List.mem_of_head? hfirst
    refine ⟨first, (longest_iff h).2 hfirst, ?_⟩
    split_ifs with hkey
    · by_contra hne
      have hlost := (hevicted first hmem).2 ⟨hfull, hfirst, Ne.symm hne⟩
      exact hlost (hright.overwrite hkey first hmem)
    · have hne : first ≠ key := fun heq => hkey (heq ▸ hmem)
      exact hright.oldest first hmem ((hevicted first hmem).2 ⟨hfull, hfirst, hne⟩)
  · intro hspares
    -- what is evicted is the key that has been there longest, for a new key
    have hlost : ∀ k ∈ s.cache.keys, k ∉ (s.cache.set key value ttlSeconds now).keys →
        s.Full ∧ s.cache.keys.head? = some k ∧ key ∉ s.cache.keys ∧
          ∀ k' ∈ s.cache.keys, k' ≠ k → s.lastSet k < s.lastSet k' := by
      intro k hk hnot
      obtain ⟨hfull, hhead, hne⟩ := (hevicted k hk).1 hnot
      obtain ⟨first, hlongest, hcond⟩ := hspares hfull
      obtain rfl : first = k := Option.some.inj (((longest_iff h).1 hlongest).symm.trans hhead)
      split_ifs at hcond with hkey
      · exact absurd hcond.symm hne
      · exact ⟨hfull, hhead, hkey, hcond⟩
    refine ⟨fun hkey k hk => ?_, fun k hk k' hk' hnot hnot' => ?_, fun k hk hnot => ?_,
      fun k hk hnot => ?_⟩
    · by_contra hnot
      exact (hlost k hk hnot).2.2.1 hkey
    · exact Option.some.inj ((hlost k hk hnot).2.1.symm.trans (hlost k' hk' hnot').2.1)
    · exact (hlost k hk hnot).1
    · exact (hlost k hk hnot).2.2.2

theorem kept_iff (h : Aged s) (call : CacheCall) : s.Kept call ↔ s.SparesOthers call := by
  have hsize : (s.step call).cache.entries.length ≤ maxEntries := by
    rw [← InsertionMap.length_keys]
    exact (aged_step h call).size
  unfold Kept
  cases call with
  | set key value ttlSeconds now => exact (and_iff_right hsize).trans (evictsRight_iff h)
  | get key now | del key | clear => exact ⟨fun _ => trivial, fun _ => ⟨hsize, trivial⟩⟩

/-- **The evictions.** The map stays within its bound and every `set` of a run evicts right, exactly
if every `set` of the run spares the others. -/
theorem evictions_iff (calls : List CacheCall) :
    Along step Kept {} calls ↔ Along step SparesOthers {} calls :=
  along_iff_of_invariant Aged (fun _ call h => kept_iff h call) (fun _ call h _ => aged_step h call)
    aged_start

/-! ### A full map -/

/-- Keys that differ. -/
def name (i : ℕ) : String := String.ofList (List.replicate i 'k')

theorem name_injective : Function.Injective name := by
  intro i j h
  simpa using congrArg List.length (String.ofList_injective h)

/-- As many keys are set as are named. -/
def fill (n : ℕ) : List CacheCall := (List.range n).map fun i => .set (name i) "" 60 0

theorem aged_after (calls : List CacheCall) : Aged (after step {} calls) := by
  have hkeep : ∀ s call, Aged s → Aged (step s call) := fun _ call h => aged_step h call
  exact after_invariant hkeep aged_start calls

/-- A new key comes last if there is room. -/
theorem keys_step_of_lt (hkey : key ∉ s.cache.keys) (hlt : s.cache.keys.length < maxEntries) :
    (s.step (.set key value ttlSeconds now)).cache.keys = s.cache.keys ++ [key] := by
  have hevict : s.cache.evict.keys = s.cache.keys := by rw [keys_evict, if_neg (not_le.2 hlt)]
  refine keys_set.trans ?_
  rw [hevict, if_neg hkey]

/-- A key that is there stays where it is if there is room. -/
theorem keys_step_of_mem (hkey : key ∈ s.cache.keys) (hlt : s.cache.keys.length < maxEntries) :
    (s.step (.set key value ttlSeconds now)).cache.keys = s.cache.keys := by
  have hevict : s.cache.evict.keys = s.cache.keys := by rw [keys_evict, if_neg (not_le.2 hlt)]
  refine keys_set.trans ?_
  rw [hevict, if_pos hkey]

theorem lastSet_step_self : (s.step (.set key value ttlSeconds now)).lastSet key = s.sets + 1 :=
  Function.update_self ..

theorem lastSet_step_of_ne {k : String} (h : k ≠ key) :
    (s.step (.set key value ttlSeconds now)).lastSet k = s.lastSet k :=
  Function.update_of_ne h _ _

theorem name_not_mem {n : ℕ} : name n ∉ (List.range n).map name := by
  intro hmem
  obtain ⟨i, hi, heq⟩ := List.mem_map.1 hmem
  exact absurd (name_injective heq) (List.mem_range.1 hi).ne

theorem after_fill {n : ℕ} (hn : n ≤ maxEntries) :
    (after step {} (fill n)).cache.keys = (List.range n).map name ∧
      (after step {} (fill n)).sets = n ∧
        ∀ i < n, (after step {} (fill n)).lastSet (name i) = i + 1 := by
  induction n with
  | zero => exact ⟨rfl, rfl, fun _ hi => absurd hi (Nat.not_lt_zero _)⟩
  | succ n ih =>
    obtain ⟨hkeys, hsets, hlast⟩ := ih (Nat.le_of_succ_le hn)
    have hfill : fill (n + 1) = fill n ++ [.set (name n) "" 60 0] := by
      rw [fill, List.range_succ, List.map_append]
      rfl
    rw [hfill, after_append, after_cons, after_nil]
    refine ⟨?_, congrArg (· + 1) hsets, fun i hi => ?_⟩
    · rw [keys_step_of_lt (by rw [hkeys]; exact name_not_mem)
        (by rw [hkeys, List.length_map, List.length_range]; exact hn), hkeys, List.range_succ,
        List.map_append]
      rfl
    · rcases Nat.lt_succ_iff_lt_or_eq.1 hi with hlt | rfl
      · rw [lastSet_step_of_ne (name_injective.ne hlt.ne), hlast i hlt]
      · rw [lastSet_step_self, hsets]

/-- The first keys of a full map. -/
theorem full_of_keys (hkeys : s.cache.keys = (List.range maxEntries).map name) :
    s.Full ∧ s.cache.keys.head? = some (name 0) ∧ name 1 ∈ s.cache.keys := by
  rw [Full, hkeys, List.length_map, List.length_range, List.head?_map, List.head?_range]
  exact ⟨le_rfl, rfl, List.mem_map_of_mem (List.mem_range.2 (by decide))⟩

/-- A `set` that is kept in this full map. -/
theorem of_kept (h : Aged s) (hkeys : s.cache.keys = (List.range maxEntries).map name)
    (hkept : s.Kept (.set key value ttlSeconds now)) :
    (key ∈ s.cache.keys → key = name 0) ∧
      (key ∉ s.cache.keys → s.lastSet (name 0) < s.lastSet (name 1)) := by
  obtain ⟨hfull, hfirst, hsecond⟩ := full_of_keys hkeys
  obtain ⟨first, hlongest, hcond⟩ := (kept_iff h _).1 hkept hfull
  obtain rfl : name 0 = first := Option.some.inj (hfirst.symm.trans ((longest_iff h).1 hlongest))
  split_ifs at hcond with hkey
  · exact ⟨fun _ => hcond, fun hnew => absurd hkey hnew⟩
  · exact ⟨fun hold => absurd hold hkey,
      fun _ => hcond _ hsecond (name_injective.ne Nat.one_ne_zero)⟩

/-- The second key of a full map is set again. -/
theorem not_along_overwrite {n : ℕ} (hn : n = maxEntries) :
    ¬ Along step Kept {} (fill n ++ [.set (name 1) "" 60 0]) := by
  intro h
  rw [along_append, along_cons] at h
  have hkept := h.2.1
  have haged := aged_after (fill n)
  have hkeys := (after_fill hn.le).1
  clear h
  generalize after step {} (fill n) = s at hkeys haged hkept
  have hfull : s.cache.keys = (List.range maxEntries).map name := by rw [hkeys, hn]
  have hcond := (of_kept haged hfull hkept).1 (full_of_keys hfull).2.2
  exact Nat.one_ne_zero (name_injective hcond)

/-- The first key is set again before the map is full, and then a new key comes. -/
theorem not_along_newer {n : ℕ} (hn : n + 1 = maxEntries) (hone : 1 < n) :
    ¬ Along step Kept {} (fill n ++
      [.set (name 0) "" 60 0, .set (name n) "" 60 0, .set (name (n + 1)) "" 60 0]) := by
  intro h
  rw [along_append, along_cons, along_cons, along_cons] at h
  have hkept := h.2.2.2.1
  have haged := aged_after (fill n)
  obtain ⟨hkeys, hsets, hnotes⟩ := after_fill (Nat.le_of_succ_le hn.le)
  clear h
  generalize after step {} (fill n) = s at hkeys hsets hnotes haged hkept
  have hlength : s.cache.keys.length < maxEntries := by
    rw [hkeys, List.length_map, List.length_range]
    exact hn ▸ Nat.lt_succ_self n
  have hzero : name 0 ∈ s.cache.keys := by
    rw [hkeys]
    exact List.mem_map_of_mem (List.mem_range.2 (Nat.zero_lt_of_lt hone))
  have hagain : (s.step (.set (name 0) "" 60 0)).cache.keys = s.cache.keys :=
    keys_step_of_mem hzero hlength
  have hfull : ((s.step (.set (name 0) "" 60 0)).step (.set (name n) "" 60 0)).cache.keys =
      (List.range maxEntries).map name := by
    have hnew : name n ∉ (s.step (.set (name 0) "" 60 0)).cache.keys := by
      rw [hagain, hkeys]
      exact name_not_mem
    rw [keys_step_of_lt hnew (hagain ▸ hlength), hagain, hkeys, ← hn, List.range_succ,
      List.map_append, List.map_singleton]
  have hnew : name (n + 1) ∉ (List.range maxEntries).map name := hn ▸ name_not_mem
  have hcond := (of_kept (aged_step (aged_step haged _) _) hfull hkept).2 (hfull ▸ hnew)
  -- the first key was set last but one, the second key long before
  have hne : ∀ {i j : ℕ}, i ≠ j → name i ≠ name j := name_injective.ne
  rw [lastSet_step_of_ne (hne (by omega)), lastSet_step_self,
    lastSet_step_of_ne (hne (by omega)), lastSet_step_of_ne (hne (by omega)), hnotes 1 hone,
    hsets] at hcond
  omega

/-- A full map in which the second key is set again, and one in which the first key has been set
again before a new one comes, both lose the first key. -/
theorem not_evictions_sample :
    ¬ Along step Kept {} (fill 1000 ++ [.set (name 1) "" 60 0]) ∧
      ¬ Along step Kept {} (fill 999 ++
        [.set (name 0) "" 60 0, .set (name 999) "" 60 0, .set (name 1000) "" 60 0]) :=
  ⟨not_along_overwrite rfl, not_along_newer rfl (by decide)⟩

end Observed

end SorobanPay.Redis
