import Mathlib.Data.List.Induction
import Mathlib.Data.List.Perm.Basic
import SorobanPay.Foundation.InsertionMap

/-!
# Grouping by a key

Entries that come with a key are put into the group of the key, the groups in the order in which
their keys first occur, and the entries of a group in their own order. Listing the groups one after
the other rearranges the entries, and no more; it leaves them as they are if and only if no key
comes again after another one.

A map that is made from a list of entries keeps the last value of each key.

## Main definitions

* `Together`: no key comes again after another one.
* `InsertionMap.push`, `InsertionMap.group`: grouping.
* `InsertionMap.ofList`: the map with given entries.

## Main results

* `InsertionMap.eq_of_mem_group`: the groups.
* `InsertionMap.entries_set`: where a value is replaced.
* `InsertionMap.perm_flatten_group`, `InsertionMap.flatten_group_of_together`,
  `together_flatMap`: the groups one after the other.
* `InsertionMap.get_ofList_eq_some_iff`: the last value of a key counts.
-/

set_option autoImplicit false

namespace Foundation

/-! ### Keys that come together -/

section Together

variable {κ α : Type}

/-- A key comes again only right after itself. -/
def Together : List κ → Prop
  | [] => True
  | k :: ks => (k ∈ ks → ks.head? = some k) ∧ Together ks

theorem together_map {f : κ → α} (hf : Function.Injective f) {ks : List κ} :
    Together (ks.map f) ↔ Together ks := by
  induction ks with
  | nil => exact Iff.rfl
  | cons k ks ih =>
    have hhead : (ks.map f).head? = some (f k) ↔ ks.head? = some k := by
      rw [List.head?_map, Option.map_eq_some_iff]
      exact ⟨fun ⟨k', hk', heq⟩ => hf heq ▸ hk', fun hk => ⟨k, hk, rfl⟩⟩
    rw [List.map_cons, Together, Together, ih, List.mem_map_of_injective hf, hhead]

/-- A key at the end is the last one, or a new one. -/
theorem Together.of_append_singleton {ks : List κ} {k : κ} (h : Together (ks ++ [k])) :
    Together ks ∧ (k ∈ ks → ks.getLast? = some k) := by
  induction ks with
  | nil => exact ⟨trivial, by simp⟩
  | cons k' ks ih =>
    obtain ⟨hfirst, hrest⟩ := h
    obtain ⟨htogether, hlast⟩ := ih hrest
    rcases ks with _ | ⟨k'', ks⟩
    · refine ⟨⟨by simp, trivial⟩, fun hk => ?_⟩
      rw [List.mem_singleton.1 hk]
      rfl
    · refine ⟨⟨fun hk => hfirst (List.mem_append_left _ hk), htogether⟩, fun hk => ?_⟩
      rw [List.getLast?_cons_cons]
      rcases List.mem_cons.1 hk with rfl | hk
      · have hhead : k'' = k := Option.some.inj (hfirst (by simp))
        exact hlast (hhead ▸ List.mem_cons_self)
      · exact hlast hk

/-- A run of one key, before other keys. -/
theorem together_append {l rest : List κ} {k : κ} (hl : ∀ k' ∈ l, k' = k) (hrest : k ∉ rest)
    (h : Together rest) : Together (l ++ rest) := by
  induction l with
  | nil => exact h
  | cons k' l ih =>
    refine ⟨fun hk' => ?_, ih fun k'' hk'' => hl k'' (List.mem_cons_of_mem _ hk'')⟩
    have hk : k' = k := hl k' List.mem_cons_self
    rcases l with _ | ⟨k'', l⟩
    · exact (hrest (hk ▸ hk')).elim
    · rw [hk, ← hl k'' (List.mem_cons_of_mem _ List.mem_cons_self)]
      rfl

/-- The keys of groups, one group after the other, come together. -/
theorem together_flatMap {l : List (κ × List α)} (h : (l.map Prod.fst).Nodup) :
    Together (l.flatMap fun g => g.2.map fun _ => g.1) := by
  induction l with
  | nil => trivial
  | cons g l ih =>
    rw [List.map_cons, List.nodup_cons] at h
    rw [List.flatMap_cons]
    refine together_append (k := g.1) (by simp) (fun hmem => h.1 ?_) (ih h.2)
    obtain ⟨g', hg', hk⟩ := List.mem_flatMap.1 hmem
    obtain ⟨_, -, hk⟩ := List.mem_map.1 hk
    exact hk ▸ List.mem_map_of_mem hg'

theorem map_eq_map_some_filterMap {key : α → Option κ} {l : List α}
    (h : ∀ a ∈ l, (key a).isNone = false) : l.map key = (l.filterMap key).map some := by
  induction l with
  | nil => rfl
  | cons a l ih =>
    have ih := ih fun a' ha' => h a' (List.mem_cons_of_mem _ ha')
    cases hkey : key a with
    | none => simpa [hkey] using h a List.mem_cons_self
    | some k => rw [List.map_cons, List.filterMap_cons_some hkey, List.map_cons, ih, hkey]

/-- If the entries without a key come first, they can be taken away. -/
theorem Together.of_none_cons {key : α → Option κ} {l : List α}
    (h : Together (none :: l.map key)) :
    (l.filter fun a => (key a).isNone) ++ (l.filter fun a => ! (key a).isNone) = l ∧
      Together (l.filterMap key) := by
  induction l with
  | nil => exact ⟨rfl, trivial⟩
  | cons a l ih =>
    obtain ⟨hnone, hrest⟩ := h
    cases hkey : key a with
    | none =>
      rw [List.map_cons, hkey] at hrest
      obtain ⟨hsplit, htogether⟩ := ih hrest
      rw [List.filterMap_cons_none hkey]
      refine ⟨?_, htogether⟩
      rw [List.filter_cons_of_pos (by simp [hkey]), List.filter_cons_of_neg (by simp [hkey]),
        List.cons_append, hsplit]
    | some k =>
      -- no entry without a key follows
      have hsome : ∀ a' ∈ a :: l, (key a').isNone = false := by
        intro a' ha'
        cases hkey' : key a' with
        | none =>
          have hhead := hnone (hkey' ▸ List.mem_map_of_mem ha')
          rw [List.map_cons, List.head?_cons, hkey] at hhead
          cases hhead
        | some k' => rfl
      refine ⟨?_, (together_map (fun _ _ => Option.some.inj)).1
        (map_eq_map_some_filterMap hsome ▸ hrest)⟩
      rw [List.filter_eq_nil_iff.2 fun a' ha' => by simp [hsome a' ha'], List.nil_append,
        List.filter_eq_self.2 fun a' ha' => by simp [hsome a' ha']]

end Together

end Foundation

namespace Foundation.InsertionMap

variable {κ ν α : Type} [DecidableEq κ]

/-! ### Groups -/

/-- Put an entry into the group of a key. -/
def push (m : InsertionMap κ (List α)) (k : κ) (a : α) : InsertionMap κ (List α) :=
  m.set k ((m.get k).getD [] ++ [a])

/-- The groups of a list of entries with their keys. -/
def group (ps : List (κ × α)) : InsertionMap κ (List α) :=
  ps.foldl (fun m p => m.push p.1 p.2) empty

theorem group_append (ps : List (κ × α)) (p : κ × α) :
    group (ps ++ [p]) = (group ps).push p.1 p.2 := by
  rw [group, List.foldl_append]
  rfl

theorem get_push {m : InsertionMap κ (List α)} {k k' : κ} {a : α} :
    (m.push k a).get k' = if k' = k then some ((m.get k).getD [] ++ [a]) else m.get k' :=
  get_set

theorem get_group_getD (ps : List (κ × α)) (k : κ) :
    ((group ps).get k).getD [] = (ps.filter fun p => p.1 = k).map Prod.snd := by
  induction ps using List.reverseRecOn with
  | nil => rfl
  | append_singleton ps p ih =>
    rw [group_append, get_push, List.filter_append, List.map_append, ← ih]
    by_cases hk : k = p.1
    · subst hk
      simp
    · simp [hk, Ne.symm hk]

theorem get_group_ne_nil (ps : List (κ × α)) (k : κ) : (group ps).get k ≠ some [] := by
  induction ps using List.reverseRecOn with
  | nil => simp [group]
  | append_singleton ps p ih =>
    rw [group_append, get_push]
    split_ifs
    · simp
    · exact ih

/-- The group of a key is made of the entries with this key. -/
theorem eq_of_mem_group {ps : List (κ × α)} {k : κ} {g : List α}
    (h : (k, g) ∈ (group ps).entries) :
    g = (ps.filter fun p => p.1 = k).map Prod.snd ∧ g ≠ [] := by
  rw [mem_entries_iff] at h
  refine ⟨?_, fun hg => get_group_ne_nil ps k (hg ▸ h)⟩
  rw [← get_group_getD, h]
  rfl

/-- Setting a key that is there replaces its entry. -/
theorem entries_set {m : InsertionMap κ ν} {k : κ} {v : ν} (h : m.get k = some v) (w : ν) :
    ∃ pre post, m.entries = pre ++ (k, v) :: post ∧
      (m.set k w).entries = pre ++ (k, w) :: post := by
  have hentry := mem_entries_iff.2 h
  have hmem : k ∈ m.entries.map Prod.fst := List.mem_map.2 ⟨_, hentry, rfl⟩
  obtain ⟨pre, post, hsplit⟩ := List.append_of_mem hentry
  have hnodup := m.nodup
  rw [hsplit, List.map_append, List.map_cons, List.nodup_append, List.nodup_cons] at hnodup
  obtain ⟨-, ⟨hpost, -⟩, hpre⟩ := hnodup
  have hother : ∀ l : List (κ × ν), k ∉ l.map Prod.fst →
      (l.map fun entry => if entry.1 = k then (k, w) else entry) = l := by
    intro l hl
    refine (List.map_congr_left fun entry hentry => if_neg fun hk => hl ?_).trans (List.map_id l)
    exact hk ▸ List.mem_map_of_mem hentry
  refine ⟨pre, post, hsplit, ?_⟩
  rw [set, dif_pos hmem]
  simp only [hsplit, List.map_append, List.map_cons, if_true, hother post hpost]
  rw [hother pre fun hk => hpre k hk k List.mem_cons_self rfl]

theorem entries_set_of_new {m : InsertionMap κ ν} {k : κ} (h : m.get k = none) (w : ν) :
    (m.set k w).entries = m.entries ++ [(k, w)] := by
  have hnew : k ∉ m.entries.map Prod.fst := by
    intro hmem
    obtain ⟨⟨_, v⟩, hentry, rfl⟩ := List.mem_map.1 hmem
    rw [mem_entries_iff, h] at hentry
    cases hentry
  rw [set, dif_neg hnew]

theorem perm_flatten_push (m : InsertionMap κ (List α)) (k : κ) (a : α) :
    (m.push k a).values.flatten.Perm (m.values.flatten ++ [a]) := by
  rcases hget : m.get k with _ | g
  · rw [push, hget, values, entries_set_of_new hget]
    simp [values]
  · obtain ⟨pre, post, hentries, hset⟩ := entries_set hget (g ++ [a])
    rw [push, hget, Option.getD_some, values, values, hset, hentries]
    simp only [List.map_append, List.map_cons, List.flatten_append, List.flatten_cons,
      List.append_assoc]
    exact (List.perm_append_comm.append_left g).append_left _

/-- **The groups one after the other** are the entries in another order. -/
theorem perm_flatten_group (ps : List (κ × α)) :
    (group ps).values.flatten.Perm (ps.map Prod.snd) := by
  induction ps using List.reverseRecOn with
  | nil => exact .refl _
  | append_singleton ps p ih =>
    rw [group_append, List.map_append]
    exact (perm_flatten_push _ _ _).trans (ih.append_right _)

/-- The keys of the groups are those of the entries. -/
theorem mem_of_get_group {ps : List (κ × α)} {k : κ} {g : List α} (h : (group ps).get k = some g) :
    k ∈ ps.map Prod.fst := by
  obtain ⟨heq, hne⟩ := eq_of_mem_group (mem_entries_iff.2 h)
  obtain ⟨a, ha⟩ := List.exists_mem_of_ne_nil g hne
  rw [heq] at ha
  obtain ⟨p, hp, -⟩ := List.mem_map.1 ha
  obtain ⟨hmem, hk⟩ := List.mem_filter.1 hp
  exact List.mem_map.2 ⟨p, hmem, of_decide_eq_true hk⟩

/-- The entry that is set is the last one, if its key is that of the last entry. -/
theorem entries_set_of_last {m : InsertionMap κ ν} {k : κ} {v : ν} (h : m.get k = some v)
    (hlast : (m.entries.map Prod.fst).getLast? = some k) (w : ν) :
    ∃ pre, m.entries = pre ++ [(k, v)] ∧ (m.set k w).entries = pre ++ [(k, w)] := by
  obtain ⟨pre, post, hentries, hset⟩ := entries_set h w
  rcases List.eq_nil_or_concat post with rfl | ⟨post, last, rfl⟩
  · exact ⟨pre, hentries, hset⟩
  · have hnodup := m.nodup
    rw [hentries] at hlast hnodup
    simp only [List.concat_eq_append, List.map_append, List.map_cons, List.map_nil,
      ← List.cons_append, ← List.append_assoc, List.getLast?_append, List.getLast?_singleton,
      Option.some_or] at hlast hnodup
    rw [List.nodup_append] at hnodup
    exact (hnodup.2.2 k (by simp) last.1 (by simp) (Option.some.inj hlast).symm).elim

/-- **Keys that come together** are left in their order, and the last group has the last key. -/
theorem flatten_group_of_together {ps : List (κ × α)} (h : Together (ps.map Prod.fst)) :
    (group ps).values.flatten = ps.map Prod.snd ∧
      ((group ps).entries.map Prod.fst).getLast? = (ps.map Prod.fst).getLast? := by
  induction ps using List.reverseRecOn with
  | nil => exact ⟨rfl, rfl⟩
  | append_singleton ps p ih =>
    rw [List.map_append] at h
    obtain ⟨htogether, hp⟩ := h.of_append_singleton
    obtain ⟨hflatten, hlast⟩ := ih htogether
    rw [group_append, push]
    rcases hget : (group ps).get p.1 with _ | g
    · rw [values, entries_set_of_new hget]
      simp [← hflatten, values]
    · obtain ⟨pre, hentries, hset⟩ :=
        entries_set_of_last hget (hlast.trans (hp (mem_of_get_group hget))) (g ++ [p.2])
      rw [values, hentries] at hflatten
      rw [Option.getD_some, values, hset]
      simp only [List.map_append, List.map_cons, List.map_nil, List.flatten_append,
        List.flatten_cons, List.flatten_nil, List.append_nil, ← List.append_assoc,
        List.getLast?_append, List.getLast?_singleton, Option.some_or] at hflatten ⊢
      exact ⟨by rw [hflatten], trivial⟩

/-! ### Maps from lists -/

/-- The map that is made from a list of entries; later values replace earlier ones. -/
def ofList (l : List (κ × ν)) : InsertionMap κ ν := l.foldl (fun m p => m.set p.1 p.2) empty

/-- The last value of a key counts. -/
theorem get_ofList_append (l : List (κ × ν)) (p : κ × ν) (k : κ) :
    (ofList (l ++ [p])).get k = if k = p.1 then some p.2 else (ofList l).get k := by
  rw [ofList, List.foldl_append, List.foldl_cons, List.foldl_nil, get_set]
  rfl

/-- A key has its last value. -/
theorem get_ofList_eq_some_iff {l : List (κ × ν)} {k : κ} {v : ν} :
    (ofList l).get k = some v ↔
      ∃ pre post, l = pre ++ (k, v) :: post ∧ ∀ p ∈ post, p.1 ≠ k := by
  induction l using List.reverseRecOn with
  | nil => simp [ofList]
  | append_singleton l p ih =>
    rw [get_ofList_append]
    split_ifs with hk
    · constructor
      · rintro ⟨⟩
        exact ⟨l, [], by rw [hk], by simp⟩
      · rintro ⟨pre, post, hsplit, hpost⟩
        rcases List.eq_nil_or_concat post with rfl | ⟨post, q, rfl⟩
        · have hlast := List.append_inj_right' hsplit rfl
          rw [(List.cons.inj hlast).1]
        · rw [List.concat_eq_append, ← List.cons_append, ← List.append_assoc] at hsplit
          have hlast := List.append_inj_right' hsplit rfl
          exact (hpost p (by simp [(List.cons.inj hlast).1]) hk.symm).elim
    · rw [ih]
      constructor
      · rintro ⟨pre, post, rfl, hpost⟩
        refine ⟨pre, post ++ [p], by simp, fun q hq => ?_⟩
        rcases List.mem_append.1 hq with hq | hq
        · exact hpost q hq
        · rw [List.mem_singleton.1 hq]
          exact Ne.symm hk
      · rintro ⟨pre, post, hsplit, hpost⟩
        rcases List.eq_nil_or_concat post with rfl | ⟨post, q, rfl⟩
        · have hlast := List.append_inj_right' hsplit rfl
          exact (hk (by rw [(List.cons.inj hlast).1])).elim
        · rw [List.concat_eq_append, ← List.cons_append, ← List.append_assoc] at hsplit
          obtain ⟨hinit, -⟩ := List.append_inj' hsplit rfl
          exact ⟨pre, post, hinit, fun q hq => hpost q (by simp [hq])⟩

end Foundation.InsertionMap
