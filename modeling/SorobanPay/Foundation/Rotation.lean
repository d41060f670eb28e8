import Mathlib.Data.List.Nodup
import Mathlib.Data.List.Range
import Mathlib.Data.List.Perm.Subperm
import Mathlib.Data.Nat.ModEq

/-!
# Taking turns in a cycle

A pointer goes round a cycle of length `n`, some of whose places are open. Each time the first open
place from the pointer on is served, and the pointer moves on if it is the place that it is at;
otherwise it stays. So as many servings as there are open places go to different ones exactly if the
pointer does not come to a closed place before the last of them.

## Main definitions

* `FirstFrom`: the first open place.
* `Rotation`: the places that are served in turn.

## Main results

* `Rotation.nodup_iff`: when they are different.
-/

set_option autoImplicit false

namespace Foundation

variable {n : ℕ} {p : ℕ → Prop}

variable (n p) in
/-- `i` is the first open place from `c` on. -/
def FirstFrom (c i : ℕ) : Prop :=
  ∃ k < n, i = (c + k) % n ∧ p i ∧ ∀ j < k, ¬ p ((c + j) % n)

variable (n p) in
/-- Places that are served one after the other, where the pointer is at `c` at first. -/
inductive Rotation [DecidablePred p] : ℕ → List ℕ → Prop
  | nil (c : ℕ) : Rotation c []
  | cons {c i : ℕ} {is : List ℕ} (hd : FirstFrom n p c i)
      (tl : Rotation (if p c then (c + 1) % n else c) is) : Rotation c (i :: is)

variable {c i i' m : ℕ} {is : List ℕ}

namespace FirstFrom

theorem unique (h : FirstFrom n p c i) (h' : FirstFrom n p c i') : i = i' := by
  obtain ⟨k, -, rfl, hk, hbefore⟩ := h
  obtain ⟨k', -, rfl, hk', hbefore'⟩ := h'
  rcases lt_trichotomy k k' with hlt | rfl | hgt
  · exact absurd hk (hbefore' k hlt)
  · rfl
  · exact absurd hk' (hbefore k' hgt)

/-- An open place is served when the pointer is at it. -/
theorem eq_self (h : FirstFrom n p c i) (hc : c < n) (hp : p c) : i = c := by
  have hmod : (c + 0) % n = c := Nat.mod_eq_of_lt hc
  exact h.unique ⟨0, Nat.zero_lt_of_lt hc, hmod.symm, hp, fun j hj => absurd hj (Nat.not_lt_zero j)⟩

end FirstFrom

/-- Every place is met on the way round. -/
theorem exists_add_mod_eq (c : ℕ) {x : ℕ} (hx : x < n) : ∃ k < n, (c + k) % n = x := by
  have hn : 0 < n := Nat.zero_lt_of_lt hx
  refine ⟨(x + (n - c % n)) % n, Nat.mod_lt _ hn, ?_⟩
  have hround : c + (x + (n - c % n)) = x + n * (c / n + 1) := by
    have hdiv := Nat.div_add_mod c n
    have hmod := Nat.mod_lt c hn
    rw [Nat.mul_add, Nat.mul_one]
    omega
  rw [Nat.add_mod_mod, hround, Nat.add_mul_mod_self_left, Nat.mod_eq_of_lt hx]

/-- Fewer places than are open do not include all open ones. -/
theorem exists_open_of_lt_countP [DecidablePred p] (c : ℕ)
    (hm : m < (List.range n).countP (p ·)) : ∃ k, m ≤ k ∧ k < n ∧ p ((c + k) % n) := by
  by_contra hnone
  have hsub : (List.range n).filter (p ·) ⊆ (List.range m).map fun k => (c + k) % n := by
    intro x hx
    obtain ⟨hlt, hp⟩ := List.mem_filter.1 hx
    obtain ⟨k, hk, rfl⟩ := exists_add_mod_eq c (List.mem_range.1 hlt)
    have hkm : k < m := not_le.1 fun hle => hnone ⟨k, hle, hk, of_decide_eq_true hp⟩
    exact List.mem_map_of_mem (List.mem_range.2 hkm)
  have hle := (List.subperm_of_subset (List.nodup_range.filter _) hsub).length_le
  rw [List.length_map, List.length_range, ← List.countP_eq_length_filter] at hle
  exact absurd hm (not_lt.2 hle)

namespace Rotation

variable [DecidablePred p]

/-- The pointer is at open places if the places that are served are different. -/
theorem open_of_nodup (h : Rotation n p c is) (hc : c < n) (hnodup : is.Nodup) :
    ∀ k, k + 1 < is.length → p ((c + k) % n) := by
  induction h with
  | nil => exact fun k hk => absurd hk (Nat.not_lt_zero _)
  | @cons c i is hd tl ih =>
    obtain ⟨hi, hnodup⟩ := List.nodup_cons.1 hnodup
    intro k hk
    have hopen : p c := by
      -- at a closed place the pointer would stay, and the same place be served again
      by_contra hclosed
      rw [if_neg hclosed] at tl
      cases tl with
      | nil => exact absurd hk (by simp)
      | cons hd' _ => exact hi (hd.unique hd' ▸ List.mem_cons_self)
    rw [if_pos hopen] at ih
    cases k with
    | zero => rwa [Nat.add_zero, Nat.mod_eq_of_lt hc]
    | succ k =>
      have hnext := ih (Nat.mod_lt _ (Nat.zero_lt_of_lt hc)) hnodup k (Nat.lt_of_succ_lt_succ hk)
      rwa [Nat.mod_add_mod, Nat.add_assoc, Nat.add_comm 1 k] at hnext

/-- While the pointer is at open places, each serving goes further round than the one before. -/
theorem exists_offsets (hcount : m + is.length ≤ (List.range n).countP (p ·))
    (h : Rotation n p ((c + m) % n) is)
    (hopen : ∀ k, k + 1 < is.length → p ((c + (m + k)) % n)) :
    ∃ offsets : List ℕ, is = offsets.map (fun k => (c + k) % n) ∧ offsets.Nodup ∧
      ∀ k ∈ offsets, m ≤ k ∧ k < n := by
  induction is generalizing m with
  | nil => exact ⟨[], rfl, List.nodup_nil, List.forall_mem_nil _⟩
  | cons i is ih =>
    have hm : m < (List.range n).countP (p ·) := by
      rw [List.length_cons] at hcount
      omega
    obtain ⟨l, hml, hln, hl⟩ := exists_open_of_lt_countP c hm
    cases h with
    | cons hd tl =>
      cases is with
      | nil =>
        -- the last serving goes to an open place before the pointer is round again
        obtain ⟨k, -, rfl, -, hbefore⟩ := hd
        rw [Nat.mod_add_mod, Nat.add_assoc]
        refine ⟨[m + k], rfl, List.nodup_singleton _,
          List.forall_mem_singleton.2 ⟨Nat.le_add_right _ _, ?_⟩⟩
        by_contra hround
        refine hbefore (l - m) (by omega) ?_
        rwa [Nat.mod_add_mod, Nat.add_assoc, Nat.add_sub_cancel' hml]
      | cons i' is =>
        have hhere : p ((c + m) % n) := hopen 0 (by simp)
        have hlt : (c + m) % n < n := Nat.mod_lt _ (Nat.zero_lt_of_lt hln)
        obtain rfl := hd.eq_self hlt hhere
        rw [if_pos hhere, Nat.mod_add_mod, Nat.add_assoc] at tl
        have hcount' : m + 1 + (i' :: is).length ≤ (List.range n).countP (p ·) := by
          rw [List.length_cons] at hcount
          omega
        obtain ⟨offsets, heq, hnodup, hoffsets⟩ := ih hcount' tl fun k hk => by
          rw [Nat.add_assoc, Nat.add_comm 1 k]
          exact hopen (k + 1) (Nat.succ_lt_succ hk)
        refine ⟨m :: offsets, by rw [heq]; rfl, List.nodup_cons.2 ⟨fun hmem => ?_, hnodup⟩, ?_⟩
        · exact absurd (hoffsets m hmem).1 (Nat.not_succ_le_self m)
        · refine List.forall_mem_cons.2 ⟨⟨le_rfl, hml.trans_lt hln⟩, fun k hk => ?_⟩
          exact (hoffsets k hk).imp_left fun hle => Nat.le_of_succ_le hle

/-- **Turns in a cycle.** No more servings than there are open places go to different ones exactly
if the pointer is at an open place before each but the last. -/
theorem nodup_iff (h : Rotation n p c is) (hc : c < n)
    (hcount : is.length ≤ (List.range n).countP (p ·)) :
    is.Nodup ↔ ∀ k, k + 1 < is.length → p ((c + k) % n) := by
  refine ⟨h.open_of_nodup hc, fun hopen => ?_⟩
  have hstart : Rotation n p ((c + 0) % n) is := by rwa [Nat.add_zero, Nat.mod_eq_of_lt hc]
  obtain ⟨offsets, rfl, hnodup, hoffsets⟩ :=
    exists_offsets (by rwa [Nat.zero_add]) hstart fun k hk => by
      rw [Nat.zero_add]
      exact hopen k hk
  refine List.Nodup.map_on (fun k hk k' hk' heq => ?_) hnodup
  exact (Nat.ModEq.add_left_cancel' c heq).eq_of_lt_of_lt (hoffsets k hk).2 (hoffsets k' hk').2

end Rotation

end Foundation
