import Mathlib.Data.List.Basic
import Mathlib.Tactic.Common

/-!
# Lists of entries

A record of open shape is the list of its entries, read by key with `List.lookup`. A value under a
key that is there takes its place, and a new key goes to the end.

## Main definitions

* `setEntry`: the entries with a value under a key.
* `spread`: the entries of one list over those of another.

## Main results

* `lookup_setEntry`, `lookup_spread`: what is under a key afterwards.
* `lookup_filter`: what is under a key that is kept.
-/

set_option autoImplicit false

namespace Foundation

variable {κ ν : Type} [DecidableEq κ]

/-- The entries with a value under a key. -/
def setEntry : List (κ × ν) → κ → ν → List (κ × ν)
  | [], k, v => [(k, v)]
  | entry :: entries, k, v =>
    if entry.1 = k then (k, v) :: entries else entry :: setEntry entries k v

/-- The entries with those of a patch set one after the other. -/
def spread (entries patch : List (κ × ν)) : List (κ × ν) :=
  patch.foldl (fun entries entry => setEntry entries entry.1 entry.2) entries

variable [BEq κ] [LawfulBEq κ] {entries patch : List (κ × ν)} {k k' : κ} {v : ν}

theorem lookup_cons_eq (entry : κ × ν) :
    (entry :: entries).lookup k = if k = entry.1 then some entry.2 else entries.lookup k := by
  rw [List.lookup_cons]
  by_cases hk : k = entry.1
  · simp [hk]
  · simp [hk, beq_eq_false_iff_ne.2 hk]

theorem lookup_setEntry :
    (setEntry entries k v).lookup k' = if k' = k then some v else entries.lookup k' := by
  induction entries with
  | nil => simp [setEntry, lookup_cons_eq]
  | cons entry entries ih =>
    rw [setEntry]
    split_ifs with hentry hkey hkey
    · simp [hkey]
    · rw [lookup_cons_eq, lookup_cons_eq, hentry, if_neg hkey, if_neg hkey]
    · rw [lookup_cons_eq, ih, if_pos hkey, if_neg fun heq => hentry (heq.symm.trans hkey)]
    · rw [lookup_cons_eq, lookup_cons_eq, ih, if_neg hkey]

/-- **What is under a key of a spread**: the last value that the patch has for it, or the old
one. -/
theorem lookup_spread :
    (spread entries patch).lookup k = (patch.reverse.lookup k).or (entries.lookup k) := by
  induction patch generalizing entries with
  | nil => simp [spread]
  | cons entry patch ih =>
    have hstep : spread entries (entry :: patch) =
        spread (setEntry entries entry.1 entry.2) patch := rfl
    rw [hstep, ih, lookup_setEntry, List.reverse_cons, List.lookup_append, Option.or_assoc]
    congr 1
    rw [lookup_cons_eq]
    split_ifs <;> rfl

/-- What is under a key that is kept. -/
theorem lookup_filter {p : κ → Bool} (hk : p k = true) :
    (entries.filter fun entry => p entry.1).lookup k = entries.lookup k := by
  induction entries with
  | nil => rfl
  | cons entry entries ih =>
    by_cases hentry : p entry.1 = true
    · rw [List.filter_cons, if_pos hentry, lookup_cons_eq, lookup_cons_eq, ih]
    · have hne : k ≠ entry.1 := fun heq => hentry (heq ▸ hk)
      rw [List.filter_cons, if_neg hentry, lookup_cons_eq, if_neg hne, ih]

end Foundation
