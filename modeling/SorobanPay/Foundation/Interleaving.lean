import Mathlib.Data.List.Nodup
import Mathlib.Tactic.Common

/-!
# Calls that interleave on a shared state

A service has many calls under way at once, and each of them runs without interruption from one
wait to the next. A `Pool` is the state they share with the local states of all calls made so far;
`step s l e` says what a call in the local state `l` does in its turn, when what it waits for is
answered by `e`. Turns are given in any order.

`Pool.Holds` is the shape of the invariants of such a system: one about the shared state, one about
each call, and one about any two calls. A turn keeps it if it does so for the call itself and does
not interfere with the others.

## Main definitions

* `Pool`, `Pool.start`, `Pool.resume`, `Pool.act`: the system, a new call, the turn of a call, and a
  change of the shared state that no call waits for.
* `Pool.Holds`: invariants of the shared state and of the calls.
* `Pool.Since`: invariants of the calls from some call on.
* `Pool.Spending`: names that the calls spend.

## Main results

* `Pool.Holds.start`, `Pool.Holds.resume`, `Pool.Holds.act`: what keeps an invariant.
* `Pool.Holds.resume_handling`: what keeps a thing in the hands of one call.
* `Pool.Since.start`, `Pool.Since.resume`: the same for the calls from some call on.
* `Pool.Spending.start`, `Pool.Spending.resume`, `Pool.Spending.act`: no name is spent twice.
* `Pool.countP_start`, `Pool.countP_resume`, `Pool.Holds.countP_le_one`: counting calls.
* `Pool.perm_filterMap_resume`: what is read off the calls.
-/

set_option autoImplicit false

namespace Foundation

/-- A shared state and the local states of the calls. -/
structure Pool (S L : Type) where
  shared : S
  calls : List L

namespace Pool

variable {S L E : Type}

/-- Nothing has been called. -/
def idle (s : S) : Pool S L := ⟨s, []⟩

/-- A call is made. -/
def start (p : Pool S L) (l : L) : Pool S L := { p with calls := p.calls ++ [l] }

/-- A call takes its turn. -/
def resume (step : S → L → E → S × L) (p : Pool S L) (i : ℕ) (e : E) : Pool S L :=
  match p.calls[i]? with
  | none => p
  | some l => ⟨(step p.shared l e).1, p.calls.set i (step p.shared l e).2⟩

/-- The shared state changes. -/
def act (f : S → S) (p : Pool S L) : Pool S L := { p with shared := f p.shared }

variable {step : S → L → E → S × L} {p : Pool S L} {i : ℕ} {e : E} {l : L}

@[simp] theorem shared_start : (p.start l).shared = p.shared := rfl

theorem resume_of_none (h : p.calls[i]? = none) : p.resume step i e = p := by
  simp only [resume, h]

theorem resume_of_some (h : p.calls[i]? = some l) :
    p.resume step i e = ⟨(step p.shared l e).1, p.calls.set i (step p.shared l e).2⟩ := by
  simp only [resume, h]

/-- A turn in which nothing happens. -/
theorem resume_of_same (h : p.calls[i]? = some l) (hstep : step p.shared l e = (p.shared, l)) :
    p.resume step i e = p := by
  obtain ⟨hlt, hl⟩ := List.getElem?_eq_some_iff.1 h
  rw [resume_of_some h, hstep]
  exact congrArg (Pool.mk p.shared) (hl ▸ List.set_getElem_self hlt)

/-- What the turn of a call makes of the shared state. -/
theorem shared_resume : (p.resume step i e).shared =
    (p.calls[i]?).elim p.shared fun l => (step p.shared l e).1 := by
  cases h : p.calls[i]? with
  | none => rw [resume_of_none h, Option.elim_none]
  | some l => rw [resume_of_some h, Option.elim_some]

/-- A call that is there when another one has been made. -/
theorem getElem?_start {j : ℕ} {k : L} (h : (p.start l).calls[j]? = some k) :
    p.calls[j]? = some k ∨ j = p.calls.length ∧ k = l := by
  rw [Pool.start, List.getElem?_append] at h
  split_ifs at h with hlt
  · exact .inl h
  · rw [List.getElem?_singleton] at h
    split_ifs at h with hj
    exact .inr ⟨by omega, (Option.some.inj h).symm⟩

/-- A call that is there when one has taken its turn. -/
theorem getElem?_set {calls : List L} {j : ℕ} {k : L} (h : (calls.set i l)[j]? = some k) :
    j = i ∧ k = l ∨ j ≠ i ∧ calls[j]? = some k := by
  rw [List.getElem?_set] at h
  split_ifs at h with hij
  · exact .inl ⟨hij.symm, (Option.some.inj h).symm⟩
  · exact .inr ⟨fun hji => hij hji.symm, h⟩

/-- A call stays when another one is made. -/
theorem getElem?_start_of_some {j : ℕ} {k : L} (h : p.calls[j]? = some k) :
    (p.start l).calls[j]? = some k :=
  (List.getElem?_append_left (List.getElem?_eq_some_iff.1 h).1).trans h

/-- A call stays when another one takes its turn. -/
theorem getElem?_resume_of_ne {j : ℕ} (h : i ≠ j) :
    (p.resume step i e).calls[j]? = p.calls[j]? := by
  cases hl : p.calls[i]? with
  | none => rw [resume_of_none hl]
  | some l =>
    rw [resume_of_some hl]
    exact List.getElem?_set_ne h

/-- A call that takes its turn. -/
theorem getElem?_resume_self (h : p.calls[i]? = some l) :
    (p.resume step i e).calls[i]? = some (step p.shared l e).2 := by
  rw [resume_of_some h]
  exact List.getElem?_set_self (List.getElem?_eq_some_iff.1 h).1

/-- A turn makes no call. -/
@[simp] theorem length_resume : (p.resume step i e).calls.length = p.calls.length := by
  cases hl : p.calls[i]? with
  | none => rw [resume_of_none hl]
  | some l => rw [resume_of_some hl, List.length_set]

/-- The number of calls of some kind after a call is made. -/
theorem countP_start (P : L → Bool) :
    (p.start l).calls.countP P = p.calls.countP P + if P l then 1 else 0 := by
  rw [start, List.countP_append, List.countP_singleton]

/-- The number of calls of some kind changes with the kind of the call that takes its turn. -/
theorem countP_resume (step : S → L → E → S × L) (e : E) (P : L → Bool)
    (h : p.calls[i]? = some l) :
    (p.resume step i e).calls.countP P + (if P l then 1 else 0) =
      p.calls.countP P + if P (step p.shared l e).2 then 1 else 0 := by
  obtain ⟨hlt, hl⟩ := List.getElem?_eq_some_iff.1 h
  have hpos : (if P l then 1 else 0) ≤ p.calls.countP P := by
    split_ifs with hP
    · exact List.countP_pos_iff.2 ⟨l, hl ▸ List.getElem_mem hlt, hP⟩
    · exact Nat.zero_le _
  rw [resume_of_some h, List.countP_set hlt, hl]
  omega

/-- What is read off the calls changes with what is read off the call that takes its turn. -/
theorem perm_filterMap_resume {A : Type} (step : S → L → E → S × L) (e : E) (f : L → Option A)
    (h : p.calls[i]? = some l) :
    ((p.resume step i e).calls.filterMap f ++ (f l).toList).Perm
      (p.calls.filterMap f ++ (f (step p.shared l e).2).toList) := by
  obtain ⟨hlt, hl⟩ := List.getElem?_eq_some_iff.1 h
  obtain ⟨pre, post, hcalls, -, hset⟩ : ∃ pre post, p.calls = pre ++ p.calls[i] :: post ∧
      pre.length = i ∧ p.calls.set i (step p.shared l e).2 = pre ++ (step p.shared l e).2 :: post :=
    List.exists_of_set hlt
  have hcons : ∀ k : L, (pre ++ k :: post).filterMap f =
      pre.filterMap f ++ ((f k).toList ++ post.filterMap f) := by
    intro k
    rw [List.filterMap_append, List.filterMap_cons]
    cases f k <;> rfl
  have hswap : ∀ xs ys zs : List A, (xs ++ (zs ++ ys)).Perm (ys ++ (zs ++ xs)) := by
    intro xs ys zs
    rw [← List.append_assoc ys]
    exact List.perm_append_comm.trans (List.perm_append_comm.append_right xs)
  have hbefore : p.calls.filterMap f = pre.filterMap f ++ ((f l).toList ++ post.filterMap f) := by
    rw [← hl, ← hcons, ← hcalls]
  rw [resume_of_some h, hset, hcons, hbefore]
  simp only [List.append_assoc]
  exact (hswap _ _ _).append_left _

/-! ### Invariants -/

/-- The shared state satisfies `Inv`, each call `Local`, and any two calls `Apart`. -/
structure Holds (Inv : S → Prop) (Local : S → L → Prop) (Apart : S → L → L → Prop)
    (p : Pool S L) : Prop where
  shared : Inv p.shared
  each : ∀ (i : ℕ) (l : L), p.calls[i]? = some l → Local p.shared l
  apart : ∀ (i j : ℕ) (l k : L), i ≠ j → p.calls[i]? = some l → p.calls[j]? = some k →
    Apart p.shared l k

variable {Inv : S → Prop} {Local : S → L → Prop} {Apart : S → L → L → Prop}

theorem holds_idle {s : S} (h : Inv s) : (idle s : Pool S L).Holds Inv Local Apart :=
  ⟨h, fun _ _ h => by simp [idle] at h, fun _ _ _ _ _ h => by simp [idle] at h⟩

namespace Holds

/-- What a new call has to satisfy. -/
theorem start (h : p.Holds Inv Local Apart) (hnew : Local p.shared l)
    (hapart : ∀ (i : ℕ) (k : L), p.calls[i]? = some k → Apart p.shared l k ∧ Apart p.shared k l) :
    (p.start l).Holds Inv Local Apart := by
  refine ⟨h.shared, fun i k hk => ?_, fun i j k k' hij hk hk' => ?_⟩
  · rcases getElem?_start hk with hk | ⟨-, rfl⟩
    · exact h.each i k hk
    · exact hnew
  · rcases getElem?_start hk with hold | ⟨rfl, rfl⟩ <;>
      rcases getElem?_start hk' with hold' | ⟨rfl, rfl⟩
    · exact h.apart i j k k' hij hold hold'
    · exact (hapart i k hold).2
    · exact (hapart j k' hold').1
    · exact absurd rfl hij

/-- **Interference.** The turn of a call keeps the invariant if what it leaves satisfies it for the
call itself, for every other call, and for any two others. -/
theorem resume (h : p.Holds Inv Local Apart)
    (hturn : ∀ l, p.calls[i]? = some l →
      Inv (step p.shared l e).1 ∧ Local (step p.shared l e).1 (step p.shared l e).2)
    (hother : ∀ l, p.calls[i]? = some l → ∀ (j : ℕ) (k : L), j ≠ i → p.calls[j]? = some k →
      Local (step p.shared l e).1 k ∧
        Apart (step p.shared l e).1 (step p.shared l e).2 k ∧
          Apart (step p.shared l e).1 k (step p.shared l e).2)
    (hothers : ∀ l, p.calls[i]? = some l → ∀ k k', Apart p.shared k k' →
      Apart (step p.shared l e).1 k k') :
    (p.resume step i e).Holds Inv Local Apart := by
  cases hl : p.calls[i]? with
  | none =>
    rw [resume_of_none hl]
    exact h
  | some l =>
    have hother := hother l hl
    rw [resume_of_some hl]
    refine ⟨(hturn l hl).1, fun j k hk => ?_, fun j j' k k' hjj' hk hk' => ?_⟩
    · rcases getElem?_set hk with ⟨-, rfl⟩ | ⟨hji, hk⟩
      · exact (hturn l hl).2
      · exact (hother j k hji hk).1
    · rcases getElem?_set hk with ⟨rfl, rfl⟩ | ⟨hji, hold⟩ <;>
        rcases getElem?_set hk' with ⟨rfl, rfl⟩ | ⟨hji', hold'⟩
      · exact absurd rfl hjj'
      · exact (hother j' k' hji' hold').2.1
      · exact (hother j k hji hold).2.2
      · exact hothers l hl k k' (h.apart j j' k k' hjj' hold hold')

/-- **Handling.** Let at most one call handle a thing. A turn keeps this, with the invariants, if
the call has handled the thing before or takes it when no other call handles it, and if it leaves
alone the calls that do not handle it together with the call. -/
theorem resume_handling {Handles : L → Prop}
    (h : p.Holds Inv Local fun _ l k => ¬ (Handles l ∧ Handles k))
    (hturn : ∀ l, p.calls[i]? = some l →
      Inv (step p.shared l e).1 ∧ Local (step p.shared l e).1 (step p.shared l e).2)
    (hother : ∀ l, p.calls[i]? = some l → ∀ k, Local p.shared k → ¬ (Handles l ∧ Handles k) →
      Local (step p.shared l e).1 k)
    (htakes : ∀ l, p.calls[i]? = some l → Handles (step p.shared l e).2 → Handles l ∨
      ∀ (j : ℕ) (k : L), j ≠ i → p.calls[j]? = some k → ¬ Handles k) :
    (p.resume step i e).Holds Inv Local fun _ l k => ¬ (Handles l ∧ Handles k) := by
  refine h.resume hturn (fun l hl j k hji hk => ?_) fun _ _ _ _ hapart => hapart
  have hapart := h.apart i j l k hji.symm hl hk
  have hapart' : ¬ (Handles (step p.shared l e).2 ∧ Handles k) := by
    rintro ⟨hnew, hhandles⟩
    rcases htakes l hl hnew with hold | hnone
    · exact hapart ⟨hold, hhandles⟩
    · exact hnone j k hji hk hhandles
  exact ⟨hother l hl k (h.each j k hk) hapart, hapart', fun hboth => hapart' hboth.symm⟩

/-- What a change of the shared state has to keep. -/
theorem act {f : S → S} (h : p.Holds Inv Local Apart) (hshared : Inv (f p.shared))
    (heach : ∀ l ∈ p.calls, Local p.shared l → Local (f p.shared) l)
    (hapart : ∀ l k, Apart p.shared l k → Apart (f p.shared) l k) :
    (p.act f).Holds Inv Local Apart :=
  ⟨hshared, fun i l hl => heach l (List.mem_of_getElem? hl) (h.each i l hl),
    fun i j l k hij hl hk => hapart l k (h.apart i j l k hij hl hk)⟩

/-- At most one call is of a kind that excludes itself. -/
theorem countP_le_one {P : L → Bool} (h : p.Holds Inv Local Apart)
    (hapart : ∀ l k, Apart p.shared l k → ¬ (P l = true ∧ P k = true)) :
    p.calls.countP P ≤ 1 := by
  have hcount : ∀ calls : List L, (∀ (i j : ℕ) (l k : L), i ≠ j → calls[i]? = some l →
      calls[j]? = some k → ¬ (P l = true ∧ P k = true)) → calls.countP P ≤ 1 := by
    intro calls hcalls
    induction calls with
    | nil => exact Nat.zero_le _
    | cons l calls ih =>
      rw [List.countP_cons]
      split_ifs with hP
      · have hzero : calls.countP P = 0 := by
          refine List.countP_eq_zero.2 fun k hk hPk => ?_
          obtain ⟨j, hj⟩ := List.mem_iff_getElem?.1 hk
          exact hcalls 0 (j + 1) l k (by omega) rfl hj ⟨hP, hPk⟩
        omega
      · exact ih fun i j l k hij hl hk => hcalls (i + 1) (j + 1) l k (by omega) hl hk
  exact hcount p.calls fun i j l k hij hl hk => hapart l k (h.apart i j l k hij hl hk)

end Holds

/-! ### Later calls -/

/-- The calls from the `n`-th on satisfy `Local`. -/
def Since (n : ℕ) (Local : S → L → Prop) (p : Pool S L) : Prop :=
  ∀ (i : ℕ) (l : L), n ≤ i → p.calls[i]? = some l → Local p.shared l

/-- No call has been made since. -/
theorem since_length : p.Since p.calls.length Local := by
  intro i l hi hl
  have hlt : i < p.calls.length := (List.getElem?_eq_some_iff.1 hl).1
  omega

namespace Since

variable {n : ℕ}

theorem start (h : p.Since n Local) (hnew : Local p.shared l) : (p.start l).Since n Local := by
  intro i k hi hk
  rcases getElem?_start hk with hk | ⟨-, rfl⟩
  · exact h i k hi hk
  · exact hnew

/-- A turn keeps the invariant for the call itself and does not interfere with the others. -/
theorem resume (h : p.Since n Local)
    (hturn : ∀ l, p.calls[i]? = some l → Local p.shared l →
      Local (step p.shared l e).1 (step p.shared l e).2)
    (hother : ∀ l, p.calls[i]? = some l → ∀ k, Local p.shared k → Local (step p.shared l e).1 k) :
    (p.resume step i e).Since n Local := by
  cases hl : p.calls[i]? with
  | none =>
    rw [resume_of_none hl]
    exact h
  | some l =>
    rw [resume_of_some hl]
    intro j k hj hk
    rcases getElem?_set hk with ⟨rfl, rfl⟩ | ⟨-, hk⟩
    · exact hturn l hl (h j l hj hl)
    · exact hother l hl k (h j k hj hk)

end Since

/-! ### Names -/

/-- Every call has a name of its own and may spend it once: `spent` are the names that have been
spent, and `name` is the one that a call has yet to spend. -/
structure Spending {N : Type} (names : ℕ → N) (name : L → Option N) (spent : S → List N)
    (p : Pool S L) : Prop where
  nodup : (spent p.shared).Nodup
  own : ∀ (i : ℕ) l, p.calls[i]? = some l → ∀ n ∈ name l, n = names i
  gone : ∀ n ∈ spent p.shared, ∃ (i : ℕ) (l : L), n = names i ∧ p.calls[i]? = some l ∧ name l = none

namespace Spending

variable {N : Type} {names : ℕ → N} {name : L → Option N} {spent : S → List N}

theorem idle {s : S} (h : spent s = []) : (Pool.idle s : Pool S L).Spending names name spent :=
  ⟨h ▸ List.nodup_nil, fun _ _ h => by simp [Pool.idle] at h,
    fun n hn => by simp [Pool.idle, h] at hn⟩

/-- A new call has the next name. -/
theorem start (h : p.Spending names name spent) (hnew : ∀ n ∈ name l, n = names p.calls.length) :
    (p.start l).Spending names name spent := by
  refine ⟨h.nodup, fun i k hk n hn => ?_, fun n hn => ?_⟩
  · rcases getElem?_start hk with hk | ⟨rfl, rfl⟩
    · exact h.own i k hk n hn
    · exact hnew n hn
  · obtain ⟨i, k, heq, hk, hnone⟩ := h.gone n hn
    refine ⟨i, k, heq, ?_, hnone⟩
    exact getElem?_start_of_some hk

/-- A turn spends nothing, or the name of the call. -/
theorem resume (h : p.Spending names name spent) (hnames : Function.Injective names)
    (hturn : ∀ l, p.calls[i]? = some l →
      (∀ n ∈ name (step p.shared l e).2, n ∈ name l) ∧
        (spent (step p.shared l e).1 = spent p.shared ∨
          ∃ n ∈ name l, spent (step p.shared l e).1 = spent p.shared ++ [n] ∧
            name (step p.shared l e).2 = none)) :
    (p.resume step i e).Spending names name spent := by
  cases hl : p.calls[i]? with
  | none =>
    rw [resume_of_none hl]
    exact h
  | some l =>
    obtain ⟨hkeep, hspent⟩ := hturn l hl
    have hlt : i < p.calls.length := (List.getElem?_eq_some_iff.1 hl).1
    rw [resume_of_some hl]
    have hgone : ∀ n ∈ spent p.shared, ∃ (j : ℕ) (k : L), n = names j ∧
        (p.calls.set i (step p.shared l e).2)[j]? = some k ∧ name k = none := by
      intro n hn
      obtain ⟨j, k, heq, hk, hnone⟩ := h.gone n hn
      by_cases hij : i = j
      · subst hij
        obtain rfl := Option.some.inj (hl.symm.trans hk)
        refine ⟨i, _, heq, List.getElem?_set_self hlt, ?_⟩
        exact Option.eq_none_iff_forall_not_mem.2 fun m hm => by
          rw [hnone] at hkeep
          exact absurd (hkeep m hm) nofun
      · exact ⟨j, k, heq, (List.getElem?_set_ne hij).trans hk, hnone⟩
    have hown : ∀ (j : ℕ) k, (p.calls.set i (step p.shared l e).2)[j]? = some k →
        ∀ n ∈ name k, n = names j := by
      intro j k hk n hn
      rcases getElem?_set hk with ⟨rfl, rfl⟩ | ⟨-, hk⟩
      · exact h.own j l hl n (hkeep n hn)
      · exact h.own j k hk n hn
    rcases hspent with hsame | ⟨n, hn, hspent, hnone⟩
    · exact ⟨hsame.symm ▸ h.nodup, hown, fun n hn => hgone n (hsame ▸ hn)⟩
    · -- the name of the call is new: the calls that have spent theirs are others
      have hfresh : n ∉ spent p.shared := by
        intro hmem
        obtain ⟨j, k, heq, hk, hknone⟩ := h.gone n hmem
        obtain rfl := hnames ((h.own i l hl n hn).symm.trans heq)
        obtain rfl := Option.some.inj (hl.symm.trans hk)
        rw [hknone] at hn
        exact absurd hn nofun
      refine ⟨?_, hown, fun m hm => ?_⟩
      · rw [hspent, ← List.concat_eq_append]
        exact h.nodup.concat hfresh
      · rw [hspent] at hm
        rcases List.mem_append.1 hm with hm | hm
        · exact hgone m hm
        · obtain rfl := List.mem_singleton.1 hm
          exact ⟨i, _, h.own i l hl m hn, List.getElem?_set_self hlt, hnone⟩

/-- A change of the shared state spends nothing. -/
theorem act {f : S → S} (h : p.Spending names name spent)
    (hspent : spent (f p.shared) = spent p.shared) : (p.act f).Spending names name spent :=
  ⟨hspent.symm ▸ h.nodup, h.own, fun n hn => h.gone n (hspent ▸ hn)⟩

end Spending

end Pool

end Foundation
