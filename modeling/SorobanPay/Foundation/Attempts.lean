import Mathlib.Data.List.Basic
import Mathlib.Tactic.Common

/-!
# Computations that may throw

`Succeeds x` says that `x` does not throw. A chain succeeds if its parts do, a choice if the chosen
part does, and a loop if every round does, as long as this depends on the element alone.

## Main definitions

* `Succeeds`: computations that do not throw.

## Main results

* `bind_eq_ok_iff`, `succeeds_bind`: chains.
* `succeeds_mapM`, `succeeds_foldlM`: loops.
* `mapM_of_forall`, `foldlM_of_forall`: what loops return whose rounds do not throw.
-/

set_option autoImplicit false

namespace Foundation

variable {ε α β : Type}

/-- The computation does not throw. -/
def Succeeds (x : Except ε α) : Prop := ∃ a, x = .ok a

@[simp] theorem succeeds_ok (a : α) : Succeeds (.ok a : Except ε α) := ⟨a, rfl⟩

@[simp] theorem pure_eq_ok (a : α) : (pure a : Except ε α) = .ok a := rfl

@[simp] theorem not_succeeds_error (e : ε) : ¬ Succeeds (.error e : Except ε α) := by
  rintro ⟨a, h⟩
  cases h

@[simp] theorem throw_eq_error (e : ε) : (throw e : Except ε α) = .error e := rfl

theorem exists_error {x : Except ε α} (h : ¬ Succeeds x) : ∃ e, x = .error e := by
  cases x with
  | error e => exact ⟨e, rfl⟩
  | ok a => exact absurd (succeeds_ok a) h

@[simp] theorem bind_ok (a : α) (f : α → Except ε β) : (Except.ok a >>= f) = f a := rfl

@[simp] theorem bind_error (e : ε) (f : α → Except ε β) : (Except.error e >>= f) = .error e := rfl

/-- What a chain returns. -/
theorem bind_eq_ok_iff {x : Except ε α} {f : α → Except ε β} {b : β} :
    x >>= f = .ok b ↔ ∃ a, x = .ok a ∧ f a = .ok b := by
  cases x <;> simp

/-- A chain succeeds if its parts do. -/
theorem succeeds_bind {x : Except ε α} {f : α → Except ε β} :
    Succeeds (x >>= f) ↔ ∃ a, x = .ok a ∧ Succeeds (f a) := by
  simp only [Succeeds, bind_eq_ok_iff]
  rw [exists_comm]
  exact exists_congr fun a => exists_and_left

theorem succeeds_bind_of_ok {x : Except ε α} {f : α → Except ε β} {a : α} (h : x = .ok a) :
    Succeeds (x >>= f) ↔ Succeeds (f a) := by
  subst h
  exact Iff.rfl

/-- A step that only fails does not change what succeeds after it. -/
theorem succeeds_bind_of_forall {x : Except ε α} {f : α → Except ε β} {P : Prop}
    (h : ∀ a, x = .ok a → (Succeeds (f a) ↔ P)) : Succeeds (x >>= f) ↔ Succeeds x ∧ P := by
  rw [succeeds_bind]
  constructor
  · rintro ⟨a, ha, hf⟩
    exact ⟨⟨a, ha⟩, (h a ha).1 hf⟩
  · rintro ⟨⟨a, ha⟩, hP⟩
    exact ⟨a, ha, (h a ha).2 hP⟩

theorem succeeds_map {f : α → β} {x : Except ε α} : Succeeds (x.map f) ↔ Succeeds x := by
  cases x <;> simp [Except.map]

/-- A loop that collects succeeds if every round does. -/
theorem succeeds_mapM {f : α → Except ε β} {l : List α} :
    Succeeds (l.mapM f) ↔ ∀ a ∈ l, Succeeds (f a) := by
  induction l with
  | nil => simp
  | cons a l ih =>
    rw [List.mapM_cons, List.forall_mem_cons, ← ih]
    exact succeeds_bind_of_forall fun b _ => by
      rw [succeeds_bind_of_forall (P := True) fun _ _ => by simp, and_true]

/-- What a loop collects whose rounds do not throw. -/
theorem mapM_of_forall {f : α → Except ε β} {g : α → β} {l : List α}
    (h : ∀ a ∈ l, f a = .ok (g a)) : l.mapM f = .ok (l.map g) := by
  induction l with
  | nil => rfl
  | cons a l ih =>
    obtain ⟨ha, hl⟩ := List.forall_mem_cons.1 h
    rw [List.mapM_cons, ha, ih hl]
    rfl

/-- A loop that joins lists returns none but empty ones if its rounds do. -/
theorem map_flatten_mapM_eq_nil_iff {f : α → Except ε (List β)} {l : List α} :
    (l.mapM f).map List.flatten = .ok [] ↔ ∀ a ∈ l, f a = .ok [] := by
  induction l with
  | nil => simp [Except.map]
  | cons a l ih =>
    rw [List.mapM_cons, List.forall_mem_cons, ← ih]
    rcases f a with e | b
    · simp [Except.map]
    · rcases l.mapM f with e | bs
      · simp [Except.map]
      · simp [Except.map]

/-- What a loop accumulates whose rounds do not throw on accumulators of some kind. -/
theorem foldlM_of_forall {γ : Type} (toAcc : γ → β) {f : β → α → Except ε β} {g : γ → α → γ}
    {l : List α} (h : ∀ c, ∀ a ∈ l, f (toAcc c) a = .ok (toAcc (g c a))) (c : γ) :
    l.foldlM f (toAcc c) = .ok (toAcc (l.foldl g c)) := by
  induction l generalizing c with
  | nil => rfl
  | cons a l ih =>
    rw [List.foldlM_cons, h c a List.mem_cons_self, bind_ok,
      ih fun c b hb => h c b (List.mem_cons_of_mem _ hb)]
    rfl

/-- A loop that accumulates succeeds if every round does. -/
theorem succeeds_foldlM {f : β → α → Except ε β} {P : α → Prop}
    (h : ∀ b a, Succeeds (f b a) ↔ P a) {l : List α} {b : β} :
    Succeeds (l.foldlM f b) ↔ ∀ a ∈ l, P a := by
  induction l generalizing b with
  | nil => simp
  | cons a l ih =>
    rw [List.foldlM_cons, List.forall_mem_cons, succeeds_bind_of_forall fun c _ => ih, h]

end Foundation
