import Mathlib.Tactic.Common

/-!
# Fallible stateful computations and their commit rule

A `Tx S ε α` reads and writes a state `S` and ends either with a value or with an error. A
computation that fails still leaves behind what it wrote before the failure; it is the host that
undoes those writes, by the rule `Tx.commit`: a run that ends in an error restores the state it
started from.

Two relations describe the runs of a computation. `x.Returns s a s'` says that `x`, started in
`s`, ends with the value `a` in the state `s'`; `x.Fails s e` says that it ends with the error
`e`. Each combinator has one lemma for either relation, so that unfolding a computation with
`simp` turns a statement about its runs into the conjunction of the checks it makes.

## Main definitions

* `Tx`, `Tx.commit`: computations and the commit rule.
* `Tx.Returns`, `Tx.Fails`: the two ways a run can end.
* `Tx.failIf`, `Tx.orFail`, `Tx.orElse`, `Tx.gets`, `Tx.modify`: guards, handlers and state access.
* `Tx.Keeps`, `Tx.Maintains`: a part of the state is left alone, and an invariant maintained,
  however the run ends.
* `Outcome`, `DbReply`, `Tx.ask`, `Tx.tell`: calls of a service that may fail, or take effect
  without a reply.

## Main results

* `Tx.returns_bind`, `Tx.fails_bind`: how runs compose.
* `Tx.returns_or_fails`: every run ends.
-/

set_option autoImplicit false

namespace Foundation

/-- A computation over a state `S` that ends with a value or with an error. -/
def Tx (S ε α : Type) : Type := S → Except ε α × S

namespace Tx

variable {S ε α β : Type}

/-- Run a computation from a state. -/
def run (x : Tx S ε α) (s : S) : Except ε α × S := x s

instance : Monad (Tx S ε) where
  pure a := fun s => (.ok a, s)
  bind x f := fun s =>
    match x s with
    | (.ok a, s') => f a s'
    | (.error e, s') => (.error e, s')

/-- Stop with an error. -/
def fail (e : ε) : Tx S ε α := fun s => (.error e, s)

/-- Stop with an error when a condition holds. -/
def failIf (c : Prop) [Decidable c] (e : ε) : Tx S ε Unit :=
  if c then fail e else pure ()

/-- The value of an option, or an error when there is none. -/
def orFail (o : Option α) (e : ε) : Tx S ε α :=
  match o with
  | some a => pure a
  | none => fail e

/-- Read a part of the state. -/
def gets (f : S → α) : Tx S ε α := fun s => (.ok (f s), s)

/-- Change the state. -/
def modify (f : S → S) : Tx S ε Unit := fun s => (.ok (), f s)

/-- Run another computation where one fails, from the state that it leaves. -/
def orElse (x y : Tx S ε α) : Tx S ε α := fun s =>
  match x.run s with
  | (.ok a, s') => (.ok a, s')
  | (.error _, s') => y.run s'

/-- The commit rule: a run that ends in an error leaves the state as it was. -/
def commit (x : Tx S ε α) (s : S) : Except ε α × S :=
  match x.run s with
  | (.ok a, s') => (.ok a, s')
  | (.error e, _) => (.error e, s)

/-- The computation ends with a value. -/
def Returns (x : Tx S ε α) (s : S) (a : α) (s' : S) : Prop := x.run s = (.ok a, s')

/-- The computation ends with an error. -/
def Fails (x : Tx S ε α) (s : S) (e : ε) : Prop := ∃ s', x.run s = (.error e, s')

theorem run_pure (a : α) (s : S) : (pure a : Tx S ε α).run s = (.ok a, s) := rfl

theorem run_bind (x : Tx S ε α) (f : α → Tx S ε β) (s : S) :
    (x >>= f).run s = match x.run s with
      | (.ok a, s') => (f a).run s'
      | (.error e, s') => (.error e, s') := rfl

theorem run_fail (e : ε) (s : S) : (fail e : Tx S ε α).run s = (.error e, s) := rfl

theorem run_gets (f : S → α) (s : S) : (gets f : Tx S ε α).run s = (.ok (f s), s) := rfl

theorem run_modify (f : S → S) (s : S) : (modify f : Tx S ε Unit).run s = (.ok (), f s) := rfl

theorem run_failIf (c : Prop) [Decidable c] (e : ε) (s : S) :
    (failIf c e : Tx S ε Unit).run s = (if c then .error e else .ok (), s) := by
  unfold failIf
  split_ifs <;> rfl

theorem run_orElse (x y : Tx S ε α) (s : S) :
    (x.orElse y).run s = match x.run s with
      | (.ok a, s') => (.ok a, s')
      | (.error _, s') => y.run s' := rfl

theorem run_forM_cons (f : β → Tx S ε PUnit) (b : β) (l : List β) :
    (b :: l).forM f = f b >>= fun _ => l.forM f := rfl

/-! ### Runs that return -/

section Returns

variable {x : Tx S ε α} {f : α → Tx S ε β} {s s' : S} {a : α} {b : β} {e : ε}

@[simp] theorem returns_pure {a' : α} : (pure a : Tx S ε α).Returns s a' s' ↔ a = a' ∧ s = s' := by
  rw [Returns, run_pure, Prod.mk.injEq, Except.ok.injEq]

@[simp] theorem returns_bind :
    (x >>= f).Returns s b s' ↔ ∃ a t, x.Returns s a t ∧ (f a).Returns t b s' := by
  unfold Returns
  rw [run_bind]
  constructor
  · intro h
    rcases hx : x.run s with ⟨e | a, t⟩
    · simp [hx] at h
    · rw [hx] at h
      exact ⟨a, t, rfl, h⟩
  · rintro ⟨a, t, hx, hf⟩
    rw [hx]
    exact hf

@[simp] theorem returns_fail : ¬ (fail e : Tx S ε α).Returns s a s' :=
  fun h => by simp [Returns, run, fail] at h

@[simp] theorem returns_failIf {c : Prop} [Decidable c] {u : Unit} :
    (failIf c e : Tx S ε Unit).Returns s u s' ↔ ¬ c ∧ s = s' := by
  unfold failIf
  split_ifs with h <;> simp [h]

@[simp] theorem returns_orFail {o : Option α} :
    (orFail o e : Tx S ε α).Returns s a s' ↔ o = some a ∧ s = s' := by
  cases o <;> simp [orFail]

@[simp] theorem returns_gets {g : S → α} :
    (gets g : Tx S ε α).Returns s a s' ↔ g s = a ∧ s = s' := by
  simp [Returns, run, gets]

@[simp] theorem returns_modify {g : S → S} {u : Unit} :
    (modify g : Tx S ε Unit).Returns s u s' ↔ g s = s' := by
  simp [Returns, run, modify]

@[simp] theorem returns_ite {c : Prop} [Decidable c] {y z : Tx S ε α} :
    (if c then y else z).Returns s a s' ↔ if c then y.Returns s a s' else z.Returns s a s' := by
  split_ifs <;> rfl

/-- A computation followed by a constant. -/
@[simp] theorem returns_bind_const {x : Tx S ε Unit} {b' : β} :
    (x >>= fun _ => (pure b : Tx S ε β)).Returns s b' s' ↔ x.Returns s () s' ∧ b = b' := by
  rw [returns_bind]
  constructor
  · rintro ⟨_, t, hx, hpure⟩
    obtain ⟨rfl, rfl⟩ := returns_pure.1 hpure
    exact ⟨hx, rfl⟩
  · rintro ⟨hx, rfl⟩
    exact ⟨(), s', hx, returns_pure.2 ⟨rfl, rfl⟩⟩

end Returns

/-! ### Runs that fail -/

section Fails

variable {x : Tx S ε α} {f : α → Tx S ε β} {s : S} {a : α} {e e' : ε}

@[simp] theorem fails_pure : ¬ (pure a : Tx S ε α).Fails s e :=
  fun ⟨_, h⟩ => by simp [run, pure] at h

@[simp] theorem fails_bind :
    (x >>= f).Fails s e ↔ x.Fails s e ∨ ∃ a t, x.Returns s a t ∧ (f a).Fails t e := by
  unfold Fails Returns
  simp only [run_bind]
  constructor
  · rintro ⟨s', h⟩
    rcases hx : x.run s with ⟨e' | a, t⟩ <;> rw [hx] at h
    · obtain ⟨rfl, rfl⟩ : e' = e ∧ t = s' := by simpa using h
      exact Or.inl ⟨t, rfl⟩
    · exact Or.inr ⟨a, t, rfl, s', h⟩
  · rintro (⟨s', h⟩ | ⟨a, t, hx, s', h⟩)
    · exact ⟨s', by rw [h]⟩
    · exact ⟨s', by rw [hx]; exact h⟩

@[simp] theorem fails_fail : (fail e' : Tx S ε α).Fails s e ↔ e' = e := by
  simp [Fails, run, fail]

@[simp] theorem fails_failIf {c : Prop} [Decidable c] :
    (failIf c e' : Tx S ε Unit).Fails s e ↔ c ∧ e' = e := by
  unfold failIf
  split_ifs with h <;> simp [h]

@[simp] theorem fails_orFail {o : Option α} :
    (orFail o e' : Tx S ε α).Fails s e ↔ o = none ∧ e' = e := by
  cases o <;> simp [orFail]

@[simp] theorem fails_gets {g : S → α} : ¬ (gets g : Tx S ε α).Fails s e := by
  simp [Fails, run, gets]

@[simp] theorem fails_modify {g : S → S} : ¬ (modify g : Tx S ε Unit).Fails s e := by
  simp [Fails, run, modify]

@[simp] theorem fails_ite {c : Prop} [Decidable c] {y z : Tx S ε α} :
    (if c then y else z).Fails s e ↔ if c then y.Fails s e else z.Fails s e := by
  split_ifs <;> rfl

theorem fails_iff : x.Fails s e ↔ (x.run s).1 = .error e :=
  ⟨fun ⟨_, h⟩ => by rw [h], fun h => ⟨_, Prod.ext h rfl⟩⟩

theorem returns_or_fails (x : Tx S ε α) (s : S) :
    (∃ a s', x.Returns s a s') ∨ ∃ e, x.Fails s e := by
  rcases h : x.run s with ⟨e | a, t⟩
  · exact Or.inr ⟨e, t, h⟩
  · exact Or.inl ⟨a, t, h⟩

/-- A run that fails does not return. -/
theorem Fails.not_returns {s' : S} (h : x.Fails s e) : ¬ x.Returns s a s' := by
  obtain ⟨t, ht⟩ := h
  intro hr
  have := ht.symm.trans hr
  simp at this

/-- A run fails exactly if it does not return. -/
theorem exists_fails_iff : (∃ e, x.Fails s e) ↔ ∀ a s', ¬ x.Returns s a s' := by
  constructor
  · rintro ⟨e, hf⟩ a s'
    exact hf.not_returns
  · intro hnone
    rcases x.returns_or_fails s with ⟨a, s', hr⟩ | hf
    · exact absurd hr (hnone a s')
    · exact hf

end Fails

/-! ### The commit rule -/

section Commit

variable {x : Tx S ε α} {s s' : S} {a : α} {e : ε}

theorem commit_of_returns (h : x.Returns s a s') : x.commit s = (.ok a, s') := by
  have h : x.run s = (.ok a, s') := h
  simp only [commit, h]

theorem commit_of_fails (h : x.Fails s e) : x.commit s = (.error e, s) := by
  obtain ⟨t, ht⟩ := h
  simp only [commit, ht]

theorem commit_eq_ok_iff : x.commit s = (.ok a, s') ↔ x.Returns s a s' := by
  refine ⟨fun h => ?_, commit_of_returns⟩
  rcases x.returns_or_fails s with ⟨b, t, hr⟩ | ⟨e, hf⟩
  · rw [commit_of_returns hr] at h
    simp only [Prod.mk.injEq, Except.ok.injEq] at h
    obtain ⟨rfl, rfl⟩ := h
    exact hr
  · simp [commit_of_fails hf] at h

end Commit

/-! ### Parts of the state that are left alone -/

section Keeps

variable {C : Type} {v : S → C} {x : Tx S ε α} {f : α → Tx S ε β}

/-- However it ends, the computation leaves a part of the state as it was. -/
def Keeps (v : S → C) (x : Tx S ε α) : Prop := ∀ s, v (x.run s).2 = v s

theorem keeps_pure (a : α) : Keeps v (pure a : Tx S ε α) := fun _ => rfl

theorem Keeps.bind (hx : Keeps v x) (hf : ∀ a, Keeps v (f a)) : Keeps v (x >>= f) := by
  intro s
  have hs := hx s
  rw [run_bind]
  rcases hrun : x.run s with ⟨e | a, t⟩ <;> rw [hrun] at hs
  · exact hs
  · exact (hf a t).trans hs

theorem Keeps.ite {c : Prop} [Decidable c] {y z : Tx S ε α} (hy : Keeps v y) (hz : Keeps v z) :
    Keeps v (if c then y else z) := by
  split_ifs
  · exact hy
  · exact hz

end Keeps

section Maintains

variable {P : S → Prop} {x : Tx S ε α} {f : α → Tx S ε β}

/-- However it ends, the computation maintains an invariant of the state. -/
def Maintains (P : S → Prop) (x : Tx S ε α) : Prop := ∀ s, P s → P (x.run s).2

theorem maintains_pure (a : α) : Maintains P (pure a : Tx S ε α) := fun _ h => h

theorem Maintains.bind (hx : Maintains P x) (hf : ∀ a, Maintains P (f a)) :
    Maintains P (x >>= f) := by
  intro s hs
  have hmid := hx s hs
  rw [run_bind]
  rcases hrun : x.run s with ⟨e | a, t⟩ <;> rw [hrun] at hmid
  · exact hmid
  · exact hf a t hmid

/-- An invariant of a part that is left alone. -/
theorem Keeps.maintains {C : Type} {v : S → C} {Q : C → Prop} (hx : Keeps v x) :
    Maintains (fun s => Q (v s)) x := fun s hs => (congrArg Q (hx s)).mpr hs

end Maintains

end Tx

/-! ### Calls of a service -/

/-- How the call of a service ends: with a reply, without an effect, or with its effect but without
a reply. -/
inductive Outcome
  | acknowledged
  | failed
  | unacknowledged
  deriving DecidableEq, Repr

/-- How a statement of a database ends, with the text of its error. -/
structure DbReply where
  outcome : Outcome
  err : String
  deriving DecidableEq, Repr

/-- The statement succeeds. -/
def DbReply.done : DbReply := ⟨.acknowledged, ""⟩

namespace Tx

variable {S ε α C : Type} {v : S → C} {outcome : Outcome}

/-- Ask a service whose state is `S`. -/
def ask (outcome : Outcome) (f : S → α) : Tx S Unit α :=
  match outcome with
  | .acknowledged => gets f
  | .failed | .unacknowledged => fail ()

/-- Have a service change its state. -/
def tell (outcome : Outcome) (f : S → S) : Tx S Unit Unit :=
  match outcome with
  | .acknowledged => modify f
  | .failed => fail ()
  | .unacknowledged => do
    modify f
    fail ()

theorem run_ask (f : S → α) (s : S) :
    (ask .acknowledged f).run s = (.ok (f s), s) := rfl

theorem run_tell (f : S → S) (s : S) :
    (tell .acknowledged f).run s = (.ok (), f s) := rfl

/-- What a call answers, and what it leaves. -/
theorem run_tell_eq (f : S → S) (s : S) :
    (tell outcome f).run s =
      (if outcome = .acknowledged then .ok () else .error (),
        if outcome = .failed then s else f s) := by
  cases outcome <;> rfl

theorem keeps_ask (v : S → C) (outcome : Outcome) (f : S → α) : Keeps v (ask outcome f) := by
  cases outcome <;> exact fun _ => rfl

theorem maintains_tell {P : S → Prop} (outcome : Outcome) {f : S → S} (hf : ∀ s, P s → P (f s)) :
    Maintains P (tell outcome f) := by
  cases outcome with
  | acknowledged | unacknowledged => exact hf
  | failed => exact fun _ h => h

theorem keeps_tell (outcome : Outcome) {f : S → S} (hf : ∀ s, v (f s) = v s) :
    Keeps v (tell outcome f) := by
  cases outcome with
  | acknowledged | unacknowledged => exact hf
  | failed => exact fun _ => rfl

/-- What a call leaves, however it ends. -/
theorem run_tell_snd (f : S → S) (s : S) :
    ((tell outcome f).run s).2 = if outcome = .failed then s else f s := by
  cases outcome <;> rfl

end Tx

end Foundation
