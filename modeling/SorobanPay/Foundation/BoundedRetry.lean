import SorobanPay.Foundation.Run

/-!
# Tasks with a bounded number of attempts

The life of a task that is attempted until an attempt succeeds or `max` attempts have failed. It is
created, waits, and each attempt is in flight until it succeeds or fails. The last failure makes the
task dead; a dead task can be revived, which gives it all its attempts again.

`RetryStep max` is the labelled relation of such a life, and the results are about its paths: what
the labels so far say about the state.

## Main definitions

* `RetryState`, `RetryLabel`, `RetryStep`: the life of a task.
* `failuresInARow`, `attemptCount`, `revivalCount`: what is read off the labels.

## Main results

* `RetryStep.done_final`: a task that is done stays so.
* `dead_iff_failuresInARow`: a task is dead exactly if `max` failures in a row have made it so.
* `attemptCount_le`: `max` attempts after the creation and after each revival.
-/

set_option autoImplicit false

namespace Foundation

/-- A task, with the number of its attempts since it was created or revived. -/
inductive RetryState
  | absent
  | waiting (attempts : ℕ)
  | inFlight (attempts : ℕ)
  | done
  | dead
  deriving DecidableEq, Repr

inductive RetryLabel
  | created
  | attempted
  | succeeded
  | failed
  | revived
  deriving DecidableEq, Repr

/-- The steps in the life of a task with at most `max` attempts. -/
inductive RetryStep (max : ℕ) : RetryState → RetryLabel → RetryState → Prop
  | create : RetryStep max .absent .created (.waiting 0)
  | attempt (n : ℕ) : RetryStep max (.waiting n) .attempted (.inFlight (n + 1))
  | succeed (n : ℕ) : RetryStep max (.inFlight n) .succeeded .done
  | fail (n : ℕ) (h : n < max) : RetryStep max (.inFlight n) .failed (.waiting n)
  | exhaust (n : ℕ) (h : max ≤ n) : RetryStep max (.inFlight n) .failed .dead
  | revive : RetryStep max .dead .revived (.waiting 0)

/-- The failures since the last success, creation or revival. -/
def failuresInARow (ls : List RetryLabel) : ℕ :=
  ls.foldl (fun n l => match l with
    | .attempted => n
    | .failed => n + 1
    | .created | .succeeded | .revived => 0) 0

def attemptCount (ls : List RetryLabel) : ℕ := ls.count .attempted

def revivalCount (ls : List RetryLabel) : ℕ := ls.count .revived

variable {max : ℕ} {t t' : RetryState} {l : RetryLabel} {ls : List RetryLabel}

theorem RetryStep.done_final (h : RetryStep max .done l t) : False := nomatch h

/-- What the failures in a row say about a state. -/
def RetryState.Failed (max n : ℕ) : RetryState → Prop
  | .absent | .done => n = 0
  | .waiting k => n = k ∧ k < max
  | .inFlight k => n + 1 = k ∧ k ≤ max
  | .dead => n = max

theorem failed_of_path (hmax : 0 < max) (h : Path (RetryStep max) .absent ls t) :
    t.Failed max (failuresInARow ls) := by
  refine h.labels (fun ls t => t.Failed max (failuresInARow ls)) (fun ls t l t' hn hstep => ?_)
    [] rfl
  rw [failuresInARow, List.foldl_append]
  cases hstep with
  | create | revive => exact ⟨rfl, hmax⟩
  | attempt n => exact ⟨congrArg (· + 1) hn.1, hn.2⟩
  | succeed n => exact rfl
  | fail n hlt => exact ⟨hn.1, hlt⟩
  | exhaust n hle => exact hn.1.trans (le_antisymm hn.2 hle)

/-- **Dead tasks.** A task is dead exactly if its last `max` attempts have failed, one after the
other. -/
theorem dead_iff_failuresInARow (hmax : 0 < max) (h : Path (RetryStep max) .absent ls t) :
    t = .dead ↔ failuresInARow ls = max := by
  have hfailed := failed_of_path hmax h
  cases t with
  | absent | done =>
    have hzero : failuresInARow ls = 0 := hfailed
    exact iff_of_false nofun (by omega)
  | waiting k =>
    obtain ⟨heq, hlt⟩ := hfailed
    exact iff_of_false nofun (by omega)
  | inFlight k =>
    obtain ⟨heq, hle⟩ := hfailed
    exact iff_of_false nofun (by omega)
  | dead => exact iff_of_true rfl hfailed

/-- What the attempts and revivals say about a state. -/
def RetryState.Spent (max attempts revivals : ℕ) : RetryState → Prop
  | .absent => attempts = 0 ∧ revivals = 0
  | .waiting k => attempts = max * revivals + k ∧ k < max
  | .inFlight k => attempts = max * revivals + k ∧ k ≤ max
  | .done => attempts ≤ max * (revivals + 1)
  | .dead => attempts = max * (revivals + 1)

theorem spent_of_path (hmax : 0 < max) (h : Path (RetryStep max) .absent ls t) :
    t.Spent max (attemptCount ls) (revivalCount ls) := by
  refine h.labels (fun ls t => t.Spent max (attemptCount ls) (revivalCount ls))
    (fun ls t l t' hspent hstep => ?_) [] ⟨rfl, rfl⟩
  simp only [attemptCount, revivalCount, List.count_append] at hspent ⊢
  cases hstep with
  | create =>
    obtain ⟨hattempts, hrevivals⟩ := hspent
    simp [RetryState.Spent, hattempts, hrevivals, hmax]
  | attempt n =>
    obtain ⟨hattempts, hlt⟩ := hspent
    exact ⟨by simp [hattempts, Nat.add_assoc], hlt⟩
  | succeed n =>
    obtain ⟨hattempts, hle⟩ := hspent
    simp [RetryState.Spent, hattempts, Nat.mul_add, hle]
  | fail n hlt => exact ⟨by simpa using hspent.1, hlt⟩
  | exhaust n hle =>
    obtain ⟨hattempts, hle'⟩ := hspent
    simp [RetryState.Spent, hattempts, Nat.mul_add, le_antisymm hle' hle]
  | revive =>
    have hattempts : ls.count .attempted = max * (ls.count .revived + 1) := hspent
    exact ⟨by simpa using hattempts, hmax⟩

/-- **Bounded attempts.** There are at most `max` attempts after the creation of a task and after
each of its revivals. -/
theorem attemptCount_le (hmax : 0 < max) (h : Path (RetryStep max) .absent ls t) :
    attemptCount ls ≤ max * (1 + revivalCount ls) := by
  have hspent := spent_of_path hmax h
  rw [Nat.add_comm]
  cases t with
  | absent =>
    rw [hspent.1]
    exact Nat.zero_le _
  | waiting k | inFlight k =>
    obtain ⟨hattempts, hk⟩ := hspent
    rw [Nat.mul_add, Nat.mul_one]
    omega
  | done => exact hspent
  | dead => exact Nat.le_of_eq hspent

end Foundation
