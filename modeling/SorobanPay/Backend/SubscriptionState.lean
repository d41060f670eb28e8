import SorobanPay.Foundation.Run

/-!
# The state machine of a subscription

`lib/subscriptionStateMachine.ts` says how the status of a subscription changes with the events of
the contract. A transition that the table does not have is illegal and leaves the status.

`foldStatus` is the status after some events, from no subscription at all. No subscription is to the
machine as an active one: the first event makes it what it makes an active subscription.

## Main definitions

* `SubscriptionState`, `SubscriptionEventType`, `transition`, `isTerminal`: the state machine.
* `statusStep`, `foldStatus`: the status after an event and after some events.

## Main results

* `transition_eq_none_iff`: the illegal transitions are those from a terminal state, other than to
  subscribe again.
* `foldStatus_isTerminal_iff`: the status is terminal from a cancellation or expiry on, until the
  next subscription.
* `foldStatus_eq_active_iff`: the histories of an active subscription.
-/

set_option autoImplicit false

namespace SorobanPay

open Foundation

/-! ### The machine -/

/-- `SubscriptionState`. -/
inductive SubscriptionState
  | active
  | paused
  | overdue
  | cancelled
  | expired
  deriving DecidableEq, Repr

/-- `SubscriptionEventType`. -/
inductive SubscriptionEventType
  | subscribe
  | executed
  | paymentTransferFailure
  | cancel
  | ttlExpired
  deriving DecidableEq, Repr

/-- `TRANSITIONS`. -/
def transition : SubscriptionState → SubscriptionEventType → Option SubscriptionState
  | .active, .subscribe => some .active
  | .active, .paymentTransferFailure => some .overdue
  | .active, .cancel => some .cancelled
  | .active, .ttlExpired => some .expired
  | .active, .executed => some .active
  | .paused, .subscribe => some .active
  | .paused, .cancel => some .cancelled
  | .paused, .ttlExpired => some .expired
  | .paused, .executed => some .active
  | .paused, .paymentTransferFailure => some .overdue
  | .overdue, .subscribe => some .active
  | .overdue, .executed => some .active
  | .overdue, .cancel => some .cancelled
  | .overdue, .ttlExpired => some .expired
  | .overdue, .paymentTransferFailure => some .overdue
  | .cancelled, .subscribe => some .active
  | .cancelled, _ => none
  | .expired, .subscribe => some .active
  | .expired, _ => none

/-- `isTerminal`, the states of `TERMINAL_STATES`. -/
def isTerminal : SubscriptionState → Bool
  | .cancelled | .expired => true
  | _ => false

/-- The events that end a subscription. -/
def SubscriptionEventType.Ends (e : SubscriptionEventType) : Prop := e = .cancel ∨ e = .ttlExpired

theorem transition_eq_none_iff {st : SubscriptionState} {e : SubscriptionEventType} :
    transition st e = none ↔ isTerminal st = true ∧ e ≠ .subscribe := by
  cases st <;> cases e <;> decide

/-! ### Histories -/

/-- The status after an event. -/
def statusStep (status : Option SubscriptionState) (e : SubscriptionEventType) :
    Option SubscriptionState :=
  (transition (status.getD .active) e).or status

/-- The status after some events, from no subscription. -/
def foldStatus (events : List SubscriptionEventType) : Option SubscriptionState :=
  events.foldl statusStep none

theorem foldStatus_concat (events : List SubscriptionEventType) (e : SubscriptionEventType) :
    foldStatus (events ++ [e]) = statusStep (foldStatus events) e := List.foldl_concat ..

theorem statusStep_ne_none (status : Option SubscriptionState) (e : SubscriptionEventType) :
    statusStep status e ≠ none := by
  rcases status with _ | st
  · cases e <;> decide
  · simp [statusStep]

theorem foldStatus_eq_none_iff {events : List SubscriptionEventType} :
    foldStatus events = none ↔ events = [] := by
  rcases List.eq_nil_or_concat' events with rfl | ⟨pre, e, rfl⟩
  · simp [foldStatus]
  · simp [foldStatus_concat, statusStep_ne_none]

/-- The status is terminal exactly if the subscription has ended and not been made again. -/
theorem foldStatus_isTerminal_iff {events : List SubscriptionEventType} :
    (foldStatus events).any isTerminal = true ↔
      Raised SubscriptionEventType.Ends (· = .subscribe) events := by
  have hstep : ∀ (status : Option SubscriptionState) (e : SubscriptionEventType)
      (status' : Option SubscriptionState), statusStep status e = status' →
      (status'.any isTerminal = true ↔
        e.Ends ∨ status.any isTerminal = true ∧ ¬ e = .subscribe) := by
    rintro (_ | st) e _ rfl
    · cases e <;> simp [statusStep, transition, isTerminal, SubscriptionEventType.Ends]
    · cases st <;> cases e <;>
        simp [statusStep, transition, isTerminal, SubscriptionEventType.Ends]
  have hpath := (path_foldl statusStep none events).flag_iff
    (fun status => status.any isTerminal = true) hstep
  simpa [foldStatus] using hpath

/-- The status is `ACTIVE` exactly if the last event makes a subscription, or collects from one that
has not ended. -/
theorem foldStatus_eq_active_iff {events : List SubscriptionEventType} :
    foldStatus events = some .active ↔
      ∃ pre e, events = pre ++ [e] ∧ (e = .subscribe ∨
        e = .executed ∧ ¬ Raised SubscriptionEventType.Ends (· = .subscribe) pre) := by
  have hstep : ∀ (status : Option SubscriptionState) (e : SubscriptionEventType),
      statusStep status e = some .active ↔
        e = .subscribe ∨ e = .executed ∧ ¬ status.any isTerminal = true := by
    rintro (_ | st) e
    · cases e <;> simp [statusStep, transition]
    · cases st <;> cases e <;> simp [statusStep, transition, isTerminal]
  rcases List.eq_nil_or_concat' events with rfl | ⟨pre, e, rfl⟩
  · simp [foldStatus]
  · rw [foldStatus_concat, hstep, foldStatus_isTerminal_iff]
    constructor
    · exact fun h => ⟨pre, e, rfl, h⟩
    · rintro ⟨pre', e', hsplit, h⟩
      obtain ⟨rfl, hlast⟩ := List.append_inj' hsplit rfl
      obtain rfl : e = e' := by simpa using hlast
      exact h

end SorobanPay
