import Mathlib.Tactic.Simps.Basic
import SorobanPay.Contract.Types
import SorobanPay.Foundation.Run

/-!
# The life cycle of one subscription

What a subscription is for, seen from one pair of a subscriber and a merchant: a record that is
opened, changed by its subscriber, collected by its merchant, and closed. `Lifecycle` is the
labelled relation of these changes. It knows nothing of storage keys, authorization, indexes or
tokens; that the contract refines it is proved in `SorobanPay.Lifecycle.Refinement`.

An act carries the ledger time at which it happens, and a path of `Lifecycle` is a possible
history of the pair.

## Main definitions

* `SubscriptionData.withTerms`, `SubscriptionData.collected`, …: the changes of a record.
* `SubscriptionData.WellFormed`: the bounds every record satisfies.
* `Act`, `Lifecycle`: the acts on a pair and what each of them does to its record.

## Main results

* `Lifecycle.wellFormed`: every act keeps the record of the pair well formed.
-/

set_option autoImplicit false

namespace SorobanPay

open Foundation

variable {Address : Type}

/-! ### Changes of a record -/

namespace SubscriptionData

/-- The record of a new subscription. -/
@[simps] def opened (now : ℕ) (token : Address) (amount : ℤ) (interval gracePeriod : ℕ) :
    SubscriptionData Address where
  token := token
  amount := amount
  interval := interval
  nextPayment := now + interval
  isPaused := false
  gracePeriod := gracePeriod
  overdueSince := none
  paymentNonce := 0
  pausedUntil := none

variable (d : SubscriptionData Address)

/-- New terms; the payment schedule stays. -/
@[simps] def withTerms (amount : ℤ) (interval : ℕ) : SubscriptionData Address :=
  { d with amount := amount, interval := interval }

/-- Paused, until a given time or until resumed. -/
@[simps] def paused (resumeAt : Option ℕ) : SubscriptionData Address :=
  { d with isPaused := true, pausedUntil := resumeAt }

/-- No longer paused, the next payment one interval from now. -/
@[simps] def resumed (now : ℕ) : SubscriptionData Address :=
  { d with isPaused := false, pausedUntil := none, nextPayment := now + d.interval }

/-- Collected now. -/
@[simps] def collected (now : ℕ) : SubscriptionData Address :=
  { d with
    nextPayment := now + d.interval
    overdueSince := none
    paymentNonce := d.paymentNonce + 1 }

/-- Found underfunded now. -/
@[simps] def overdue (now : ℕ) : SubscriptionData Address :=
  { d with overdueSince := some (d.overdueSince.getD now) }

/-- The amounts and intervals the contract accepts. -/
structure ValidTerms (amount : ℤ) (interval : ℕ) : Prop where
  amount_pos : 0 < amount
  amount_le : amount ≤ maxAmount
  interval_ge : minInterval ≤ interval
  interval_le : interval ≤ maxInterval

/-- What holds of every stored record. -/
structure WellFormed : Prop extends ValidTerms d.amount d.interval where
  next_pos : 0 < d.nextPayment

theorem ValidTerms.interval_pos {amount : ℤ} {interval : ℕ} (h : ValidTerms amount interval) :
    0 < interval :=
  lt_of_lt_of_le (by decide) h.interval_ge

end SubscriptionData

/-! ### Acts -/

/-- An act on the subscription of a pair, with the ledger time at which it happens. `subscribe` and
`moveIn` carry the record they store, `collect` the record it finds. -/
inductive Act (Address : Type)
  | subscribe (now : ℕ) (data : SubscriptionData Address)
  | update (now : ℕ) (amount : ℤ) (interval : ℕ)
  | pause (now : ℕ) (resumeAt : Option ℕ)
  | resume (now : ℕ)
  | collect (now : ℕ) (found : SubscriptionData Address)
  | markOverdue (now : ℕ)
  | cancel (now : ℕ)
  | moveOut (now : ℕ)
  | moveIn (now : ℕ) (data : SubscriptionData Address)
  deriving DecidableEq, Repr

namespace Act

/-- The ledger time of an act. -/
def time : Act Address → ℕ
  | subscribe now _ | update now _ _ | pause now _ | resume now | collect now _
  | markOverdue now | cancel now | moveOut now | moveIn now _ => now

/-- The acts that open the schedule of a pair anew or end it. -/
def IsReset : Act Address → Prop
  | subscribe .. | resume _ | cancel _ => True
  | _ => False

/-- The acts that give a record to a pair that has none. -/
def IsOpening : Act Address → Prop
  | subscribe .. | moveIn .. => True
  | _ => False

/-- The acts of a transfer. -/
def IsMove : Act Address → Prop
  | moveOut _ | moveIn .. => True
  | _ => False

end Act

/-- What an act does to the record of its pair. -/
inductive Lifecycle :
    Option (SubscriptionData Address) → Act Address → Option (SubscriptionData Address) → Prop
  | subscribe {old : Option (SubscriptionData Address)} {now gracePeriod : ℕ} {token : Address}
      {amount : ℤ} {interval : ℕ} (hnow : 0 < now)
      (terms : SubscriptionData.ValidTerms amount interval) :
      Lifecycle old (.subscribe now (.opened now token amount interval gracePeriod))
        (some (.opened now token amount interval gracePeriod))
  | update {d : SubscriptionData Address} {now : ℕ} {amount : ℤ} {interval : ℕ}
      (terms : SubscriptionData.ValidTerms amount interval) :
      Lifecycle (some d) (.update now amount interval) (some (d.withTerms amount interval))
  | pause {d : SubscriptionData Address} {now : ℕ} {resumeAt : Option ℕ}
      (active : d.isPaused = false) (future : ∀ r, resumeAt = some r → now < r) :
      Lifecycle (some d) (.pause now resumeAt) (some (d.paused resumeAt))
  | resume {d : SubscriptionData Address} {now : ℕ} (paused : d.isPaused = true) :
      Lifecycle (some d) (.resume now) (some (d.resumed now))
  | collect {d : SubscriptionData Address} {now : ℕ} (due : d.nextPayment ≤ now)
      (hnow : 0 < now) :
      Lifecycle (some d) (.collect now d) (some (d.collected now))
  | markOverdue {d : SubscriptionData Address} {now : ℕ} (due : d.nextPayment ≤ now) :
      Lifecycle (some d) (.markOverdue now) (some (d.overdue now))
  | cancel {d : SubscriptionData Address} {now : ℕ} : Lifecycle (some d) (.cancel now) none
  | moveOut {d : SubscriptionData Address} {now : ℕ} : Lifecycle (some d) (.moveOut now) none
  | moveIn {d : SubscriptionData Address} {now : ℕ} (wf : d.WellFormed) :
      Lifecycle none (.moveIn now d) (some d)

namespace Lifecycle

/-- **Records stay well formed.** -/
theorem wellFormed {r r' : Option (SubscriptionData Address)} {a : Act Address}
    (h : Lifecycle r a r') (hr : ∀ d, r = some d → d.WellFormed) :
    ∀ d, r' = some d → d.WellFormed := by
  cases h with
  | subscribe hnow terms =>
    rintro _ ⟨⟩
    exact ⟨terms, Nat.add_pos_left hnow _⟩
  | update terms =>
    rintro _ ⟨⟩
    exact ⟨terms, (hr _ rfl).next_pos⟩
  | resume =>
    rintro _ ⟨⟩
    exact ⟨(hr _ rfl).toValidTerms, Nat.add_pos_right _ (hr _ rfl).interval_pos⟩
  | collect =>
    rintro _ ⟨⟩
    exact ⟨(hr _ rfl).toValidTerms, Nat.add_pos_right _ (hr _ rfl).interval_pos⟩
  | pause | markOverdue =>
    rintro _ ⟨⟩
    exact ⟨(hr _ rfl).toValidTerms, (hr _ rfl).next_pos⟩
  | moveIn wf =>
    rintro _ ⟨⟩
    exact wf
  | cancel | moveOut => simp

theorem isOpening {a : Act Address} {r : Option (SubscriptionData Address)}
    (h : Lifecycle none a r) : a.IsOpening := by
  cases h with
  | subscribe => trivial
  | moveIn => trivial

/-- A history that gives a record to a pair without one has an act that opens it. -/
theorem exists_isOpening {as : List (Act Address)} {d : SubscriptionData Address}
    (h : Path Lifecycle none as (some d)) : ∃ a ∈ as, a.IsOpening := by
  cases h with
  | cons hd _ => exact ⟨_, List.mem_cons_self, hd.isOpening⟩

end Lifecycle

end SorobanPay
