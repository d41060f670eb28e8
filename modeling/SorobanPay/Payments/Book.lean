import SorobanPay.Foundation.Independence
import SorobanPay.Tokens.Conservation

/-!
# The book of a merchant

What one collection of a merchant reads and writes: the record of the subscriber, the balances, and
the allowances given to the contract. The *row* of a subscriber is its part of the book. It alone
decides what a collection does, and after a collection there is nothing more to collect at the same
time. Collections of different subscribers are independent (`independent_collect`), as long as none
of them is the merchant or the fee collector, whose balances they all share.

## Main definitions

* `Row`, `Row.charge`, `Row.next`: one subscriber, and what a collection makes of it.
* `Book`, `Book.collect`: all of them.
* `Outside`: the subscribers that no collection pays.
* `Book.Alike`: books that differ in nothing but the record of a subscriber who does not pay.

## Main results

* `Book.row_foldl_collect`: the row of a subscriber after a list of collections.
* `Book.independent_collect`: collections are independent.
* `Book.Alike.collect`, `Book.alike_collect`: a collection that does not charge changes nothing for
  the others.
-/

set_option autoImplicit false

namespace SorobanPay

open Foundation

variable {Address : Type}

/-! ### One subscriber -/

/-- The part of a book that belongs to a subscriber of the merchant: the record, and the balance and
the allowance in each token. -/
@[ext] structure Row (Address : Type) where
  record : Option (SubscriptionData Address)
  balance : Address → ℤ
  allowance : Address → ℤ

namespace Row

variable (now : ℕ) (r : Row Address)

/-- The record if it is due and approved. -/
def claim : Option (SubscriptionData Address) :=
  r.record.filter fun d => d.nextPayment ≤ now ∧ d.amount ≤ r.allowance d.token

/-- The record if a collection charges it. -/
def charge : Option (SubscriptionData Address) :=
  (r.claim now).filter fun d => d.amount ≤ r.balance d.token

/-- The record after a collection: counted if it is charged, overdue if it is short. -/
def next : Option (SubscriptionData Address) :=
  match r.charge now, r.claim now with
  | some d, _ => some (d.collected now)
  | none, some d => some (d.overdue now)
  | none, none => r.record

variable {now r}

theorem claim_eq_some_iff {d : SubscriptionData Address} :
    r.claim now = some d ↔
      r.record = some d ∧ d.nextPayment ≤ now ∧ d.amount ≤ r.allowance d.token := by
  simp [claim, Option.filter_eq_some_iff]

theorem charge_eq_some_iff {d : SubscriptionData Address} :
    r.charge now = some d ↔ r.claim now = some d ∧ d.amount ≤ r.balance d.token := by
  simp [charge, Option.filter_eq_some_iff]

theorem next_of_claim_eq_none (hclaim : r.claim now = none) :
    r.charge now = none ∧ r.next now = r.record := by
  have hcharge : r.charge now = none := by
    rw [charge, hclaim]
    rfl
  exact ⟨hcharge, by simp [next, hcharge, hclaim]⟩

theorem next_of_short {d : SubscriptionData Address} (hclaim : r.claim now = some d)
    (hlow : r.balance d.token < d.amount) :
    r.charge now = none ∧ r.next now = some (d.overdue now) := by
  have hcharge : r.charge now = none := by
    rw [charge, hclaim, Option.filter_some, if_neg]
    simp [hlow]
  exact ⟨hcharge, by simp [next, hcharge, hclaim]⟩

theorem next_of_covered {d : SubscriptionData Address} (hclaim : r.claim now = some d)
    (hcover : d.amount ≤ r.balance d.token) :
    r.charge now = some d ∧ r.next now = some (d.collected now) := by
  have hcharge := charge_eq_some_iff.2 ⟨hclaim, hcover⟩
  exact ⟨hcharge, by simp [next, hcharge]⟩

/-- The three ways of a collection. -/
theorem cases_collect (now : ℕ) (r : Row Address) :
    (r.claim now = none ∧ r.charge now = none ∧ r.next now = r.record) ∨
      (∃ d, r.claim now = some d ∧ r.charge now = none ∧ r.balance d.token < d.amount ∧
        r.next now = some (d.overdue now)) ∨
      ∃ d, r.claim now = some d ∧ r.charge now = some d ∧
        r.next now = some (d.collected now) := by
  rcases hclaim : r.claim now with _ | d
  · exact .inl ⟨rfl, next_of_claim_eq_none hclaim⟩
  · rcases lt_or_ge (r.balance d.token) d.amount with hlow | hcover
    · obtain ⟨hcharge, hnext⟩ := next_of_short hclaim hlow
      exact .inr (.inl ⟨d, rfl, hcharge, hlow, hnext⟩)
    · exact .inr (.inr ⟨d, rfl, next_of_covered hclaim hcover⟩)

variable (now r)

variable [DecidableEq Address]

/-- What a collection takes of each token. -/
def taken (t : Address) : ℤ :=
  match r.charge now with
  | some d => if t = d.token then d.amount else 0
  | none => 0

/-- The row after a collection. -/
def collected : Row Address where
  record := r.next now
  balance t := r.balance t - r.taken now t
  allowance := r.allowance

variable {now r}

theorem taken_of_none (h : r.charge now = none) (t : Address) : r.taken now t = 0 := by
  simp [taken, h]

theorem taken_of_some {d : SubscriptionData Address} (h : r.charge now = some d) (t : Address) :
    r.taken now t = if t = d.token then d.amount else 0 := by
  simp [taken, h]

theorem claim_collected : (r.collected now).claim now =
    (r.next now).filter fun d => d.nextPayment ≤ now ∧ d.amount ≤ r.allowance d.token := rfl

/-- After a collection there is nothing more to collect at the same time. -/
theorem collected_twice (hpos : ∀ d, r.record = some d → 0 < d.interval) :
    (r.collected now).charge now = none ∧ (r.collected now).next now = r.next now := by
  rcases cases_collect now r with ⟨hclaim, hcharge, hnext⟩ | ⟨d, hclaim, hcharge, hlow, hnext⟩ |
    ⟨d, hclaim, hcharge, hnext⟩
  · have hnone : (r.collected now).claim now = none := by
      rw [claim_collected, hnext]
      exact hclaim
    exact next_of_claim_eq_none hnone
  · -- the mark stays, and the balance is still short
    obtain ⟨hrecord, hdue, happroved⟩ := claim_eq_some_iff.1 hclaim
    have hagain : (r.collected now).claim now = some (d.overdue now) :=
      claim_eq_some_iff.2 ⟨hnext, hdue, happroved⟩
    have hshort : (r.collected now).balance (d.overdue now).token < (d.overdue now).amount := by
      change r.balance d.token - r.taken now d.token < d.amount
      rw [taken_of_none hcharge, sub_zero]
      exact hlow
    obtain ⟨hnone, hmark⟩ := next_of_short hagain hshort
    exact ⟨hnone, hmark.trans hnext.symm⟩
  · -- the record is not due any more
    have hlater : ¬ (d.collected now).nextPayment ≤ now :=
      not_le.2 (Nat.lt_add_of_pos_right (hpos d (claim_eq_some_iff.1 hclaim).1))
    have hnone : (r.collected now).claim now = none := by
      rw [claim_collected, hnext, Option.filter_some,
        if_neg fun h => hlater (of_decide_eq_true h).1]
    exact next_of_claim_eq_none hnone

omit [DecidableEq Address] in
/-- The schedule and the nonce of a record that is due have room for one more payment. -/
def Fits (now : ℕ) (r : Row Address) : Prop :=
  ∀ d, r.record = some d → d.nextPayment ≤ now →
    now + d.interval < 2 ^ 64 ∧ d.paymentNonce + 1 < 2 ^ 32

theorem Fits.collected (h : r.Fits now) (hpos : ∀ d, r.record = some d → 0 < d.interval) :
    (r.collected now).Fits now := by
  intro d' hd' hdue
  have hd' : r.next now = some d' := hd'
  rcases cases_collect now r with ⟨-, -, hnext⟩ | ⟨d, hclaim, -, -, hnext⟩ | ⟨d, hclaim, -, hnext⟩
  · exact h d' (hnext.symm.trans hd') hdue
  · obtain rfl := Option.some.inj (hnext.symm.trans hd')
    exact h d (claim_eq_some_iff.1 hclaim).1 hdue
  · obtain rfl := Option.some.inj (hnext.symm.trans hd')
    have hlater := hpos d (claim_eq_some_iff.1 hclaim).1
    exact absurd hdue (not_le.2 (Nat.lt_add_of_pos_right hlater))

end Row

/-! ### All subscribers -/

/-- The records of all pairs, the balances, and what the contract may move: `balance t x` is what
`x` holds of the token `t`, and `allowance t x` is what the contract may move of it. -/
@[ext] structure Book (Address : Type) where
  record : Address → Address → Option (SubscriptionData Address)
  balance : Address → Address → ℤ
  allowance : Address → Address → ℤ
  interval_pos : ∀ s m d, record s m = some d → 0 < d.interval

/-- A subscriber that no collection of the merchant pays. -/
structure Outside (config : Option (ProtocolFeeConfig Address)) (m s : Address) : Prop where
  merchant : s ≠ m
  collector : config.map (·.feeCollector) ≠ some s

namespace Book

/-- The row of a subscriber. -/
def row (b : Book Address) (m s : Address) : Row Address where
  record := b.record s m
  balance t := b.balance t s
  allowance t := b.allowance t s

variable [DecidableEq Address] (now : ℕ) (config : Option (ProtocolFeeConfig Address)) (m : Address)

omit [DecidableEq Address] in
/-- A collection charges the subscriber. -/
def charges (b : Book Address) (s : Address) : Bool := ((b.row m s).charge now).isSome

/-- What a payment of the subscriber does to the balance of `x`. -/
def moved (s : Address) (amount : ℤ) (x : Address) : ℤ :=
  (if x = m then amount - feeOn config amount else 0) +
    (if config.map (·.feeCollector) = some x then feeOn config amount else 0) -
    (if x = s then amount else 0)

/-- The book after a collection from one subscriber. -/
def collect (b : Book Address) (s : Address) : Book Address where
  record x y := if x = s ∧ y = m then (b.row m s).next now else b.record x y
  balance t x := b.balance t x + moved config m s ((b.row m s).taken now t) x
  allowance := b.allowance
  interval_pos x y d hd := by
    split_ifs at hd with hpair
    · rcases Row.cases_collect now (b.row m s) with ⟨-, -, hnext⟩ | ⟨d₀, hclaim, -, -, hnext⟩ |
        ⟨d₀, hclaim, -, hnext⟩
      · exact b.interval_pos s m d (hnext.symm.trans hd)
      · obtain rfl := Option.some.inj (hnext.symm.trans hd)
        exact b.interval_pos s m d₀ (Row.claim_eq_some_iff.1 hclaim).1
      · obtain rfl := Option.some.inj (hnext.symm.trans hd)
        exact b.interval_pos s m d₀ (Row.claim_eq_some_iff.1 hclaim).1
    · exact b.interval_pos x y d hd

variable {now config m} {b b' : Book Address} {s x : Address}

theorem record_collect (b : Book Address) (s x y : Address) :
    (b.collect now config m s).record x y =
      if x = s ∧ y = m then (b.row m s).next now else b.record x y := rfl

theorem balance_collect (b : Book Address) (s t x : Address) :
    (b.collect now config m s).balance t x =
      b.balance t x + moved config m s ((b.row m s).taken now t) x := rfl

@[simp] theorem moved_zero (s x : Address) : moved config m s 0 x = 0 := by
  simp [moved, feeOn]

/-- A collection takes what it takes from the subscriber alone. -/
theorem balance_collect_of_outside (hx : Outside config m x) (b : Book Address) (s t : Address) :
    (b.collect now config m s).balance t x =
      b.balance t x - if x = s then (b.row m s).taken now t else 0 := by
  rw [balance_collect, moved, if_neg hx.merchant, if_neg hx.collector, add_zero, zero_sub,
    ← sub_eq_add_neg]

/-- The row of a subscriber after a collection from it. -/
theorem row_collect_self (hs : Outside config m s) (b : Book Address) :
    (b.collect now config m s).row m s = (b.row m s).collected now := by
  refine Row.ext (if_pos ⟨rfl, rfl⟩) (funext fun t => ?_) rfl
  exact (balance_collect_of_outside hs b s t).trans (by rw [if_pos rfl]; rfl)

/-- A collection leaves the rows of all others who are not paid. -/
theorem row_collect_of_ne (hx : Outside config m x) (hne : x ≠ s) (b : Book Address) :
    (b.collect now config m s).row m x = b.row m x := by
  refine Row.ext (if_neg fun h => hne h.1) (funext fun t => ?_) rfl
  exact (balance_collect_of_outside hx b s t).trans (by rw [if_neg hne, sub_zero]; rfl)

/-- There is nothing to collect twice. -/
theorem collected_row_collected (b : Book Address) (s : Address) :
    ((b.row m s).collected now).charge now = none ∧
      ((b.row m s).collected now).collected now = (b.row m s).collected now := by
  obtain ⟨hcharge, hnext⟩ : ((b.row m s).collected now).charge now = none ∧
      ((b.row m s).collected now).next now = (b.row m s).next now :=
    Row.collected_twice (b.interval_pos s m)
  refine ⟨hcharge, Row.ext hnext (funext fun t => ?_) rfl⟩
  exact (congrArg _ (Row.taken_of_none hcharge t)).trans (sub_zero _)

/-- **The row of a subscriber after a list of collections** is the one after a single collection, if
there is one. -/
theorem row_foldl_collect {l : List Address} (hl : ∀ y ∈ l, Outside config m y)
    (hs : Outside config m s) (b : Book Address) :
    (l.foldl (collect now config m) b).row m s =
      if s ∈ l then (b.row m s).collected now else b.row m s := by
  induction l generalizing b with
  | nil => rfl
  | cons y l ih =>
    rw [List.foldl_cons, ih fun z hz => hl z (List.mem_cons_of_mem y hz)]
    rcases eq_or_ne s y with rfl | hne
    · rw [row_collect_self hs, (collected_row_collected b s).2, ite_self,
        if_pos List.mem_cons_self]
    · simp only [row_collect_of_ne hs hne, List.mem_cons, hne, false_or]

/-- **Collections from subscribers whom nobody pays are independent.** -/
theorem independent_collect (now : ℕ) (config : Option (ProtocolFeeConfig Address)) (m : Address) :
    Independent (collect now config m) (charges now m) (Outside config m) where
  comm x y hx hy hne b := by
    have hrow : (b.collect now config m x).row m y = b.row m y :=
      row_collect_of_ne hy hne.symm b
    have hrow' : (b.collect now config m y).row m x = b.row m x := row_collect_of_ne hx hne b
    refine Book.ext (funext fun u => funext fun v => ?_) (funext fun t => funext fun u => ?_) rfl
    · simp only [record_collect, hrow, hrow']
      split_ifs with h h' <;> first | rfl | exact absurd (h'.1.symm.trans h.1) hne
    · simp only [balance_collect, hrow, hrow']
      exact add_right_comm _ _ _
  report_of_ne x y _ hy hne b := by rw [charges, row_collect_of_ne hy hne.symm, charges]
  absorb x hx b := by
    obtain ⟨hcharge, hagain⟩ : ((b.row m x).collected now).charge now = none ∧
        ((b.row m x).collected now).collected now = (b.row m x).collected now :=
      collected_row_collected b x
    refine Book.ext (funext fun u => funext fun v => ?_) (funext fun t => funext fun u => ?_) rfl
    · rw [record_collect, row_collect_self hx, record_collect]
      split_ifs
      · exact congrArg Row.record hagain
      · rfl
    · rw [balance_collect, row_collect_self hx, Row.taken_of_none hcharge, moved_zero, add_zero]
  report_self x hx b := by
    rw [charges, row_collect_self hx, (collected_row_collected b x).1]
    rfl

/-! ### Collections that do not charge -/

/-- Two books in which `s` does not pay, and which differ in nothing but its record. -/
structure Alike (now : ℕ) (m s : Address) (b b' : Book Address) : Prop where
  record : ∀ x y, ¬ (x = s ∧ y = m) → b'.record x y = b.record x y
  balance : b'.balance = b.balance
  allowance : b'.allowance = b.allowance
  unpaid : b.charges now m s = false
  unpaid' : b'.charges now m s = false

omit [DecidableEq Address] in
theorem charge_eq_none (h : b.charges now m s = false) : (b.row m s).charge now = none :=
  Option.isSome_eq_false_iff.1 h |> Option.isNone_iff_eq_none.1

theorem taken_eq_zero (h : b.charges now m s = false) (t : Address) :
    (b.row m s).taken now t = 0 :=
  Row.taken_of_none (charge_eq_none h) t

/-- A collection from a subscriber with nothing due and approved leaves the book. -/
theorem collect_of_claim_eq_none (hclaim : (b.row m s).claim now = none) :
    b.charges now m s = false ∧ b.collect now config m s = b := by
  obtain ⟨hcharge, hnext⟩ := Row.next_of_claim_eq_none hclaim
  refine ⟨by rw [charges, hcharge]; rfl, Book.ext (funext fun x => funext fun y => ?_)
    (funext fun t => funext fun x => ?_) rfl⟩
  · rw [record_collect, hnext]
    split_ifs with hpair
    · obtain ⟨rfl, rfl⟩ := hpair
      rfl
    · rfl
  · rw [balance_collect, Row.taken_of_none hcharge, moved_zero, add_zero]

omit [DecidableEq Address] in
theorem Alike.row_eq (h : Alike now m s b b') (hne : x ≠ s) : b'.row m x = b.row m x :=
  Row.ext (h.record x m fun hpair => hne hpair.1)
    (funext fun t => congrFun (congrFun h.balance t) x)
    (funext fun t => congrFun (congrFun h.allowance t) x)

omit [DecidableEq Address] in
/-- The books charge the same subscribers. -/
theorem Alike.charges_eq (h : Alike now m s b b') (x : Address) :
    b.charges now m x = b'.charges now m x := by
  rcases eq_or_ne x s with rfl | hne
  · exact h.unpaid.trans h.unpaid'.symm
  · rw [charges, charges, h.row_eq hne]

/-- Collections keep such books so. -/
theorem Alike.collect (h : Alike now m s b b') (hs : Outside config m s) (x : Address) :
    Alike now m s (b.collect now config m x) (b'.collect now config m x) := by
  have htaken : (b'.row m x).taken now = (b.row m x).taken now := by
    rcases eq_or_ne x s with rfl | hne
    · exact funext fun t => (taken_eq_zero h.unpaid' t).trans (taken_eq_zero h.unpaid t).symm
    · rw [h.row_eq hne]
  have hunpaid : ∀ c : Book Address, c.charges now m s = false →
      (c.collect now config m x).charges now m s = false := by
    intro c hc
    rcases eq_or_ne s x with rfl | hne
    · exact (independent_collect now config m).report_self s hs c
    · rw [charges, row_collect_of_ne hs hne]
      exact hc
  refine ⟨fun u v hpair => ?_, funext fun t => funext fun u => ?_, h.allowance, hunpaid b h.unpaid,
    hunpaid b' h.unpaid'⟩
  · rw [record_collect, record_collect]
    split_ifs with hx
    · have hne : x ≠ s := fun heq => hpair ⟨hx.1.trans heq, hx.2⟩
      rw [h.row_eq hne]
    · exact h.record u v hpair
  · rw [balance_collect, balance_collect, h.balance, htaken]

/-- **A collection that does not charge changes the record of the subscriber at most.** -/
theorem alike_collect (hs : Outside config m s) (hunpaid : b.charges now m s = false) :
    Alike now m s b (b.collect now config m s) where
  record x y hpair := (record_collect b s x y).trans (if_neg hpair)
  balance := funext fun t => funext fun x => by
    rw [balance_collect, taken_eq_zero hunpaid, moved_zero, add_zero]
  allowance := rfl
  unpaid := hunpaid
  unpaid' := (independent_collect now config m).report_self s hs b

end Book

end SorobanPay
