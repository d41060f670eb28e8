import Mathlib.Algebra.Group.Int.Defs
import Mathlib.Tactic.Common

/-!
# Fungible token ledgers with allowances

The token interface of SEP-41 read as a ledger: every token keeps a balance for each holder and,
for each owner and spender, the amount the spender may still move. `approve` is authorized by the
owner and sets an allowance, which is not negative; `transfer` is authorized by the holder and
leaves every allowance as it is; `transferFrom` is authorized by the spender and consumes the
allowance it uses. An operation that is not authorized or not covered aborts.

Who has authorized an operation is a predicate supplied by the caller of the ledger.

## Main definitions

* `TokenLedger`: balances and allowances of all tokens.
* `TokenLedger.transfer`, `TokenLedger.transferFrom`, `TokenLedger.approve`: the operations.
* `TokenLedger.Operation`, `TokenLedger.perform`: an operation as a value, and its effect.

## Main results

* `TokenLedger.transfer_eq_some_iff`: when a transfer goes through and what it leaves.
* `TokenLedger.perform_allowance_of_not_spender`: what leaves an allowance as it is.
-/

set_option autoImplicit false

namespace Foundation

/-- Balances and allowances of all tokens: `balance t x` is what `x` holds of the token `t`, and
`allowance t x y` is what `y` may move of it for `x`. -/
structure TokenLedger (Address : Type) where
  balance : Address → Address → ℤ
  allowance : Address → Address → Address → ℤ

namespace TokenLedger

variable {Address : Type} [DecidableEq Address]

/-- The ledger with `amount` of `token` moved from `src` to `dst`. -/
def move (L : TokenLedger Address) (token src dst : Address) (amount : ℤ) :
    TokenLedger Address :=
  { L with
    balance := fun t x =>
      if t = token then
        L.balance t x - (if x = src then amount else 0) + (if x = dst then amount else 0)
      else L.balance t x }

/-- The ledger with the allowance of `spender` over the `token` holdings of `owner` set. -/
def approve (L : TokenLedger Address) (token owner spender : Address) (amount : ℤ) :
    TokenLedger Address :=
  { L with
    allowance := fun t x y =>
      if t = token ∧ x = owner ∧ y = spender then amount else L.allowance t x y }

/-- A transfer authorized by the holder. -/
def transfer (authorized : Address → Bool) (L : TokenLedger Address)
    (token src dst : Address) (amount : ℤ) : Option (TokenLedger Address) :=
  if authorized src = true ∧ 0 ≤ amount ∧ amount ≤ L.balance token src then
    some (L.move token src dst amount)
  else none

/-- A transfer authorized by a spender, out of the allowance it was given. -/
def transferFrom (authorized : Address → Bool) (L : TokenLedger Address)
    (token spender src dst : Address) (amount : ℤ) : Option (TokenLedger Address) :=
  if authorized spender = true ∧ 0 ≤ amount ∧ amount ≤ L.allowance token src spender ∧
      amount ≤ L.balance token src then
    some ((L.move token src dst amount).approve token src spender
      (L.allowance token src spender - amount))
  else none

@[simp] theorem allowance_move (L : TokenLedger Address) (token src dst : Address) (amount : ℤ) :
    (L.move token src dst amount).allowance = L.allowance := rfl

theorem balance_move_of_ne {L : TokenLedger Address} {token token' src dst : Address} {amount : ℤ}
    (h : token' ≠ token) : (L.move token src dst amount).balance token' = L.balance token' :=
  funext fun _ => if_neg h

@[simp] theorem balance_approve (L : TokenLedger Address) (token owner spender : Address)
    (amount : ℤ) : (L.approve token owner spender amount).balance = L.balance := rfl

theorem transfer_eq_some_iff {authorized : Address → Bool} {L L' : TokenLedger Address}
    {token src dst : Address} {amount : ℤ} :
    L.transfer authorized token src dst amount = some L' ↔
      (authorized src = true ∧ 0 ≤ amount ∧ amount ≤ L.balance token src) ∧
        L.move token src dst amount = L' := by
  simp [transfer]

/-- A transfer the holder did not authorize aborts. -/
theorem transfer_eq_none_of_unauthorized {authorized : Address → Bool} {L : TokenLedger Address}
    {token src dst : Address} {amount : ℤ} (h : authorized src = false) :
    L.transfer authorized token src dst amount = none := by
  simp [transfer, h]

/-! ### Operations as values -/

/-- An operation on the ledger. -/
inductive Operation (Address : Type)
  | approve (token owner spender : Address) (amount : ℤ)
  | transfer (token src dst : Address) (amount : ℤ)
  | transferFrom (token spender src dst : Address) (amount : ℤ)

/-- The effect of an operation; one that aborts changes nothing. -/
def perform (authorized : Address → Bool) (L : TokenLedger Address) :
    Operation Address → TokenLedger Address
  | .approve token owner spender amount =>
      if authorized owner = true ∧ 0 ≤ amount then L.approve token owner spender amount else L
  | .transfer token src dst amount => (L.transfer authorized token src dst amount).getD L
  | .transferFrom token spender src dst amount =>
      (L.transferFrom authorized token spender src dst amount).getD L

/-- Only an approval signed by the owner, or a spender using its allowance, changes an allowance. -/
theorem perform_allowance_of_not_spender {authorized : Address → Bool} {L : TokenLedger Address}
    {op : Operation Address} {token owner spender : Address}
    (happrove : ∀ amount, op = .approve token owner spender amount →
      ¬ (authorized owner = true ∧ 0 ≤ amount))
    (hspender : authorized spender = false) :
    (L.perform authorized op).allowance token owner spender =
      L.allowance token owner spender := by
  cases op with
  | approve t x y amount =>
    simp only [perform]
    split_ifs with h
    · have hne : ¬ (token = t ∧ owner = x ∧ spender = y) := by
        rintro ⟨rfl, rfl, rfl⟩
        exact happrove amount rfl h
      simp [approve, hne]
    · rfl
  | transfer t x y amount =>
    by_cases h : authorized x = true ∧ 0 ≤ amount ∧ amount ≤ L.balance t x <;>
      simp [perform, transfer, h]
  | transferFrom t z x y amount =>
    by_cases h : authorized z = true ∧ 0 ≤ amount ∧ amount ≤ L.allowance t x z ∧
        amount ≤ L.balance t x
    · have hne : spender ≠ z := by
        rintro rfl
        simp [hspender] at h
      simp [perform, transferFrom, h, approve, hne]
    · simp [perform, transferFrom, h]

end TokenLedger

end Foundation
