import SorobanPay.Contract.Invocation
import SorobanPay.Foundation.TokenLedger

/-!
# The contract over SEP-41 ledgers

The token contracts as a ledger with allowances (`Foundation.TokenLedger`). Others act on the
ledger by the operations of the token interface; the contract's own address signs none of them, as
it makes no token call except `transfer`.

## Main definitions

* `External`: an operation of others on the ledger, with those who signed it.
* `OverLedger`, `ledgerHost`: hosts whose token contracts are a ledger.
* `sampleHost`, `sampleLedger`: a host and a ledger on which the model can be evaluated.
-/

set_option autoImplicit false

namespace SorobanPay

open Foundation

variable {Address Hash : Type} [DecidableEq Address]

/-- An operation on the ledger outside the invocations of the contract, with its signers. -/
structure External (Address : Type) where
  signers : Address → Bool
  operation : TokenLedger.Operation Address

/-- A ledger as the token contracts of a host. -/
def ledgerTokens (self : Address) (symbols : Address → Option String) :
    TokenHost Address (TokenLedger Address) (External Address) where
  symbol _ token := symbols token
  allowance L token owner spender := some (L.allowance token owner spender)
  balance L token holder := some (L.balance token holder)
  transfer authorized L token src dst amount := L.transfer authorized token src dst amount
  act L op := L.perform (fun a => op.signers a && a != self) op.operation

/-- A host whose token contracts are a ledger. -/
def ledgerHost (toXdr : Address → List UInt8) (sha256 : List UInt8 → Hash) (self : Address)
    (symbols : Address → Option String) :
    Host Address Hash (TokenLedger Address) (External Address) where
  toXdr := toXdr
  sha256 := sha256
  currentContractAddress := self
  tokens := ledgerTokens self symbols

/-- The token contracts of a host are a ledger. -/
def OverLedger {Hash : Type} (H : Host Address Hash (TokenLedger Address) (External Address))
    (symbols : Address → Option String) : Prop :=
  H.tokens = ledgerTokens H.currentContractAddress symbols

namespace OverLedger

variable {H : Host Address Hash (TokenLedger Address) (External Address)}
  {symbols : Address → Option String}

theorem allowance_eq (hH : OverLedger H symbols) (L : TokenLedger Address)
    (token owner spender : Address) :
    H.tokens.allowance L token owner spender = some (L.allowance token owner spender) := by
  rw [hH]
  rfl

theorem transfer_eq (hH : OverLedger H symbols) (authorized : Address → Bool)
    (L : TokenLedger Address) (token src dst : Address) (amount : ℤ) :
    H.tokens.transfer authorized L token src dst amount =
      L.transfer authorized token src dst amount := by
  rw [hH]
  rfl

theorem act_eq (hH : OverLedger H symbols) (L : TokenLedger Address) (op : External Address) :
    H.tokens.act L op =
      L.perform (fun a => op.signers a && a != H.currentContractAddress) op.operation := by
  rw [hH]
  rfl

end OverLedger

/-! ### A sample -/

/-- Addresses of one byte, encoded as themselves; the contract has the address 0. -/
def sampleHost : Host UInt8 (List UInt8) (TokenLedger UInt8) (External UInt8) :=
  ledgerHost (fun a => [a]) id 0 fun _ => some "TOK"

theorem sampleHost_keysInjective : sampleHost.KeysInjective := by
  intro s m s' m' h
  simpa [Host.subscriptionKey, sampleHost, ledgerHost] using h

/-- Everyone holds 1000 of every token and lets everyone move 1000 of it. -/
def sampleLedger : TokenLedger UInt8 where
  balance _ _ := 1000
  allowance _ _ _ := 1000

/-- The deployment over `sampleLedger`. -/
abbrev sampleStart : State UInt8 (List UInt8) (TokenLedger UInt8) :=
  State.deployed UInt8 (List UInt8) sampleLedger

/-- An environment signed by everyone. -/
def sampleEnv (now : ℕ) : Env UInt8 := { timestamp := now, authorized := fun _ => true }

/-- An invocation signed by everyone. -/
def sampleStep (now : ℕ) (call : Call UInt8) : Step UInt8 (List UInt8) (External UInt8) where
  env := sampleEnv now
  action := .invoke call

/-- A subscription of 100 a day, made at time 1. -/
abbrev sampleSubscribed : State UInt8 (List UInt8) (TokenLedger UInt8) :=
  after (next sampleHost) sampleStart [sampleStep 1 (.subscribe 1 2 9 100 86400 false none)]

end SorobanPay
