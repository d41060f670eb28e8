import SorobanPay.Contract.Storage

/-!
# Administration of the subscription contract

The entry points of `lib.rs` that write instance storage: `initialize`, `set_max_amount`,
`migrate` and `set_protocol_fee`, with the readers of the same entries. The first of them has the
alias `init` in the source, which is its name here.

## Main definitions

* `init`, `setMaxAmount`, `migrate`, `setProtocolFee`: the entry points.
* `getConfig`, `getProtocolFeeConfig`: the readers the entry points share.
-/

set_option autoImplicit false

namespace SorobanPay

open Foundation

variable {Address Hash World Op : Type} [DecidableEq Address]
  (H : Host Address Hash World Op) (env : Env Address)

omit [DecidableEq Address] in
/-- `init`, the alias under which the contract also exports `initialize`; a second call panics. -/
def init (admin : Address) : Contract Address Hash World Unit := do
  let stored ← Tx.gets fun σ => σ.admin
  Tx.failIf (stored.isSome = true) .abort
  Tx.modify fun σ =>
    { σ with
      admin := some admin
      schemaVersion := some currentSchemaVersion
      adminConfig := some { admin := admin, maxAmount := maxAmount } }

omit [DecidableEq Address] in
/-- `get_config`. -/
def getConfig : Contract Address Hash World (AdminConfig Address) := do
  let config ← Tx.gets fun σ => σ.adminConfig
  Tx.orFail config (.error .notInitialized)

/-- `set_max_amount`. -/
def setMaxAmount (admin : Address) (newMax : ℤ) : Contract Address Hash World Unit := do
  requireAuth H env admin
  Tx.failIf (newMax ≤ 0 ∨ newMax > maxAmount) (.error .amountTooLarge)
  let config ← getConfig
  Tx.failIf (config.admin ≠ admin) (.error .notAdmin)
  Tx.modify fun σ => { σ with adminConfig := some { config with maxAmount := newMax } }

omit [DecidableEq Address] in
/-- `get_version`. -/
def getVersion : String := contractVersion

omit [DecidableEq Address] in
/-- `get_schema_version`. -/
def getSchemaVersion (σ : State Address Hash World) : ℕ := σ.schemaVersion.getD 0

omit [DecidableEq Address] in
/-- The stored administrator. -/
def storedAdmin : Contract Address Hash World Address := do
  let admin ← Tx.gets fun σ => σ.admin
  Tx.orFail admin (.error .notInitialized)

/-- `migrate`. -/
def migrate (admin : Address) : Contract Address Hash World Unit := do
  requireAuth H env admin
  let stored ← storedAdmin
  Tx.failIf (admin ≠ stored) (.error .notAdmin)
  let currentVersion ← Tx.gets getSchemaVersion
  Tx.failIf (currentVersion ≥ currentSchemaVersion) (.error .alreadyMigrated)
  Tx.modify fun σ => { σ with schemaVersion := some currentSchemaVersion }
  publish (.contractMigrated admin currentSchemaVersion)

/-- `set_protocol_fee`. -/
def setProtocolFee (admin : Address) (feeBps : ℕ) (feeCollector : Address) :
    Contract Address Hash World Unit := do
  requireAuth H env admin
  let stored ← storedAdmin
  Tx.failIf (admin ≠ stored) (.error .notAdmin)
  Tx.failIf (feeBps > maxFeeBps) (.error .feeBpsTooHigh)
  Tx.modify fun σ =>
    { σ with protocolFee := some { feeBps := feeBps, feeCollector := feeCollector } }

omit [DecidableEq Address] in
/-- `storage::get_protocol_fee_config`, which is also what `get_protocol_fee` returns. -/
def getProtocolFeeConfig (σ : State Address Hash World) : Option (ProtocolFeeConfig Address) :=
  σ.protocolFee

end SorobanPay
