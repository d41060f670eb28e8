import SorobanPay.Contract.Payments
import SorobanPay.Lifecycle.Record

/-!
# What the entry points do

One equivalence for every primitive call and every entry point that manages a subscription: the
runs in which it returns are those that pass its checks, and they end in the state written out on
the right. Later modules use these lemmas and do not unfold the entry points.

## Main results

* `returns_init`, `returns_setMaxAmount`, `returns_migrate`, `returns_setProtocolFee`: instance
  storage.
* `returns_subscribe`, `returns_updateSubscription`, `returns_pauseSubscription`,
  `returns_resumeSubscription`, `returns_cancel`, `returns_transferSubscription`: subscriptions.
* `record_subscribe`, `record_cancel`: the records after a subscription is made or ended.
-/

set_option autoImplicit false

namespace SorobanPay

open Foundation

variable {Address Hash World Op : Type} {H : Host Address Hash World Op} {env : Env Address}
  {σ σ' : State Address Hash World} {u : Unit}

/-! ### Primitive calls -/

section Primitives

@[simp] theorem returns_publish {event : Event Address} :
    (publish event : Contract Address Hash World Unit).Returns σ u σ' ↔ σ.publish event = σ' := by
  simp [publish]

@[simp] theorem fails_publish {event : Event Address} {e : Fault} :
    ¬ (publish event : Contract Address Hash World Unit).Fails σ e := by
  simp [publish]

@[simp] theorem returns_loadSubscription {hash : Hash} {d : SubscriptionData Address} :
    (loadSubscription hash : Contract Address Hash World _).Returns σ d σ' ↔
      σ.subscriptions hash = some d ∧ σ = σ' := by
  simp [loadSubscription]

@[simp] theorem fails_loadSubscription {hash : Hash} {e : Fault} :
    (loadSubscription hash : Contract Address Hash World _).Fails σ e ↔
      σ.subscriptions hash = none ∧ .error .noActiveSubscription = e := by
  simp [loadSubscription]

@[simp] theorem returns_storeSubscription [DecidableEq Hash] {hash : Hash}
    {d : SubscriptionData Address} :
    (storeSubscription hash d : Contract Address Hash World Unit).Returns σ u σ' ↔
      σ.setSubscription hash d = σ' := by
  simp [storeSubscription]

@[simp] theorem returns_requireAuth [DecidableEq Address] {a : Address} :
    (requireAuth H env a : Contract Address Hash World Unit).Returns σ u σ' ↔
      H.authorizes env a = true ∧ σ = σ' := by
  simp [requireAuth]

@[simp] theorem fails_requireAuth [DecidableEq Address] {a : Address} {e : Fault} :
    (requireAuth H env a : Contract Address Hash World Unit).Fails σ e ↔
      H.authorizes env a = false ∧ .abort = e := by
  simp [requireAuth]

@[simp] theorem returns_ledgerTimestamp {now : ℕ} :
    (ledgerTimestamp env : Contract Address Hash World ℕ).Returns σ now σ' ↔
      0 < env.timestamp ∧ env.timestamp = now ∧ σ = σ' := by
  rw [ledgerTimestamp, Nat.pos_iff_ne_zero]
  simp [and_assoc, and_left_comm]

@[simp] theorem returns_checkedNextPayment {ts interval next : ℕ} :
    (checkedNextPayment ts interval : Contract Address Hash World ℕ).Returns σ next σ' ↔
      ts + interval < 2 ^ 64 ∧ ts + interval = next ∧ σ = σ' := by
  simp [checkedNextPayment, and_assoc]

@[simp] theorem returns_tokenSymbol {token : Address} {symbol : String} :
    (tokenSymbol H token : Contract Address Hash World String).Returns σ symbol σ' ↔
      H.tokens.symbol σ.tokens token = some symbol ∧ σ = σ' := by
  simp [tokenSymbol, and_comm]

@[simp] theorem returns_tokenAllowance {token owner : Address} {a : ℤ} :
    (tokenAllowance H token owner : Contract Address Hash World ℤ).Returns σ a σ' ↔
      H.tokens.allowance σ.tokens token owner H.currentContractAddress = some a ∧ σ = σ' := by
  simp [tokenAllowance, and_comm]

@[simp] theorem returns_tokenBalance {token holder : Address} {b : ℤ} :
    (tokenBalance H token holder : Contract Address Hash World ℤ).Returns σ b σ' ↔
      H.tokens.balance σ.tokens token holder = some b ∧ σ = σ' := by
  simp [tokenBalance, and_comm]

@[simp] theorem returns_tokenTransfer [DecidableEq Address] {token src dst : Address}
    {amount : ℤ} :
    (tokenTransfer H env token src dst amount : Contract Address Hash World Unit).Returns σ u σ' ↔
      ∃ w, H.tokens.transfer (H.tokenAuthorization env) σ.tokens token src dst amount = some w ∧
        σ.setTokens w = σ' := by
  simp [tokenTransfer]

@[simp] theorem returns_checkAmount {amount : ℤ} :
    (checkAmount amount : Contract Address Hash World Unit).Returns σ u σ' ↔
      0 < amount ∧ amount ≤ maxAmount ∧ σ = σ' := by
  simp [checkAmount, and_assoc]

@[simp] theorem returns_checkInterval {interval : ℕ} :
    (checkInterval interval : Contract Address Hash World Unit).Returns σ u σ' ↔
      minInterval ≤ interval ∧ interval ≤ maxInterval ∧ σ = σ' := by
  simp [checkInterval, and_assoc]

@[simp] theorem returns_checkLimit {amount : ℤ} :
    (checkLimit amount : Contract Address Hash World Unit).Returns σ u σ' ↔
      (∀ config, σ.adminConfig = some config → amount ≤ config.maxAmount) ∧ σ = σ' := by
  rcases h : σ.adminConfig with _ | config <;> simp [checkLimit, h]

end Primitives

/-! ### Instance storage -/

section Administration

variable [DecidableEq Address] {admin : Address}

omit [DecidableEq Address] in
theorem returns_init :
    (init admin : Contract Address Hash World Unit).Returns σ u σ' ↔
      σ.admin = none ∧
        { σ with
          admin := some admin
          schemaVersion := some currentSchemaVersion
          adminConfig := some { admin := admin, maxAmount := maxAmount } } = σ' := by
  simp [init]

theorem returns_setMaxAmount {newMax : ℤ} :
    (setMaxAmount H env admin newMax).Returns σ u σ' ↔
      H.authorizes env admin = true ∧ (0 < newMax ∧ newMax ≤ maxAmount) ∧
        ∃ config, σ.adminConfig = some config ∧ config.admin = admin ∧
          { σ with adminConfig := some { config with maxAmount := newMax } } = σ' := by
  simp [setMaxAmount, getConfig, not_or]

theorem returns_migrate :
    (migrate H env admin).Returns σ u σ' ↔
      H.authorizes env admin = true ∧ σ.admin = some admin ∧
        getSchemaVersion σ < currentSchemaVersion ∧
        State.publish { σ with schemaVersion := some currentSchemaVersion }
          (.contractMigrated admin currentSchemaVersion) = σ' := by
  simp [migrate, storedAdmin]

theorem returns_setProtocolFee {feeBps : ℕ} {feeCollector : Address} :
    (setProtocolFee H env admin feeBps feeCollector).Returns σ u σ' ↔
      H.authorizes env admin = true ∧ σ.admin = some admin ∧ feeBps ≤ maxFeeBps ∧
        { σ with protocolFee := some { feeBps := feeBps, feeCollector := feeCollector } } = σ' := by
  simp [setProtocolFee, storedAdmin]

end Administration

/-! ### Subscriptions -/

section Subscriptions

variable [DecidableEq Address] [DecidableEq Hash] {s m m' token : Address}

/-- The state in which `subscribe` stores the new record: an allowance below the amount has been
reported. -/
def State.noteAllowance (σ : State Address Hash World) (s m token : Address)
    (allowance amount : ℤ) : State Address Hash World :=
  if allowance < amount then σ.publish (.lowAllowance s m token allowance amount) else σ

omit [DecidableEq Address] [DecidableEq Hash] in
theorem State.noteAllowance_eq {allowance amount : ℤ} :
    σ.noteAllowance s m token allowance amount = σ.publishAll
      (if allowance < amount then [.lowAllowance s m token allowance amount] else []) := by
  unfold State.noteAllowance
  split_ifs <;> simp [State.publishAll, State.publish]

omit [DecidableEq Address] [DecidableEq Hash] in
@[simp] theorem Host.record_noteAllowance {allowance amount : ℤ} :
    H.record (σ.noteAllowance s m token allowance amount) = H.record σ := by
  unfold State.noteAllowance
  split_ifs <;> rfl

omit [DecidableEq Address] [DecidableEq Hash] in
@[simp] theorem returns_checkAllowance {allowance amount : ℤ} {strict : Bool} :
    (checkAllowance s m token amount allowance strict :
      Contract Address Hash World Unit).Returns σ u σ' ↔
      (strict = true → amount ≤ allowance) ∧ σ.noteAllowance s m token allowance amount = σ' := by
  unfold checkAllowance State.noteAllowance
  by_cases h : allowance < amount
  · cases strict <;> simp [h]
  · simp [h, not_lt.1 h]

theorem returns_subscribe {amount : ℤ} {interval : ℕ} {strict : Bool} {gracePeriod : Option ℕ} :
    (subscribe H env s m token amount interval strict gracePeriod).Returns σ u σ' ↔
      H.authorizes env s = true ∧ s ≠ m ∧ (0 < amount ∧ amount ≤ maxAmount) ∧
        (∀ config, σ.adminConfig = some config → amount ≤ config.maxAmount) ∧
        (minInterval ≤ interval ∧ interval ≤ maxInterval) ∧
        (∃ symbol, H.tokens.symbol σ.tokens token = some symbol) ∧
        ∃ allowance,
          H.tokens.allowance σ.tokens token s H.currentContractAddress = some allowance ∧
          (strict = true → amount ≤ allowance) ∧
          (0 < env.timestamp ∧ env.timestamp + interval < 2 ^ 64) ∧
          ((((σ.noteAllowance s m token allowance amount).setSubscription (H.subscriptionKey s m)
            (.opened env.timestamp token amount interval (gracePeriod.getD 0))).indexAdd m
              (H.subscriptionKey s m)).rosterAdd m s).publish (.subscribe s m token amount)
            = σ' := by
  simp [subscribe, SubscriptionData.opened, and_assoc]

/-- `subscribe` writes the record of the pair and no other. -/
theorem record_subscribe {amount : ℤ} {interval : ℕ} {strict : Bool} {gracePeriod : Option ℕ}
    (h : (subscribe H env s m token amount interval strict gracePeriod).Returns σ u σ') :
    H.record σ' = H.record (σ.setSubscription (H.subscriptionKey s m)
      (.opened env.timestamp token amount interval (gracePeriod.getD 0))) := by
  obtain ⟨-, -, -, -, -, -, allowance, -, -, -, rfl⟩ := returns_subscribe.1 h
  simp only [Host.record_publish, Host.record_rosterAdd, Host.record_indexAdd,
    State.noteAllowance_eq]
  rfl

theorem returns_updateSubscription {newAmount : ℤ} {newInterval : ℕ} :
    (updateSubscription H env s m newAmount newInterval).Returns σ u σ' ↔
      H.authorizes env s = true ∧ ∃ d, H.record σ s m = some d ∧
        (0 < newAmount ∧ newAmount ≤ maxAmount) ∧
        (minInterval ≤ newInterval ∧ newInterval ≤ maxInterval) ∧
        (σ.setSubscription (H.subscriptionKey s m) (d.withTerms newAmount newInterval)).publish
          (.updated s m d.amount newAmount d.interval newInterval) = σ' := by
  simp [updateSubscription, Host.record, SubscriptionData.withTerms, and_assoc]

theorem returns_pauseSubscription {resumeAt : Option ℕ} :
    (pauseSubscription H env s m token resumeAt).Returns σ u σ' ↔
      H.authorizes env s = true ∧ ∃ d, H.record σ s m = some d ∧ d.isPaused = false ∧
        (∀ r, resumeAt = some r → 0 < env.timestamp ∧ env.timestamp < r) ∧
        (σ.setSubscription (H.subscriptionKey s m) (d.paused resumeAt)).publish
          (.paused s m resumeAt) = σ' := by
  cases resumeAt <;> simp [pauseSubscription, Host.record, SubscriptionData.paused, and_assoc]

theorem returns_resumeSubscription :
    (resumeSubscription H env s m token).Returns σ u σ' ↔
      H.authorizes env s = true ∧ ∃ d, H.record σ s m = some d ∧ d.isPaused = true ∧
        (0 < env.timestamp ∧ env.timestamp + d.interval < 2 ^ 64) ∧
        (σ.setSubscription (H.subscriptionKey s m) (d.resumed env.timestamp)).publish
          (.resumed s m (env.timestamp + d.interval)) = σ' := by
  simp [resumeSubscription, Host.record, SubscriptionData.resumed, and_assoc]

theorem returns_cancel :
    (cancel H env s m token).Returns σ u σ' ↔
      H.authorizes env s = true ∧ (H.record σ s m).isSome = true ∧
        (((σ.removeSubscription (H.subscriptionKey s m)).indexRemove m
          (H.subscriptionKey s m)).rosterRemove m s).publish (.cancel s m 1) = σ' := by
  simp [cancel, Host.record, Option.isSome_iff_ne_none]

/-- `cancel` removes the record of the pair and no other. -/
theorem record_cancel (h : (cancel H env s m token).Returns σ u σ') :
    H.record σ' = H.record (σ.removeSubscription (H.subscriptionKey s m)) := by
  obtain ⟨-, -, rfl⟩ := returns_cancel.1 h
  simp

theorem returns_transferSubscription :
    (transferSubscription H env s m m').Returns σ u σ' ↔
      H.authorizes env s = true ∧ H.authorizes env m = true ∧ m ≠ m' ∧ s ≠ m' ∧
        ∃ d, H.record σ s m = some d ∧ H.record σ s m' = none ∧
          ((((σ.setSubscription (H.subscriptionKey s m') d).removeSubscription
            (H.subscriptionKey s m)).indexRemove m (H.subscriptionKey s m)).indexAdd m'
              (H.subscriptionKey s m')).publish (.subscriptionTransferred s m m') = σ' := by
  simp [transferSubscription, Host.record]

end Subscriptions

end SorobanPay
