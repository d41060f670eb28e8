import SorobanPay.Contract.Spec

/-!
# What the payment paths do

`payment` is what the token contracts are left with after the transfers of one payment, with the
event of its fee; `Charge` collects the conditions under which either path charges a record, and
`State.settle` is the state both paths have reached when the record is rewritten. The single path
then writes an execution marker and publishes `executed`; an entry of a batch publishes
`payment_transfer_success` and `executed`.

## Main definitions

* `payment`, `Charge`, `State.settle`: a charge.
* `EntryStep`: the five ways an entry of a batch ends.

## Main results

* `payment_invariant`: what a payment keeps.
* `returns_payOut`, `returns_executePayment`, `returns_batchEntry`, `returns_batchExecutePayment`:
  the runs of the payment paths.
-/

set_option autoImplicit false

namespace SorobanPay

open Foundation

variable {Address Hash World Op : Type} [DecidableEq Address]

/-! ### One payment -/

omit [DecidableEq Address] in
/-- The event of the fee, if there is one. -/
def Split.events (split : Split Address) (subscriber merchant : Address) : List (Event Address) :=
  if split.feeAmount > 0 then
    match split.feeCollector with
    | some collector => [.feeCollected subscriber merchant collector split.feeAmount]
    | none => []
  else []

/-- The transfers of a split. -/
def Split.transfers (split : Split Address) (H : Host Address Hash World Op) (env : Env Address)
    (w : World) (subscriber merchant token : Address) : Option World := do
  let w' ← H.tokens.transfer (H.tokenAuthorization env) w token subscriber merchant
    split.merchantAmount
  if split.feeAmount > 0 then
    match split.feeCollector with
    | some collector =>
      H.tokens.transfer (H.tokenAuthorization env) w' token subscriber collector split.feeAmount
    | none => some w'
  else some w'

/-- What the token contracts become by one payment, and the event of its fee. -/
def payment (H : Host Address Hash World Op) (env : Env Address)
    (config : Option (ProtocolFeeConfig Address)) (w : World)
    (subscriber merchant token : Address) (amount : ℤ) : Option (World × List (Event Address)) := do
  let split ← feeSplit config amount
  let w' ← split.transfers H env w subscriber merchant token
  some (w', split.events subscriber merchant)

namespace State

/-- The state of either path once it has rewritten the record: the transfers are made, the fee is
reported, and the record counts one more payment. -/
def settle [DecidableEq Hash] (σ : State Address Hash World) (hash : Hash)
    (d : SubscriptionData Address) (now : ℕ) (w : World) (fees : List (Event Address)) :
    State Address Hash World :=
  ((σ.setTokens w).publishAll fees).setSubscription hash (d.collected now)

end State

section

variable (H : Host Address Hash World Op) (env : Env Address)

omit [DecidableEq Address] in
/-- The contract may move the amount of a record. -/
def Approved (σ : State Address Hash World) (s : Address) (d : SubscriptionData Address) : Prop :=
  ∃ a, H.tokens.allowance σ.tokens d.token s H.currentContractAddress = some a ∧ d.amount ≤ a

omit [DecidableEq Address] in
/-- The subscriber holds the amount of a record. -/
def Funded (σ : State Address Hash World) (s : Address) (d : SubscriptionData Address) : Prop :=
  ∃ b, H.tokens.balance σ.tokens d.token s = some b ∧ d.amount ≤ b

omit [DecidableEq Address] in
private theorem approved_and {H : Host Address Hash World Op} {σ : State Address Hash World}
    {s : Address} {d : SubscriptionData Address} {P : Prop} :
    (∃ a, H.tokens.allowance σ.tokens d.token s H.currentContractAddress = some a ∧
      d.amount ≤ a ∧ P) ↔ Approved H σ s d ∧ P := by
  simp only [Approved, ← and_assoc, exists_and_right]

omit [DecidableEq Address] in
private theorem funded_and {H : Host Address Hash World Op} {σ : State Address Hash World}
    {s : Address} {d : SubscriptionData Address} {P : Prop} :
    (∃ b, H.tokens.balance σ.tokens d.token s = some b ∧ d.amount ≤ b ∧ P) ↔
      Funded H σ s d ∧ P := by
  simp only [Funded, ← and_assoc, exists_and_right]

/-- The conditions, shared by both paths, under which a record that is due is charged: allowance
and balance cover the amount, the transfers go through, and the new schedule and nonce fit. -/
@[mk_iff] structure Charge (config : Option (ProtocolFeeConfig Address))
    (σ : State Address Hash World) (s m : Address) (d : SubscriptionData Address) (w : World)
    (fees : List (Event Address)) : Prop where
  approved : Approved H σ s d
  funded : Funded H σ s d
  paid : payment H env config σ.tokens s m d.token d.amount = some (w, fees)
  next_fits : env.timestamp + d.interval < 2 ^ 64
  nonce_fits : d.paymentNonce + 1 < 2 ^ 32

end

section Payments

variable {H : Host Address Hash World Op} {env : Env Address} {σ σ' : State Address Hash World}
  {config : Option (ProtocolFeeConfig Address)} {s m token : Address}

theorem returns_payOut {amount : ℤ} {u : Unit} :
    (payOut H env config s m token amount).Returns σ u σ' ↔
      ∃ w fees, payment H env config σ.tokens s m token amount = some (w, fees) ∧
        (σ.setTokens w).publishAll fees = σ' := by
  rcases hsplit : feeSplit config amount with _ | ⟨rest, fee, collector⟩
  · simp [payOut, payment, hsplit]
  · simp only [payOut, payment, Split.transfers, Split.events, hsplit]
    by_cases hfee : 0 < fee
    · cases collector with
      | none => simp [hfee, Option.bind_eq_some_iff]
      | some collector =>
        simp only [Tx.returns_bind, Option.bind_eq_bind, Option.bind_eq_some_iff]
        simp [hfee]
        constructor
        · rintro ⟨w, hw, w', hw', hσ⟩
          exact ⟨w', ⟨w, hw, hw'⟩, hσ⟩
        · rintro ⟨w', ⟨w, hw, hw'⟩, hσ⟩
          exact ⟨w, hw, w', hw', hσ⟩
    · simp [hfee, Option.bind_eq_some_iff]

/-- A payment transfers the token from the subscriber to the merchant first, and then at most to the
fee collector. -/
theorem transfers_of_payment {w w' : World} {amount : ℤ} {fees : List (Event Address)}
    (h : payment H env config w s m token amount = some (w', fees)) :
    ∃ a w₁, H.tokens.transfer (H.tokenAuthorization env) w token s m a = some w₁ ∧
      (w₁ = w' ∨
        ∃ dst b, H.tokens.transfer (H.tokenAuthorization env) w₁ token s dst b = some w') := by
  simp only [payment, Split.transfers, Option.bind_eq_bind, Option.bind_eq_some_iff,
    Option.some.injEq, Prod.mk.injEq] at h
  obtain ⟨split, -, w₂, ⟨w₁, hmerchant, hfee⟩, rfl, -⟩ := h
  refine ⟨_, w₁, hmerchant, ?_⟩
  split_ifs at hfee
  · split at hfee
    · exact .inr ⟨_, _, hfee⟩
    · exact .inl (Option.some.inj hfee)
  · exact .inl (Option.some.inj hfee)

/-- A payment reports nothing but its fee. -/
theorem events_of_payment {w w' : World} {amount : ℤ} {fees : List (Event Address)}
    (h : payment H env config w s m token amount = some (w', fees)) :
    ∀ event ∈ fees, ∃ collector fee, event = .feeCollected s m collector fee := by
  simp only [payment, Option.bind_eq_bind, Option.bind_eq_some_iff, Option.some.injEq,
    Prod.mk.injEq] at h
  obtain ⟨split, -, w₁, -, -, rfl⟩ := h
  unfold Split.events
  split_ifs
  · split
    · exact List.forall_mem_singleton.2 ⟨_, _, rfl⟩
    · exact List.forall_mem_nil _
  · exact List.forall_mem_nil _

/-- What every transfer of the token from the subscriber keeps, a payment keeps. -/
theorem payment_invariant {I : World → Prop} {w w' : World} {amount : ℤ}
    {fees : List (Event Address)}
    (hI : ∀ w dst a w',
      H.tokens.transfer (H.tokenAuthorization env) w token s dst a = some w' → I w → I w')
    (h : payment H env config w s m token amount = some (w', fees)) (hw : I w) : I w' := by
  obtain ⟨a, w₁, hmerchant, rfl | ⟨dst, b, hfee⟩⟩ := transfers_of_payment h
  · exact hI w m a w₁ hmerchant hw
  · exact hI w₁ dst b w' hfee (hI w m a w₁ hmerchant hw)

/-- The transfers of a payment end in no error of the contract, they abort. -/
theorem not_fails_payOut {amount : ℤ} {e : ContractError} :
    ¬ (payOut H env config s m token amount).Fails σ (.error e) := by
  rcases hsplit : feeSplit config amount with _ | ⟨rest, fee, collector⟩
  · simp [payOut, hsplit]
  · cases collector <;> simp [payOut, hsplit, tokenTransfer]

variable [DecidableEq Hash]

/-- What `execute_payment` makes of the pause of a record: a record that is not paused stays, one
whose pause has elapsed is resumed. -/
def SubscriptionData.Unpaused (now : ℕ) (d d' : SubscriptionData Address) : Prop :=
  (d.isPaused = false ∧ d = d') ∨
    (d.isPaused = true ∧ (∃ r, d.pausedUntil = some r ∧ r ≤ now) ∧ now + d.interval < 2 ^ 64 ∧
      d.resumed now = d')

omit [DecidableEq Address] [DecidableEq Hash] in
theorem returns_clearElapsedPause {now : ℕ} {d d' : SubscriptionData Address} :
    (clearElapsedPause now d : Contract Address Hash World _).Returns σ d' σ' ↔
      d.Unpaused now d' ∧ σ = σ' := by
  unfold clearElapsedPause SubscriptionData.Unpaused
  rcases hp : d.isPaused with _ | _
  · simp
  · rcases hu : d.pausedUntil with _ | r
    · simp
    · simp [SubscriptionData.resumed, and_assoc]

omit [DecidableEq Address] [DecidableEq Hash] in
theorem fails_clearElapsedPause {now : ℕ} {d : SubscriptionData Address} {e : Fault}
    (h : (clearElapsedPause now d : Contract Address Hash World _).Fails σ e) :
    e = .error .subscriptionPaused ∨ e = .error .invalidTimestamp := by
  unfold clearElapsedPause at h
  rcases hp : d.isPaused with _ | _
  · simp [hp] at h
  · rcases hu : d.pausedUntil with _ | r
    · simp [hp, hu] at h
      exact .inl h.symm
    · simp only [hp, hu, if_true, Tx.fails_ite] at h
      split_ifs at h
      · simp [checkedNextPayment] at h
        exact .inr h.2.symm
      · exact .inl (Tx.fails_fail.1 h).symm

/-- **The single path.** -/
theorem returns_executePayment {u : Unit} :
    (executePayment H env s m token).Returns σ u σ' ↔
      H.authorizes env m = true ∧ ∃ d₀, H.record σ s m = some d₀ ∧ 0 < env.timestamp ∧
        ∃ d, d₀.Unpaused env.timestamp d ∧ d.nextPayment ≤ env.timestamp ∧
          σ.hasExecutionMarker (H.subscriptionKey s m) d.paymentNonce = false ∧
          ∃ w fees, Charge H env σ.protocolFee σ s m d w fees ∧
            ((σ.settle (H.subscriptionKey s m) d env.timestamp w fees).writeExecutionMarker
              (H.subscriptionKey s m) (d.paymentNonce + 1)).publish
                (.executed s m d.token d.amount (d.paymentNonce + 1)) = σ' := by
  simp [executePayment, returns_clearElapsedPause, returns_payOut, Host.record, charge_iff,
    approved_and, funded_and, State.settle, SubscriptionData.collected, getProtocolFeeConfig,
    and_assoc]

/-- The five ways an entry of a batch ends, with the report on the entry. -/
inductive EntryStep (H : Host Address Hash World Op) (env : Env Address)
    (config : Option (ProtocolFeeConfig Address)) (s m : Address) (σ : State Address Hash World) :
    Bool → State Address Hash World → Prop
  | absent (hr : H.record σ s m = none) : EntryStep H env config s m σ false σ
  | notDue {d : SubscriptionData Address} (hr : H.record σ s m = some d)
      (early : env.timestamp < d.nextPayment) : EntryStep H env config s m σ false σ
  | lowAllowance {d : SubscriptionData Address} {a : ℤ} (hr : H.record σ s m = some d)
      (due : d.nextPayment ≤ env.timestamp)
      (ha : H.tokens.allowance σ.tokens d.token s H.currentContractAddress = some a)
      (low : a < d.amount) :
      EntryStep H env config s m σ false (σ.publish (.insufficientAllowance s m a d.amount))
  | underfunded {d : SubscriptionData Address} {b : ℤ} (hr : H.record σ s m = some d)
      (due : d.nextPayment ≤ env.timestamp) (approved : Approved H σ s d)
      (hb : H.tokens.balance σ.tokens d.token s = some b) (low : b < d.amount) :
      EntryStep H env config s m σ false
        ((σ.setSubscription (H.subscriptionKey s m) (d.overdue env.timestamp)).publish
          (.paymentTransferFailure s m d.amount (d.overdueSince.getD env.timestamp)))
  | charged {d : SubscriptionData Address} {w : World} {fees : List (Event Address)}
      (hr : H.record σ s m = some d) (due : d.nextPayment ≤ env.timestamp)
      (charge : Charge H env config σ s m d w fees) :
      EntryStep H env config s m σ true
        (((σ.settle (H.subscriptionKey s m) d env.timestamp w fees).publish
          (.paymentTransferSuccess s m d.amount)).publish
            (.executed s m d.token d.amount (d.paymentNonce + 1)))

/-- **The body of the batch loop.** -/
theorem returns_batchEntry {charged : Bool} :
    (batchEntry H env config env.timestamp m s).Returns σ charged σ' ↔
      EntryStep H env config s m σ charged σ' := by
  constructor
  · intro h
    rcases hr : H.record σ s m with _ | d <;>
      simp only [Host.record] at hr
    · simp [batchEntry, hr] at h
      obtain ⟨rfl, rfl⟩ := h
      exact .absent hr
    · rcases lt_or_ge env.timestamp d.nextPayment with early | due
      · simp [batchEntry, assertPaymentDue, hr, early] at h
        obtain ⟨rfl, rfl⟩ := h
        exact .notDue hr early
      · simp [batchEntry, assertPaymentDue, hr, due.not_gt, returns_payOut] at h
        obtain ⟨a, ha, h⟩ := h
        split_ifs at h with hlow
        · obtain ⟨rfl, rfl⟩ := h
          exact .lowAllowance hr due ha hlow
        obtain ⟨b, hb, h⟩ := h
        split_ifs at h with hshort
        · obtain ⟨rfl, rfl⟩ := h
          exact .underfunded hr due ⟨a, ha, not_lt.1 hlow⟩ hb hshort
        obtain ⟨w, fees, hpay, hnext, hnonce, rfl, rfl⟩ := h
        exact .charged hr due
          ⟨⟨a, ha, not_lt.1 hlow⟩, ⟨b, hb, not_lt.1 hshort⟩, hpay, hnext, hnonce⟩
  · intro h
    cases h with
    | absent hr =>
      simp only [Host.record] at hr
      simp [batchEntry, hr]
    | notDue hr early =>
      simp only [Host.record] at hr
      simp [batchEntry, assertPaymentDue, hr, early]
    | lowAllowance hr due ha low =>
      simp only [Host.record] at hr
      simp [batchEntry, assertPaymentDue, hr, due.not_gt, ha, low]
    | underfunded hr due approved hb low =>
      obtain ⟨a, ha, hle⟩ := approved
      simp only [Host.record] at hr
      simp [batchEntry, assertPaymentDue, hr, due.not_gt, ha, hle.not_gt, hb, low,
        SubscriptionData.overdue]
    | charged hr due charge =>
      obtain ⟨⟨a, ha, hle⟩, ⟨b, hb, hle'⟩, hpay, hnext, hnonce⟩ := charge
      simp only [Host.record] at hr
      simp [batchEntry, assertPaymentDue, hr, due.not_gt, ha, hb, returns_payOut, hpay,
        State.settle, SubscriptionData.collected]
      exact ⟨hle, hle', hnext, hnonce⟩

@[simp] theorem returns_batchLoop_nil {now : ℕ} {results : List (Address × Bool)} :
    (batchLoop H env config now m []).Returns σ results σ' ↔ [] = results ∧ σ = σ' := by
  simp [batchLoop]

theorem returns_batchLoop_cons {subscribers : List Address} {results : List (Address × Bool)} :
    (batchLoop H env config env.timestamp m (s :: subscribers)).Returns σ results σ' ↔
      ∃ charged τ, EntryStep H env config s m σ charged τ ∧
        ∃ rest, (batchLoop H env config env.timestamp m subscribers).Returns τ rest σ' ∧
          (s, charged) :: rest = results := by
  simp [batchLoop, returns_batchEntry]

/-- **The batch path.** -/
theorem returns_batchExecutePayment {subscribers : List Address}
    {results : List (Address × Bool)} :
    (batchExecutePayment H env m token subscribers).Returns σ results σ' ↔
      H.authorizes env m = true ∧ subscribers ≠ [] ∧ subscribers.length ≤ batchMaxSize ∧
        0 < env.timestamp ∧
        (batchLoop H env σ.protocolFee env.timestamp m subscribers).Returns
          (σ.publish (.batchExecuteInitiated m subscribers.length)) results σ' := by
  simp [batchExecutePayment, getProtocolFeeConfig]

end Payments

end SorobanPay
