import SorobanPay.Contract.FeeSplit
import SorobanPay.Lifecycle.Refinement
import SorobanPay.Tokens.Ledger

/-!
# The merchant's authorization does not suffice

The payment paths ask the merchant for authorization and then move the subscriber's tokens by
`transfer`, which a SEP-41 token refuses unless the subscriber has authorized the invocation. The
allowance the subscriber gave the contract is checked but would only be used by `transfer_from`.
In an invocation authorized by the merchant alone nothing is collected
(`not_collects_by_merchant_alone`).

## Main results

* `Charge.authorized`: whoever is charged has authorized the invocation.
* `not_collects_by_merchant_alone`: no path collects on the merchant's authorization alone.
-/

set_option autoImplicit false

namespace SorobanPay

open Foundation

variable {Address Hash : Type} [DecidableEq Address] [DecidableEq Hash]
  {H : Host Address Hash (TokenLedger Address) (External Address)}
  {symbols : Address → Option String} {env : Env Address}
  {σ σ' : State Address Hash (TokenLedger Address)} {s m token : Address}

omit [DecidableEq Hash] in
/-- A charge of a well-formed record is authorized by its subscriber. -/
theorem Charge.authorized (hH : OverLedger H symbols)
    {config : Option (ProtocolFeeConfig Address)} {d : SubscriptionData Address}
    {L : TokenLedger Address} {fees : List (Event Address)}
    (h : Charge H env config σ s m d L fees) : H.tokenAuthorization env s = true := by
  obtain ⟨a, L₁, hmerchant, -⟩ := transfers_of_payment h.paid
  rw [hH.transfer_eq] at hmerchant
  by_contra hauth
  rw [TokenLedger.transfer_eq_none_of_unauthorized (Bool.not_eq_true _ ▸ hauth)] at hmerchant
  cases hmerchant

/-- **Merchant authorization does not suffice to collect.** In every reachable state, an invocation
authorized by the merchant alone collects nothing: `execute_payment` does not succeed for any
subscriber, and no batch reports a charge. -/
theorem not_collects_by_merchant_alone (hkey : H.KeysInjective) (hH : OverLedger H symbols)
    (hreach : Reachable H σ) (halone : ∀ a, env.authorized a = true → a = m) :
    (∀ s token, ¬ ∃ σ', (executePayment H env s m token).Returns σ () σ') ∧
      ∀ token subscribers results σ',
        (batchExecutePayment H env m token subscribers).Returns σ results σ' →
          ∀ s, (s, true) ∉ results := by
  have hσ := hreach.sound hkey
  -- no record of `m` in a sound state is charged in this invocation
  have hnone : ∀ τ : State Address Hash (TokenLedger Address), Sound H τ → ∀ s d,
      H.record τ s m = some d → H.tokenAuthorization env s = false := by
    intro τ hτ s d hd
    have hsigned : env.authorized s = false :=
      Bool.eq_false_iff.2 fun h => hτ.distinct s m d hd (halone s h)
    simp [Host.tokenAuthorization, hsigned, hτ.subscriber_ne s m d hd]
  refine ⟨?_, ?_⟩
  · rintro s token ⟨σ', h⟩
    obtain ⟨-, d₀, hd₀, -, d, -, -, -, L, fees, hcharge, -⟩ := returns_executePayment.1 h
    simpa [hnone σ hσ s d₀ hd₀] using hcharge.authorized hH
  · intro token subscribers results σ' h s hmem
    obtain ⟨μ, hμ, hdeed⟩ := entry_of_report h hmem
    obtain ⟨hgen, hbefore⟩ := sound_of_mem_path hkey (path_microSteps σ _) hσ hμ
    obtain ⟨d, fees, hcollect⟩ := hgen.collects hbefore (.inr hdeed)
    have hsigned := hcollect.charge.authorized hH
    rw [env_of_mem_microSteps hμ, hnone μ.before hbefore s d hcollect.found] at hsigned
    cases hsigned

/-! ### A sample -/

/-- An environment signed by the merchant 2 alone. -/
def sampleMerchantEnv (now : ℕ) : Env UInt8 := { timestamp := now, authorized := fun a => a == 2 }

/-- The first payment of a subscription is due, covered and not marked, and neither path collects
it on the authorization of the merchant. -/
theorem not_collects_by_merchant_sample :
    ∃ d, sampleHost.record sampleSubscribed 1 2 = some d ∧ d.isPaused = false ∧
      d.nextPayment ≤ (sampleMerchantEnv 86401).timestamp ∧
      sampleSubscribed.hasExecutionMarker (sampleHost.subscriptionKey 1 2) d.paymentNonce = false ∧
      Approved sampleHost sampleSubscribed 1 d ∧ Funded sampleHost sampleSubscribed 1 d ∧
      Reachable sampleHost sampleSubscribed ∧
      (¬ ∃ σ', (executePayment sampleHost (sampleMerchantEnv 86401) 1 2 9).Returns
        sampleSubscribed () σ') ∧
      ¬ ∃ results σ', (batchExecutePayment sampleHost (sampleMerchantEnv 86401) 2 9 [1]).Returns
        sampleSubscribed results σ' ∧ (1, true) ∈ results := by
  have hexecute : (executePayment sampleHost (sampleMerchantEnv 86401) 1 2 9).Fails
      sampleSubscribed .abort := Tx.fails_iff.2 (by decide +kernel)
  have hbatch : (batchExecutePayment sampleHost (sampleMerchantEnv 86401) 2 9 [1]).Fails
      sampleSubscribed .abort := Tx.fails_iff.2 (by decide +kernel)
  exact ⟨⟨9, 100, 86400, 86401, false, 0, none, 0, none⟩, rfl, rfl, le_rfl, rfl,
    ⟨1000, rfl, by decide⟩, ⟨1000, rfl, by decide⟩, ⟨_, _, rfl⟩,
    fun ⟨_, h⟩ => hexecute.not_returns h, fun ⟨_, _, h, _⟩ => hbatch.not_returns h⟩

theorem not_collects_by_merchant_alone_sample :
    (∀ s token, ¬ ∃ σ', (executePayment sampleHost (sampleMerchantEnv 86401) s 2 token).Returns
      sampleSubscribed () σ') ∧
      ∀ token subscribers results σ',
        (batchExecutePayment sampleHost (sampleMerchantEnv 86401) 2 token subscribers).Returns
          sampleSubscribed results σ' → ∀ s, (s, true) ∉ results :=
  not_collects_by_merchant_alone sampleHost_keysInjective
    (show OverLedger sampleHost fun _ => some "TOK" from rfl) ⟨_, _, rfl⟩ fun a h => by
      simpa [sampleMerchantEnv] using h

end SorobanPay
