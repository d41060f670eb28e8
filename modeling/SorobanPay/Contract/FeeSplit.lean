import SorobanPay.Contract.Collection

/-!
# The fee split

For the amounts and the fee rates the contract stores, the `i128` arithmetic of the fee split does
not overflow, the fee is the floor of its share of the amount, and something remains for the
merchant.

## Main definitions

* `feeRate`: the rate of a fee configuration, in basis points.
* `FairSplit`: what a fee split is meant to be.

## Main results

* `exists_fairSplit`: accepted amounts and rates have a fair split.
* `payment_eq_some_iff`: a payment is the transfer to the merchant and, if there is a fee, the
  transfer to the collector.
* `exists_payment`: a payment goes through if its transfers do.
-/

set_option autoImplicit false

namespace SorobanPay

open Foundation

variable {Address Hash World Op : Type}

/-- The rate of a fee configuration, in basis points. -/
def feeRate (config : Option (ProtocolFeeConfig Address)) : ℕ :=
  (config.map (·.feeBps)).getD 0

/-- What the split of an amount under a fee configuration is meant to be. -/
structure FairSplit (config : Option (ProtocolFeeConfig Address)) (amount : ℤ)
    (split : Split Address) : Prop where
  fee_eq : split.feeAmount = amount * feeRate config / 10000
  merchant_eq : split.merchantAmount = amount - split.feeAmount
  fee_nonneg : 0 ≤ split.feeAmount
  fee_lt : split.feeAmount < amount
  collector : 0 < split.feeAmount →
    ∃ cfg, config = some cfg ∧ split.feeCollector = some cfg.feeCollector

section Arithmetic

variable {config : Option (ProtocolFeeConfig Address)} {amount : ℤ}

/-- No step of the split of an accepted amount overflows. -/
theorem share_fits {feeBps : ℕ} (hpos : 0 < amount) (hle : amount ≤ maxAmount)
    (hfee : feeBps ≤ maxFeeBps) :
    asSigned 128 (amount * feeBps) = some (amount * feeBps) ∧
      asSigned 128 (amount - (amount * feeBps).tdiv 10000) =
        some (amount - (amount * feeBps).tdiv 10000) := by
  have hnonneg : (0 : ℤ) ≤ feeBps := Int.natCast_nonneg _
  have hbps : (feeBps : ℤ) ≤ 500 := by exact_mod_cast hfee
  have hle : amount ≤ 1000000000000000000 := hle
  have hlow : 0 ≤ amount * feeBps := mul_nonneg hpos.le hnonneg
  have hhigh : amount * feeBps ≤ 1000000000000000000 * 500 :=
    mul_le_mul hle hbps hnonneg (by norm_num)
  have hshare_nonneg : 0 ≤ (amount * feeBps).tdiv 10000 :=
    tdiv_share_nonneg hpos.le hnonneg (by norm_num)
  have hshare_lt : (amount * feeBps).tdiv 10000 < amount :=
    tdiv_share_lt hpos hnonneg (by linarith)
  constructor <;> simp only [asSigned_eq_some_iff, and_true] <;> norm_num <;> constructor <;>
    linarith

/-- **The fee split is fair.** Accepted amounts and rates split without overflow, the fee is the
floor of its share, and it is less than the amount. -/
theorem exists_fairSplit (hpos : 0 < amount) (hle : amount ≤ maxAmount)
    (hfee : ∀ cfg, config = some cfg → cfg.feeBps ≤ maxFeeBps) :
    ∃ split, feeSplit config amount = some split ∧ FairSplit config amount split := by
  rcases config with _ | cfg
  · exact ⟨_, rfl, by simp [feeRate], by simp, le_rfl, hpos, by simp⟩
  · by_cases hrate : 0 < cfg.feeBps
    · obtain ⟨hproduct, hrest⟩ := share_fits hpos hle (hfee cfg rfl)
      have hnonneg : (0 : ℤ) ≤ cfg.feeBps := Int.natCast_nonneg _
      have hbps : (cfg.feeBps : ℤ) ≤ 500 := by exact_mod_cast hfee cfg rfl
      refine ⟨_, by simp [feeSplit, hrate, hproduct, hrest]; rfl, ?_, rfl, ?_, ?_,
        fun _ => ⟨cfg, rfl, rfl⟩⟩
      · exact tdiv_share_eq_ediv hpos.le hnonneg
      · exact tdiv_share_nonneg hpos.le hnonneg (by norm_num)
      · exact tdiv_share_lt hpos hnonneg (by linarith)
    · have hzero : cfg.feeBps = 0 := Nat.eq_zero_of_not_pos hrate
      refine ⟨_, by simp [feeSplit, hrate]; rfl, by simp [feeRate, hzero], by simp, le_rfl, hpos,
        by simp⟩

end Arithmetic

/-! ### Transfers of a payment -/

section Transfers

variable [DecidableEq Address] {H : Host Address Hash World Op} {env : Env Address}
  {config : Option (ProtocolFeeConfig Address)} {split : Split Address} {amount : ℤ} {w w' : World}
  {s m token : Address} {fees : List (Event Address)}

/-- A payment is the transfer to the merchant and, if there is a fee, the transfer to the
collector. -/
theorem payment_eq_some_iff (hsplit : feeSplit config amount = some split)
    (hfair : FairSplit config amount split) :
    payment H env config w s m token amount = some (w', fees) ↔
      ∃ w₁, H.tokens.transfer (H.tokenAuthorization env) w token s m (amount - split.feeAmount) =
          some w₁ ∧
        if 0 < split.feeAmount then
          ∃ cfg, config = some cfg ∧
            H.tokens.transfer (H.tokenAuthorization env) w₁ token s cfg.feeCollector
              split.feeAmount = some w' ∧
            [.feeCollected s m cfg.feeCollector split.feeAmount] = fees
        else w₁ = w' ∧ [] = fees := by
  rw [← hfair.merchant_eq]
  simp only [payment, hsplit, Split.transfers, Split.events]
  by_cases hfee : 0 < split.feeAmount
  · obtain ⟨cfg, rfl, hcollector⟩ := hfair.collector hfee
    simp [hfee, hcollector, Option.bind_eq_some_iff, ← and_assoc]
  · simp [hfee, Option.bind_eq_some_iff]

/-- A payment goes through if its transfers do, whatever the fee is. -/
theorem exists_payment (hpos : 0 < amount) (hle : amount ≤ maxAmount)
    (hfee : ∀ cfg, config = some cfg → cfg.feeBps ≤ maxFeeBps)
    (htransfer : ∀ fee, 0 ≤ fee → fee < amount →
      ∃ w₁, H.tokens.transfer (H.tokenAuthorization env) w token s m (amount - fee) = some w₁ ∧
        ∀ dst, ∃ w₂, H.tokens.transfer (H.tokenAuthorization env) w₁ token s dst fee = some w₂) :
    ∃ w' fees, payment H env config w s m token amount = some (w', fees) := by
  obtain ⟨split, hsplit, hfair⟩ := exists_fairSplit hpos hle hfee
  obtain ⟨w₁, hmerchant, hcollector⟩ := htransfer _ hfair.fee_nonneg hfair.fee_lt
  by_cases hpay : 0 < split.feeAmount
  · obtain ⟨cfg, hcfg, -⟩ := hfair.collector hpay
    obtain ⟨w₂, hw₂⟩ := hcollector cfg.feeCollector
    exact ⟨w₂, _, (payment_eq_some_iff hsplit hfair).2
      ⟨w₁, hmerchant, by rw [if_pos hpay]; exact ⟨cfg, hcfg, hw₂, rfl⟩⟩⟩
  · exact ⟨w₁, _, (payment_eq_some_iff hsplit hfair).2
      ⟨w₁, hmerchant, by rw [if_neg hpay]; exact ⟨rfl, rfl⟩⟩⟩

end Transfers

end SorobanPay
