import SorobanPay.Contract.FeeSplit
import SorobanPay.Lifecycle.Refinement
import SorobanPay.Tokens.Ledger

/-!
# Conservation of money

Over tokens that are ledgers, a collection takes the stored amount from the subscriber, gives the
collector its floored share and the merchant the rest, and touches no other balance; nothing else
the contract does moves tokens. Over a whole run, what the contract has taken from a subscriber in
a token is the sum of the amounts in the `executed` events for that subscriber and token.

## Main definitions

* `IsLedger`: the tokens are ledgers whose transfers move exactly the given amount or abort.
* `Conserves`: what one collection moves.
* `debit`, `executedAmount`: what a micro-step takes from a subscriber, and what an event reports.

## Main results

* `Collects.conserves`: one collection.
* `money_conservation`: whole runs.
-/

set_option autoImplicit false

namespace SorobanPay

open Foundation

variable {Address Hash World Op : Type}

/-! ### Ledgers -/

section Statement

variable [DecidableEq Address]

/-- The token contracts are ledgers with the balances `bal`: a transfer that does not abort moves
exactly the given amount. -/
structure IsLedger (tokens : TokenHost Address World Op) (bal : World → Address → Address → ℤ) :
    Prop where
  balance : ∀ w token holder, tokens.balance w token holder = some (bal w token holder)
  transfer : ∀ authorized w token src dst amount w',
    tokens.transfer authorized w token src dst amount = some w' → ∀ t x,
      bal w' t x = bal w t x - (if t = token ∧ x = src then amount else 0) +
        (if t = token ∧ x = dst then amount else 0)

/-- The fee on an amount. -/
def feeOn (config : Option (ProtocolFeeConfig Address)) (amount : ℤ) : ℤ :=
  amount * feeRate config / 10000

/-- What a collection of `d` for `(s, m)` does to the balances: `s` pays the amount, `m` receives
it less the fee, the collector receives the fee, no other balance changes, and no step of the
arithmetic overflows an `i128`. -/
structure Conserves (bal : World → Address → Address → ℤ)
    (config : Option (ProtocolFeeConfig Address)) (w w' : World) (s m : Address)
    (d : SubscriptionData Address) : Prop where
  product_fits : asSigned 128 (d.amount * feeRate config) = some (d.amount * feeRate config)
  rest_fits : asSigned 128 (d.amount - feeOn config d.amount) =
    some (d.amount - feeOn config d.amount)
  rest_pos : 0 < d.amount - feeOn config d.amount
  debited : bal w' d.token s = bal w d.token s - d.amount
  credited : ∀ t x, ¬ (t = d.token ∧ x = s) →
    bal w' t x = bal w t x +
      (if t = d.token ∧ x = m then d.amount - feeOn config d.amount else 0) +
      (if t = d.token ∧ config.map (·.feeCollector) = some x then feeOn config d.amount else 0)

end Statement

/-! ### One collection -/

section Collection

variable [DecidableEq Address] {H : Host Address Hash World Op} {env : Env Address}
  {bal : World → Address → Address → ℤ} {config : Option (ProtocolFeeConfig Address)}
  {w w' : World} {s m token : Address} {amount : ℤ} {fees : List (Event Address)}

/-- What the transfers of a payment do to all balances. -/
theorem payment_moves (hledger : IsLedger H.tokens bal) (hpos : 0 < amount)
    (hle : amount ≤ maxAmount) (hfee : ∀ cfg, config = some cfg → cfg.feeBps ≤ maxFeeBps)
    (hpay : payment H env config w s m token amount = some (w', fees)) (t x : Address) :
    bal w' t x = bal w t x - (if t = token ∧ x = s then amount else 0) +
      (if t = token ∧ x = m then amount - feeOn config amount else 0) +
      (if t = token ∧ config.map (·.feeCollector) = some x then feeOn config amount else 0) := by
  obtain ⟨split, hsplit, hfair⟩ := exists_fairSplit hpos hle hfee
  obtain ⟨w₁, hmerchant, hrest⟩ := (payment_eq_some_iff hsplit hfair).1 hpay
  have hshare : split.feeAmount = feeOn config amount := hfair.fee_eq
  have hmoved := hledger.transfer _ _ _ _ _ _ _ hmerchant t x
  by_cases hpositive : 0 < split.feeAmount
  · rw [if_pos hpositive] at hrest
    obtain ⟨cfg, rfl, hcollector, -⟩ := hrest
    have hmoved' := hledger.transfer _ _ _ _ _ _ _ hcollector t x
    rw [hmoved', hmoved, ← hshare]
    simp only [Option.map_some, Option.some.injEq, eq_comm (a := cfg.feeCollector)]
    split_ifs <;> omega
  · rw [if_neg hpositive] at hrest
    obtain ⟨rfl, -⟩ := hrest
    have hzero : split.feeAmount = 0 := le_antisymm (not_lt.1 hpositive) hfair.fee_nonneg
    rw [hmoved, ← hshare, hzero]
    split_ifs <;> omega

variable [DecidableEq Hash] {μ : MicroStep Address Hash World Op} {d : SubscriptionData Address}

/-- **One collection conserves money.** -/
theorem Collects.conserves (hledger : IsLedger H.tokens bal) (hσ : Sound H μ.before)
    (h : Collects H μ s m d fees)
    (hcollector : ∀ cfg, μ.before.protocolFee = some cfg → cfg.feeCollector ≠ s) :
    Conserves bal μ.before.protocolFee μ.before.tokens μ.after.tokens s m d := by
  have hwf := hσ.wellFormed s m d h.found
  have hmoves := payment_moves hledger hwf.amount_pos hwf.amount_le hσ.fee_le h.charge.paid
  obtain ⟨split, hsplit, hfair⟩ := exists_fairSplit hwf.amount_pos hwf.amount_le hσ.fee_le
  have hrate : feeRate μ.before.protocolFee ≤ maxFeeBps := by
    rcases hcfg : μ.before.protocolFee with _ | cfg
    · simp [feeRate]
    · exact hσ.fee_le cfg hcfg
  obtain ⟨hproduct, hrest⟩ := share_fits hwf.amount_pos hwf.amount_le hrate
  rw [tdiv_share_eq_ediv hwf.amount_pos.le (Int.natCast_nonneg _)] at hrest
  have hlt : feeOn μ.before.protocolFee d.amount < d.amount := by
    have := hfair.fee_lt
    rwa [hfair.fee_eq] at this
  refine ⟨hproduct, hrest, by omega, ?_, fun t x hx => ?_⟩
  · have hs := hmoves d.token s
    rw [if_pos ⟨rfl, rfl⟩, if_neg fun hm => hσ.distinct s m d h.found hm.2, if_neg] at hs
    · omega
    · rintro ⟨-, hc⟩
      obtain ⟨cfg, hcfg, hc⟩ := Option.map_eq_some_iff.1 hc
      exact hcollector cfg hcfg hc
  · rw [hmoves t x, if_neg hx, sub_zero]

end Collection

/-! ### Whole runs -/

section Runs

/-- What the contract takes from the balance of `x` in the token `t` in one micro-step. Operations
of others are not the contract's. -/
def debit (bal : World → Address → Address → ℤ) (t x : Address)
    (μ : MicroStep Address Hash World Op) : ℤ :=
  match μ.deed with
  | .external _ => 0
  | _ => max 0 (bal μ.before.tokens t x - bal μ.after.tokens t x)

variable [DecidableEq Address]

/-- What an event reports as collected from `x` in the token `t`. -/
def Event.executedAmount (t x : Address) : Event Address → ℤ
  | .executed subscriber _ token amount _ => if token = t ∧ subscriber = x then amount else 0
  | _ => 0

/-- What a list of events reports as collected from `x` in the token `t`. -/
def executedTotal (t x : Address) (events : List (Event Address)) : ℤ :=
  (events.map (Event.executedAmount t x)).sum

@[simp] theorem executedTotal_append (t x : Address) (events events' : List (Event Address)) :
    executedTotal t x (events ++ events') =
      executedTotal t x events + executedTotal t x events' := by
  simp [executedTotal]

theorem executedTotal_eq_zero {t x : Address} {events : List (Event Address)}
    (h : ∀ event ∈ events, ¬ event.IsExecuted) : executedTotal t x events = 0 := by
  refine List.sum_eq_zero fun amount hamount => ?_
  obtain ⟨event, hevent, rfl⟩ := List.mem_map.1 hamount
  cases event with
  | executed => exact (h _ hevent trivial).elim
  | _ => rfl

theorem not_isExecuted_of_payment {H : Host Address Hash World Op} {env : Env Address}
    {config : Option (ProtocolFeeConfig Address)} {w w' : World} {s m token : Address} {amount : ℤ}
    {fees : List (Event Address)}
    (h : payment H env config w s m token amount = some (w', fees)) :
    ∀ event ∈ fees, ¬ event.IsExecuted := by
  intro event hevent
  obtain ⟨collector, fee, rfl⟩ := events_of_payment h event hevent
  exact id

variable [DecidableEq Hash] {H : Host Address Hash World Op}
  {bal : World → Address → Address → ℤ} {μ : MicroStep Address Hash World Op}
  {σ σ' : State Address Hash World}

/-- Whatever is not a charge and not an operation of others moves no tokens and reports no
payment. -/
theorem MicroStep.Genuine.idle (hμ : μ.Genuine H) (hcharge : ∀ s m, ¬ μ.deed.IsCharge s m)
    (hexternal : ∀ op, μ.deed ≠ .external op) :
    μ.after.tokens = μ.before.tokens ∧
      ∀ t x, executedTotal t x μ.after.events = executedTotal t x μ.before.events := by
  cases hμ with
  | applied plain h =>
    have hframe := Call.frame plain h
    obtain ⟨events, hevents, hnone⟩ := hframe.events
    exact ⟨hframe.tokens, fun t x => by
      simp only [hevents, executedTotal_append, executedTotal_eq_zero hnone, add_zero]⟩
  | executed => exact (hcharge _ _ (.inl rfl)).elim
  | entry auth hnow h =>
    cases h with
    | absent | notDue => exact ⟨rfl, fun _ _ => rfl⟩
    | lowAllowance | underfunded =>
      exact ⟨rfl, fun t x => by simp [executedTotal, Event.executedAmount]⟩
    | charged => exact (hcharge _ _ (.inr rfl)).elim
  | opened => exact ⟨rfl, fun t x => by simp [executedTotal, Event.executedAmount]⟩
  | external => exact (hexternal _ rfl).elim
  | reverted | lapsed => exact ⟨rfl, fun _ _ => rfl⟩

/-- A charge debits what its event reports. -/
theorem Collects.debit_eq (hledger : IsLedger H.tokens bal) (hσ : Sound H μ.before) {s m : Address}
    {d : SubscriptionData Address} {fees : List (Event Address)} (h : Collects H μ s m d fees)
    (hc : μ.deed.IsCharge s m)
    (hcollector : ∀ cfg, μ.before.protocolFee = some cfg → cfg.feeCollector ≠ s) (t x : Address) :
    executedTotal t x μ.after.events = executedTotal t x μ.before.events + debit bal t x μ := by
  have hconserves := h.conserves hledger hσ hcollector
  have hwf := hσ.wellFormed s m d h.found
  have hdebit : debit bal t x μ =
      max 0 (bal μ.before.tokens t x - bal μ.after.tokens t x) := by
    rcases hc with hc | hc <;> simp only [debit, hc]
  obtain ⟨success, hsuccess, hevents⟩ := h.published
  have hfees : executedTotal t x fees = 0 :=
    executedTotal_eq_zero (not_isExecuted_of_payment h.charge.paid)
  have hsuccess : executedTotal t x success = 0 := by
    rcases hsuccess with rfl | rfl <;> simp [executedTotal, Event.executedAmount]
  rw [hevents, hdebit]
  simp only [executedTotal_append, hfees, hsuccess, add_zero]
  congr 1
  by_cases hpair : t = d.token ∧ x = s
  · obtain ⟨rfl, rfl⟩ := hpair
    have := hconserves.debited
    have := hwf.amount_pos
    simp only [executedTotal, Event.executedAmount, List.map_cons, List.map_nil, List.sum_cons,
      List.sum_nil]
    simp only [and_self, if_true]
    omega
  · have hcredited := hconserves.credited t x hpair
    have hnonneg : 0 ≤ feeOn μ.before.protocolFee d.amount :=
      Int.ediv_nonneg (mul_nonneg hwf.amount_pos.le (Int.natCast_nonneg _)) (by norm_num)
    have hrest := hconserves.rest_pos
    have hevent : executedTotal t x [.executed s m d.token d.amount (d.paymentNonce + 1)] = 0 := by
      simp only [executedTotal, Event.executedAmount, List.map_cons, List.map_nil, List.sum_cons,
        List.sum_nil, add_zero]
      exact if_neg fun h => hpair ⟨h.1.symm, h.2.symm⟩
    rw [hevent]
    split_ifs at hcredited <;> omega

/-- A micro-step reports what it debits. -/
theorem MicroStep.Genuine.debit_eq (hledger : IsLedger H.tokens bal) (hσ : Sound H μ.before)
    (hμ : μ.Genuine H)
    (hcollector : ∀ s m, μ.deed.IsCharge s m →
      ∀ cfg, μ.before.protocolFee = some cfg → cfg.feeCollector ≠ s) (t x : Address) :
    executedTotal t x μ.after.events = executedTotal t x μ.before.events + debit bal t x μ := by
  by_cases hcharge : ∃ s m, μ.deed.IsCharge s m
  · obtain ⟨s, m, hc⟩ := hcharge
    obtain ⟨d, fees, hcollect⟩ := hμ.collects hσ hc
    exact hcollect.debit_eq hledger hσ hc (hcollector s m hc) t x
  by_cases hexternal : ∃ op, μ.deed = .external op
  · obtain ⟨op, hop⟩ := hexternal
    cases hμ with
    | external => simp [debit]
    | _ => cases hop
  · obtain ⟨htokens, hevents⟩ := hμ.idle (fun s m h => hcharge ⟨s, m, h⟩)
      fun op h => hexternal ⟨op, h⟩
    rw [hevents t x]
    unfold debit
    split <;> simp [htokens]

/-- **Conservation of money.** In a run whose fee collector is never the subscriber being charged,
every collection debits the subscriber by the stored amount and credits the merchant and the
collector with the two parts of it, without overflow and without touching any other balance;
nothing else the contract does moves tokens; and what it has debited from each subscriber in each
token is what the `executed` events report. -/
theorem money_conservation (hkey : H.KeysInjective) (hledger : IsLedger H.tokens bal) {w : World}
    {steps : List (Step Address Hash Op)}
    (hcollector : ∀ μ ∈ microHistory H (State.deployed Address Hash w) steps, ∀ s m,
      μ.deed.IsCharge s m → ∀ cfg, μ.before.protocolFee = some cfg → cfg.feeCollector ≠ s) :
    (∀ μ ∈ microHistory H (State.deployed Address Hash w) steps, ∀ s m, μ.deed.IsCharge s m →
      ∃ d, H.record μ.before s m = some d ∧
        Conserves bal μ.before.protocolFee μ.before.tokens μ.after.tokens s m d) ∧
    (∀ μ ∈ microHistory H (State.deployed Address Hash w) steps, (∀ s m, ¬ μ.deed.IsCharge s m) →
      (∀ op, μ.deed ≠ .external op) → μ.after.tokens = μ.before.tokens) ∧
    ∀ t x, ((microHistory H (State.deployed Address Hash w) steps).map (debit bal t x)).sum =
      executedTotal t x (after (next H) (State.deployed Address Hash w) steps).events := by
  refine ⟨fun μ hμ s m hc => ?_, fun μ hμ hcharge hexternal => ?_, fun t x => ?_⟩
  · obtain ⟨hgen, hσ⟩ := sound_of_mem_microHistory hkey hμ
    obtain ⟨d, fees, hcollect⟩ := hgen.collects hσ hc
    exact ⟨d, hcollect.found, hcollect.conserves hledger hσ (hcollector μ hμ s m hc)⟩
  · exact ((sound_of_mem_microHistory hkey hμ).1.idle hcharge hexternal).1
  · have htotal := (path_microHistory (H := H) (State.deployed Address Hash w) steps).add_sum
      (Sound H) (fun μ => ∀ s m, μ.deed.IsCharge s m →
        ∀ cfg, μ.before.protocolFee = some cfg → cfg.feeCollector ≠ s)
      (fun σ => executedTotal t x σ.events) (debit bal t x)
      (fun σ μ σ' hσ hμ hl => by
        obtain ⟨rfl, rfl, hgen⟩ := hl
        exact ⟨hgen.debit_eq hledger hσ hμ t x, hgen.sound hkey hσ⟩)
      (sound_deployed w) hcollector
    rw [htotal, executedTotal, State.deployed, List.map_nil, List.sum_nil, zero_add]

end Runs

/-- The sample tokens are ledgers. -/
theorem sampleHost_isLedger : IsLedger sampleHost.tokens fun L t x => L.balance t x where
  balance _ _ _ := rfl
  transfer authorized L token src dst amount L' h t x := by
    obtain ⟨-, rfl⟩ := TokenLedger.transfer_eq_some_iff.1 h
    simp only [TokenLedger.move]
    split_ifs <;> simp_all

/-- A fee of one percent for the collector 5, and a subscription of 1000 a day collected once. -/
def sampleFeeCollection : List (Step UInt8 (List UInt8) (External UInt8)) :=
  [sampleStep 1 (.init 7), sampleStep 1 (.setProtocolFee 7 100 5),
    sampleStep 1 (.subscribe 1 2 9 1000 86400 false none),
    sampleStep 86401 (.executePayment 1 2 9)]

theorem money_conservation_sample :
    ((microHistory sampleHost sampleStart sampleFeeCollection).map
        (debit (fun L t x => L.balance t x) 9 1)).sum =
      executedTotal 9 1 (after (next sampleHost) sampleStart sampleFeeCollection).events := by
  have hobserved : (microHistory sampleHost sampleStart sampleFeeCollection).map
      (fun μ => (μ.deed, μ.before.protocolFee)) =
        [(.applied (.init 7), none), (.applied (.setProtocolFee 7 100 5), none),
          (.applied (.subscribe 1 2 9 1000 86400 false none), some ⟨100, 5⟩),
          (.executed 1 2, some ⟨100, 5⟩)] := rfl
  refine (money_conservation sampleHost_keysInjective sampleHost_isLedger
    fun μ hμ s m hc cfg hcfg => ?_).2.2 9 1
  have hmem : (μ.deed, μ.before.protocolFee) ∈ _ := hobserved ▸ List.mem_map_of_mem hμ
  rcases hc with hc | hc
  · obtain ⟨⟨rfl, rfl⟩, rfl⟩ := by simpa [hc, hcfg] using hmem
    decide
  · simp [hc] at hmem

end SorobanPay
