import SorobanPay.Lifecycle.PauseSafety
import SorobanPay.Listings.Changes
import SorobanPay.Tokens.Conservation

/-!
# The footprint of an invocation

What one invocation of an entry point can change, and whose authorization it takes. An invocation
touches the records of the pairs its arguments name and no others; the terms of a record change
only with the authorization of its subscriber, and anything of a record only with that of its
subscriber or its merchant. Money leaves a subscriber only for a live record with a merchant that
authorizes the invocation, and at most the amount of the record, however often a batch lists the
subscriber. Instance storage is the administrator's once there is one.

## Main definitions

* `Call.Names`: the pairs that the arguments of a call name.
* `SubscriptionData.agreed`: the part of a record that only its subscriber changes.
* `State.instanceStorage`: the entries of instance storage.
* `Footprint`: what one invocation changes.

## Main results

* `MicroStep.Genuine.authorized_of_mem_acts`: who has authorized an act on a pair.
* `Reachable.adminAgrees`: the two entries that name the administrator agree.
* `footprint`: every invocation in a reachable state.
-/

set_option autoImplicit false

namespace SorobanPay

open Foundation SubscriptionData

variable {Address Hash World Op : Type}

/-! ### Statement -/

/-- The pairs named by the arguments of a call. -/
def Call.Names (s m : Address) : Call Address → Prop
  | .subscribe s' m' .. | .updateSubscription s' m' .. | .pauseSubscription s' m' ..
  | .resumeSubscription s' m' _ | .cancel s' m' _ | .executePayment s' m' _ => s' = s ∧ m' = m
  | .transferSubscription s' old new => s' = s ∧ (old = m ∨ new = m)
  | .batchExecutePayment m' _ subscribers => s ∈ subscribers ∧ m' = m
  | .init _ | .setMaxAmount .. | .migrate _ | .setProtocolFee .. => False

/-- What a record says that only its subscriber changes: the token, the amount, the interval and
the grace period. -/
def SubscriptionData.agreed (d : SubscriptionData Address) : Address × ℤ × ℕ × ℕ :=
  (d.token, d.amount, d.interval, d.gracePeriod)

/-- The entries of instance storage. -/
def State.instanceStorage (σ : State Address Hash World) :
    Option Address × Option ℕ × Option (AdminConfig Address) × Option (ProtocolFeeConfig Address) :=
  (σ.admin, σ.schemaVersion, σ.adminConfig, σ.protocolFee)

namespace State

variable (σ : State Address Hash World)

@[simp] theorem instanceStorage_publish (event : Event Address) :
    (σ.publish event).instanceStorage = σ.instanceStorage := rfl

@[simp] theorem instanceStorage_publishAll (events : List (Event Address)) :
    (σ.publishAll events).instanceStorage = σ.instanceStorage := rfl

@[simp] theorem instanceStorage_setTokens (w : World) :
    (σ.setTokens w).instanceStorage = σ.instanceStorage := rfl

section Hashes

variable [DecidableEq Hash] (hash : Hash)

@[simp] theorem instanceStorage_setSubscription (data : SubscriptionData Address) :
    (σ.setSubscription hash data).instanceStorage = σ.instanceStorage := rfl

@[simp] theorem instanceStorage_removeSubscription :
    (σ.removeSubscription hash).instanceStorage = σ.instanceStorage := rfl

@[simp] theorem instanceStorage_writeExecutionMarker (nonce : ℕ) :
    (σ.writeExecutionMarker hash nonce).instanceStorage = σ.instanceStorage := rfl

end Hashes

section Lists

variable [DecidableEq Address] (merchant : Address)

@[simp] theorem instanceStorage_setMerchantIndex (index : Option (List Hash)) :
    (σ.setMerchantIndex merchant index).instanceStorage = σ.instanceStorage := rfl

@[simp] theorem instanceStorage_setMerchantSubscribers (roster : Option (List Address)) :
    (σ.setMerchantSubscribers merchant roster).instanceStorage = σ.instanceStorage := rfl

end Lists

end State

/-- What an invocation of `call` that leads from `σ` to `σ'` changes, and who has authorized it. -/
structure Footprint [DecidableEq Address] (H : Host Address Hash World Op)
    (bal : World → Address → Address → ℤ) (env : Env Address) (call : Call Address)
    (σ σ' : State Address Hash World) : Prop where
  /-- The records of pairs that are not named stay. -/
  unnamed : ∀ s m, ¬ call.Names s m → H.record σ' s m = H.record σ s m
  /-- The terms of a record and its existence change only with the subscriber. -/
  terms : ∀ s m, H.authorizes env s = false →
    (H.record σ' s m).map agreed = (H.record σ s m).map agreed
  /-- The rest of a record changes only with the subscriber or the merchant. -/
  schedule : ∀ s m, H.authorizes env s = false → H.authorizes env m = false →
    H.record σ' s m = H.record σ s m
  /-- A balance decreases only by the amount of a live record, with its merchant. -/
  balances : ∀ t s, bal σ'.tokens t s < bal σ.tokens t s →
    ∃ m d, H.authorizes env m = true ∧ H.record σ s m = some d ∧ d.token = t ∧
      bal σ.tokens t s - bal σ'.tokens t s ≤ d.amount
  /-- Once there is an administrator, instance storage changes only with it. -/
  configuration : ∀ a, σ.admin = some a → H.authorizes env a = false →
    σ'.instanceStorage = σ.instanceStorage

/-! ### Acts and authorization -/

/-- The acts of the payment paths. -/
def Act.IsPayment : Act Address → Prop
  | .collect .. | .markOverdue _ => True
  | _ => False

/-- The payment paths keep what was agreed. -/
theorem Lifecycle.agreed_eq {r r' : Option (SubscriptionData Address)} {a : Act Address}
    (h : Lifecycle r a r') (ha : a.IsPayment) : r'.map agreed = r.map agreed := by
  cases h with
  | collect | markOverdue => rfl
  | subscribe | update | pause | resume | cancel | moveOut | moveIn => exact ha.elim

/-- A record that is not due stays so in the payment paths. -/
theorem Lifecycle.lt_nextPayment {r r' : Option (SubscriptionData Address)} {a : Act Address}
    {now : ℕ} (h : Lifecycle r a r') (ha : a.IsPayment) (htime : a.time = now)
    (hr : ∀ d, r = some d → now < d.nextPayment) : ∀ d, r' = some d → now < d.nextPayment := by
  cases h with
  | collect due =>
    obtain rfl := htime
    exact absurd (hr _ rfl) due.not_gt
  | @markOverdue d =>
    rintro _ ⟨⟩
    exact hr d rfl
  | subscribe | update | pause | resume | cancel | moveOut | moveIn => exact ha.elim

section Authorization

variable [DecidableEq Address] [DecidableEq Hash] {H : Host Address Hash World Op}
  {env : Env Address} {σ σ' : State Address Hash World} {s m : Address} {call : Call Address}
  {μ : MicroStep Address Hash World Op} {a : Act Address}

omit [DecidableEq Hash] in
theorem Call.names_of_mem_acts {now : ℕ} (ha : a ∈ call.acts H now σ s m) : call.Names s m := by
  cases call with
  | transferSubscription s' old new =>
    simp only [Call.acts] at ha
    split_ifs at ha with hout hin
    · exact ⟨hout.1, .inl hout.2⟩
    · exact ⟨hin.1, .inr hin.2⟩
    · simp at ha
  | subscribe | updateSubscription | pauseSubscription | resumeSubscription | cancel =>
    obtain ⟨hpair, -⟩ := by simpa [Call.acts] using ha
    exact hpair
  | _ => simp [Call.acts] at ha

/-- A plain call that acts on a pair is authorized by its subscriber. -/
theorem Call.authorizes_of_mem_acts {reply : Reply Address} {now : ℕ}
    (h : (call.run H env).Returns σ reply σ') (ha : a ∈ call.acts H now σ s m) :
    H.authorizes env s = true := by
  have hnames := Call.names_of_mem_acts ha
  cases call with
  | subscribe =>
    simp only [Call.run, Tx.returns_bind_const, returns_subscribe] at h
    exact hnames.1 ▸ h.1.1
  | updateSubscription =>
    simp only [Call.run, Tx.returns_bind_const, returns_updateSubscription] at h
    exact hnames.1 ▸ h.1.1
  | pauseSubscription =>
    simp only [Call.run, Tx.returns_bind_const, returns_pauseSubscription] at h
    exact hnames.1 ▸ h.1.1
  | resumeSubscription =>
    simp only [Call.run, Tx.returns_bind_const, returns_resumeSubscription] at h
    exact hnames.1 ▸ h.1.1
  | cancel =>
    simp only [Call.run, Tx.returns_bind_const, returns_cancel] at h
    exact hnames.1 ▸ h.1.1
  | transferSubscription =>
    simp only [Call.run, Tx.returns_bind_const, returns_transferSubscription] at h
    exact hnames.1 ▸ h.1.1
  | _ => simp [Call.acts] at ha

/-- A payment attempted on account of a pair is authorized by its merchant. -/
theorem MicroStep.Genuine.authorizes_of_onAccountOf (hμ : μ.Genuine H)
    (hdeed : μ.deed.OnAccountOf s m) : H.authorizes μ.env m = true := by
  cases hμ with
  | executed h =>
    obtain ⟨-, rfl⟩ := by simpa [Deed.OnAccountOf] using hdeed
    exact (returns_executePayment.1 h).1
  | entry auth hnow h =>
    obtain ⟨-, rfl⟩ := by simpa [Deed.OnAccountOf] using hdeed
    exact auth
  | _ => simp [Deed.OnAccountOf] at hdeed

omit [DecidableEq Address] [DecidableEq Hash] in
theorem Deed.IsCharge.onAccountOf {deed : Deed Address Hash Op} (h : deed.IsCharge s m) :
    deed.OnAccountOf s m :=
  h.imp id fun h => ⟨true, h⟩

/-- **Who has authorized an act.** An act on a pair is authorized by its subscriber, or it is an act
of a payment path and authorized by its merchant. -/
theorem MicroStep.Genuine.authorized_of_mem_acts (hμ : μ.Genuine H) (ha : a ∈ μ.acts H s m) :
    H.authorizes μ.env s = true ∨ (a.IsPayment ∧ H.authorizes μ.env m = true) := by
  rcases MicroStep.mem_acts ha with ⟨call, hdeed, ha⟩ | ⟨hdeed, d, rfl⟩ | ⟨hdeed, rfl⟩
  · cases hμ with
    | applied plain h =>
      obtain rfl := Deed.applied.inj hdeed
      exact .inl (Call.authorizes_of_mem_acts h ha)
    | _ => cases hdeed
  · exact .inr ⟨trivial, hμ.authorizes_of_onAccountOf hdeed.onAccountOf⟩
  · exact .inr ⟨trivial, hμ.authorizes_of_onAccountOf (.inr ⟨_, hdeed⟩)⟩

/-- The payment paths of a merchant. -/
def Call.PaysTo (m : Address) : Call Address → Prop
  | .executePayment _ m' _ | .batchExecutePayment m' .. => m' = m
  | _ => False

omit [DecidableEq Address] in
theorem Call.PaysTo.eq {m' : Address} {call : Call Address} (h : call.PaysTo m')
    (h' : call.PaysTo m) : m' = m := by
  cases call with
  | executePayment | batchExecutePayment => exact h.symm.trans h'
  | _ => exact h.elim

/-- What an invocation does: it is reverted, it is one plain call, or it is made of payments for the
pairs it names. -/
theorem deed_of_mem_invoke (hμ : μ ∈ microSteps H σ ⟨env, .invoke call⟩) :
    μ.deed = .reverted call ∨ (call.IsPlain ∧ μ.deed = .applied call) ∨
      (∃ m size, call.PaysTo m ∧ μ.deed = .opened m size) ∨
        ∃ s m, call.Names s m ∧ call.PaysTo m ∧ μ.deed.OnAccountOf s m := by
  rcases (call.run H env).returns_or_fails σ with ⟨reply, τ, hr⟩ | ⟨e, hf⟩
  · have hmem := hμ
    rw [microSteps_of_returns hr] at hμ
    cases call with
    | executePayment s m token =>
      rw [List.mem_singleton.1 hμ]
      exact .inr (.inr (.inr ⟨s, m, ⟨rfl, rfl⟩, rfl, .inl rfl⟩))
    | batchExecutePayment m token subscribers =>
      rcases List.mem_cons.1 hμ with rfl | hμ
      · exact .inr (.inr (.inl ⟨m, _, rfl, rfl⟩))
      · obtain ⟨-, s, charged, hdeed⟩ := env_deed_of_mem_entrySteps hμ
        have hlisted := (report_of_mem hmem hdeed).1
        exact .inr (.inr (.inr ⟨s, m, ⟨hlisted, rfl⟩, rfl, .inr ⟨charged, hdeed⟩⟩))
    | _ =>
      rw [List.mem_singleton.1 hμ]
      exact .inr (.inl ⟨trivial, rfl⟩)
  · rw [microSteps_of_fails hf, List.mem_singleton] at hμ
    rw [hμ]
    exact .inl rfl

omit [DecidableEq Address] [DecidableEq Hash] in
theorem Deed.OnAccountOf.eq {deed : Deed Address Hash Op} {s' m' : Address}
    (h : deed.OnAccountOf s m) (h' : deed.OnAccountOf s' m') : s' = s ∧ m' = m := by
  rcases h with rfl | ⟨charged, rfl⟩
  · obtain ⟨rfl, rfl⟩ := by simpa [Deed.OnAccountOf] using h'
    exact ⟨rfl, rfl⟩
  · obtain ⟨rfl, rfl⟩ := by simpa [Deed.OnAccountOf] using h'
    exact ⟨rfl, rfl⟩

/-- The payments attempted in an invocation are for the pairs it names. -/
theorem names_of_onAccountOf (hμ : μ ∈ microSteps H σ ⟨env, .invoke call⟩)
    (hdeed : μ.deed.OnAccountOf s m) : call.Names s m ∧ call.PaysTo m := by
  rcases deed_of_mem_invoke hμ with h | ⟨-, h⟩ | ⟨m', size, -, h⟩ | ⟨s', m', hnames, hpays, h⟩
  · simp [h, Deed.OnAccountOf] at hdeed
  · simp [h, Deed.OnAccountOf] at hdeed
  · simp [h, Deed.OnAccountOf] at hdeed
  · obtain ⟨rfl, rfl⟩ := h.eq hdeed
    exact ⟨hnames, hpays⟩

theorem ne_external_of_mem_invoke (hμ : μ ∈ microSteps H σ ⟨env, .invoke call⟩) (op : Op) :
    μ.deed ≠ .external op := by
  intro hdeed
  rcases deed_of_mem_invoke hμ with h | ⟨-, h⟩ | ⟨m', size, -, h⟩ | ⟨s', m', -, -, h⟩
  · cases h.symm.trans hdeed
  · cases h.symm.trans hdeed
  · cases h.symm.trans hdeed
  · simp [hdeed, Deed.OnAccountOf] at h

/-- The acts of a payment call are those of the payment paths. -/
theorem isPayment_of_mem_acts (hμ : μ ∈ microSteps H σ ⟨env, .invoke call⟩)
    (hpays : call.PaysTo m) {s' m' : Address} (ha : a ∈ μ.acts H s' m') : a.IsPayment := by
  rcases MicroStep.mem_acts ha with ⟨call', hdeed, -⟩ | ⟨-, d, rfl⟩ | ⟨-, rfl⟩
  · rcases deed_of_mem_invoke hμ with h | ⟨plain, -⟩ | ⟨_, _, -, h⟩ | ⟨_, _, -, -, h⟩
    · cases h.symm.trans hdeed
    · cases call <;> first | exact hpays.elim | exact plain.elim
    · cases h.symm.trans hdeed
    · simp [hdeed, Deed.OnAccountOf] at h
  · trivial
  · trivial

/-- The acts of an invocation are on the pairs it names. -/
theorem names_of_mem_acts (hμ : μ ∈ microSteps H σ ⟨env, .invoke call⟩)
    (ha : a ∈ μ.acts H s m) : call.Names s m := by
  rcases MicroStep.mem_acts ha with ⟨call', hdeed, ha⟩ | ⟨hdeed, -⟩ | ⟨hdeed, -⟩
  · obtain rfl := Action.invoke.inj (action_of_applied hμ hdeed)
    exact Call.names_of_mem_acts ha
  · exact (names_of_onAccountOf hμ hdeed.onAccountOf).1
  · exact (names_of_onAccountOf hμ (.inr ⟨_, hdeed⟩)).1

end Authorization

/-! ### Balances -/

section Balances

variable [DecidableEq Address] [DecidableEq Hash] {H : Host Address Hash World Op}
  {bal : World → Address → Address → ℤ} {env : Env Address} {σ σ' : State Address Hash World}
  {s m t : Address} {μ : MicroStep Address Hash World Op}

/-- A collection lowers no balance but that of the subscriber, by the amount of the record. -/
theorem Collects.le_balance (hledger : IsLedger H.tokens bal) (hσ : Sound H μ.before)
    {d : SubscriptionData Address} {fees : List (Event Address)} (h : Collects H μ s m d fees)
    (t x : Address) :
    bal μ.before.tokens t x - (if t = d.token ∧ x = s then d.amount else 0) ≤
      bal μ.after.tokens t x := by
  have hwf := hσ.wellFormed s m d h.found
  have hmoves := payment_moves hledger hwf.amount_pos hwf.amount_le hσ.fee_le h.charge.paid t x
  obtain ⟨split, -, hfair⟩ := exists_fairSplit hwf.amount_pos hwf.amount_le hσ.fee_le
  have hshare : split.feeAmount = feeOn μ.before.protocolFee d.amount := hfair.fee_eq
  have hnonneg := hfair.fee_nonneg
  have hlt := hfair.fee_lt
  rw [hmoves]
  split_ifs <;> omega

/-- Where a payment call for `m` that started in `σ` at `now` can be: the record of `(s, m)` says
what it said in `σ`, and the balance of `s` in `t` has not decreased, or it has decreased by at most
the amount of the record and the record is not due any more. -/
structure Paying (H : Host Address Hash World Op) (bal : World → Address → Address → ℤ) (now : ℕ)
    (s m t : Address) (σ τ : State Address Hash World) : Prop where
  sound : Sound H τ
  agreed : (H.record τ s m).map agreed = (H.record σ s m).map agreed
  balance : bal σ.tokens t s ≤ bal τ.tokens t s ∨
    ∃ d, H.record σ s m = some d ∧ d.token = t ∧ bal σ.tokens t s - d.amount ≤ bal τ.tokens t s ∧
      ∀ d', H.record τ s m = some d' → now < d'.nextPayment

/-- What the micro-steps of a payment call for `m` at `now` keep. -/
theorem MicroStep.Genuine.paying (hkey : H.KeysInjective) (hledger : IsLedger H.tokens bal)
    {now : ℕ} (hμ : μ.Genuine H) (hnow : μ.env.timestamp = now)
    (hpayment : ∀ a ∈ μ.acts H s m, a.IsPayment)
    (hmerchant : ∀ s' m', μ.deed.IsCharge s' m' → m' = m) (hexternal : ∀ op, μ.deed ≠ .external op)
    (h : Paying H bal now s m t σ μ.before) : Paying H bal now s m t σ μ.after := by
  have hpath := hμ.refines hkey h.sound s m
  have hagreed : (H.record μ.after s m).map SubscriptionData.agreed =
      (H.record σ s m).map SubscriptionData.agreed :=
    (hpath.guarded (fun r => r.map SubscriptionData.agreed =
        (H.record σ s m).map SubscriptionData.agreed) Act.IsPayment (fun _ => True)
      (fun _ _ _ hr ha hl => ⟨trivial, (hl.agreed_eq ha).trans hr⟩) h.agreed hpayment).2
  have hlater : (∀ d, H.record μ.before s m = some d → now < d.nextPayment) →
      ∀ d, H.record μ.after s m = some d → now < d.nextPayment := fun hdue =>
    (hpath.guarded (fun r => ∀ d, r = some d → now < d.nextPayment)
      (fun a => a.IsPayment ∧ a.time = now) (fun _ => True)
      (fun _ _ _ hr ha hl => ⟨trivial, hl.lt_nextPayment ha.1 ha.2 hr⟩) hdue
      fun a ha => ⟨hpayment a ha, (MicroStep.reset_or_move_of_mem_acts ha).1.trans hnow⟩).2
  refine ⟨hμ.sound hkey h.sound, hagreed, ?_⟩
  by_cases hcharge : ∃ s' m', μ.deed.IsCharge s' m'
  · obtain ⟨s', m', hc⟩ := hcharge
    obtain rfl := hmerchant s' m' hc
    obtain ⟨d, fees, hcollect⟩ := hμ.collects h.sound hc
    have hle := hcollect.le_balance hledger h.sound t s
    split_ifs at hle with hpaid
    · -- the record was due, so this is its first charge in the call
      obtain ⟨rfl, rfl⟩ := hpaid
      rcases h.balance with hkept | ⟨d₀, -, -, -, hlate⟩
      · have hfound := h.agreed
        rw [hcollect.found] at hfound
        obtain ⟨d₀, hd₀, hterms⟩ := Option.map_eq_some_iff.1 hfound.symm
        simp only [SubscriptionData.agreed, Prod.mk.injEq] at hterms
        refine .inr ⟨d₀, hd₀, hterms.1, by rw [hterms.2.1]; omega, fun d' hd' => ?_⟩
        rw [Host.record, hcollect.left, Function.update_self] at hd'
        obtain rfl := Option.some.inj hd'
        have := (h.sound.wellFormed s m' d hcollect.found).interval_pos
        rw [collected_nextPayment, hnow]
        omega
      · exact absurd (hlate d hcollect.found) (hnow ▸ hcollect.due).not_gt
    · rcases h.balance with hkept | ⟨d₀, hd₀, htoken, hspent, hlate⟩
      · exact .inl (by omega)
      · exact .inr ⟨d₀, hd₀, htoken, by omega, hlater hlate⟩
  · rw [(hμ.idle (fun s' m' hc => hcharge ⟨s', m', hc⟩) hexternal).1]
    rcases h.balance with hkept | ⟨d₀, hd₀, htoken, hspent, hlate⟩
    · exact .inl hkept
    · exact .inr ⟨d₀, hd₀, htoken, hspent, hlater hlate⟩

/-- A payment call that returns is authorized by its merchant. -/
theorem Call.authorizes_of_paysTo {call : Call Address} {reply : Reply Address}
    (h : (call.run H env).Returns σ reply σ') (hpays : call.PaysTo m) :
    H.authorizes env m = true := by
  cases call with
  | executePayment =>
    simp only [Call.run, Tx.returns_bind_const, returns_executePayment] at h
    exact hpays ▸ h.1.1
  | batchExecutePayment =>
    simp only [Call.run, Tx.returns_bind, returns_batchExecutePayment] at h
    obtain ⟨results, τ, ⟨auth, -⟩, -⟩ := h
    exact hpays ▸ auth
  | _ => exact hpays.elim

/-- **Debits.** An invocation that lowers a balance of `s` is authorized by a merchant with which
`s` has a live record in this token, and lowers it by at most the amount of the record. -/
theorem debited_of_invoke (hkey : H.KeysInjective) (hledger : IsLedger H.tokens bal)
    (hσ : Sound H σ) {call : Call Address}
    (hlt : bal (next H σ ⟨env, .invoke call⟩).tokens t s < bal σ.tokens t s) :
    ∃ m d, H.authorizes env m = true ∧ H.record σ s m = some d ∧ d.token = t ∧
      bal σ.tokens t s - bal (next H σ ⟨env, .invoke call⟩).tokens t s ≤ d.amount := by
  have hreturns : ∃ reply σ', (call.run H env).Returns σ reply σ' := by
    by_contra hfails
    rw [next_eq_of_not_returns fun reply σ' h => hfails ⟨reply, σ', h⟩] at hlt
    exact lt_irrefl _ hlt
  obtain ⟨reply, σ', hr⟩ := hreturns
  have hpath := path_microSteps (H := H) σ ⟨env, .invoke call⟩
  by_cases hpays : ∃ m, call.PaysTo m
  · obtain ⟨m, hpays⟩ := hpays
    have hend := (hpath.guarded (Paying H bal env.timestamp s m t σ)
      (fun μ => μ ∈ microSteps H σ ⟨env, .invoke call⟩) (fun _ => True)
      (fun τ μ τ' hτ hμ hl => by
        obtain ⟨rfl, rfl, hgen⟩ := hl
        refine ⟨trivial, hgen.paying hkey hledger ?_ ?_ ?_ (ne_external_of_mem_invoke hμ) hτ⟩
        · rw [env_of_mem_microSteps hμ]
        · exact fun a ha => isPayment_of_mem_acts hμ hpays ha
        · intro s' m' hc
          exact (names_of_onAccountOf hμ hc.onAccountOf).2.eq hpays)
      ⟨hσ, rfl, .inl le_rfl⟩ fun _ h => h).2
    rcases hend.balance with hkept | ⟨d, hd, htoken, hspent, -⟩
    · exact absurd hlt hkept.not_gt
    · exact ⟨m, d, Call.authorizes_of_paysTo hr hpays, hd, htoken, by omega⟩
  · have hkept := (hpath.guarded (fun τ => τ.tokens = σ.tokens)
      (fun μ => μ ∈ microSteps H σ ⟨env, .invoke call⟩) (fun _ => True)
      (fun τ μ τ' hτ hμ hl => by
        obtain ⟨rfl, rfl, hgen⟩ := hl
        have hidle := hgen.idle
          (fun s' m' hc => hpays ⟨m', (names_of_onAccountOf hμ hc.onAccountOf).2⟩)
          (ne_external_of_mem_invoke hμ)
        exact ⟨trivial, hidle.1.trans hτ⟩) rfl fun _ h => h).2
    rw [hkept] at hlt
    exact absurd hlt (lt_irrefl _)

end Balances

/-! ### Instance storage -/

section Configuration

/-- The stored administrator and the administrator of the stored configuration are the same. -/
def AdminAgrees (σ : State Address Hash World) : Prop := σ.adminConfig.map (·.admin) = σ.admin

variable [DecidableEq Address] [DecidableEq Hash] {H : Host Address Hash World Op}
  {env : Env Address} {σ σ' : State Address Hash World} {μ : MicroStep Address Hash World Op}

/-- What a micro-step does to instance storage: nothing, or it is the first `initialize`, or the
administrator has authorized it and stays. -/
def MicroStep.Administers (H : Host Address Hash World Op)
    (μ : MicroStep Address Hash World Op) : Prop :=
  μ.after.instanceStorage = μ.before.instanceStorage ∨
    (μ.before.admin = none ∧ AdminAgrees μ.after) ∨
      ∃ a, (μ.before.admin = some a ∨ μ.before.adminConfig.map (·.admin) = some a) ∧
        H.authorizes μ.env a = true ∧ μ.after.admin = μ.before.admin ∧
          μ.after.adminConfig.map (·.admin) = μ.before.adminConfig.map (·.admin)

theorem MicroStep.Genuine.administers (hμ : μ.Genuine H) : μ.Administers H := by
  cases hμ with
  | @applied env σ σ' call reply plain h =>
    cases call with
    | init admin =>
      simp only [Call.run, Tx.returns_bind_const, returns_init] at h
      obtain ⟨⟨hnone, rfl⟩, -⟩ := h
      exact .inr (.inl ⟨hnone, rfl⟩)
    | setMaxAmount admin newMax =>
      simp only [Call.run, Tx.returns_bind_const, returns_setMaxAmount] at h
      obtain ⟨⟨auth, -, config, hconfig, rfl, rfl⟩, -⟩ := h
      exact .inr (.inr ⟨_, .inr (by rw [hconfig]; rfl), auth, rfl, by rw [hconfig]; rfl⟩)
    | migrate admin =>
      simp only [Call.run, Tx.returns_bind_const, returns_migrate] at h
      obtain ⟨⟨auth, hadmin, -, rfl⟩, -⟩ := h
      exact .inr (.inr ⟨_, .inl hadmin, auth, rfl, rfl⟩)
    | setProtocolFee admin feeBps collector =>
      simp only [Call.run, Tx.returns_bind_const, returns_setProtocolFee] at h
      obtain ⟨⟨auth, hadmin, -, rfl⟩, -⟩ := h
      exact .inr (.inr ⟨_, .inl hadmin, auth, rfl, rfl⟩)
    | subscribe =>
      simp only [Call.run, Tx.returns_bind_const, returns_subscribe, State.indexAdd,
        State.rosterAdd_eq, State.noteAllowance_eq] at h
      obtain ⟨⟨-, -, -, -, -, -, a, -, -, -, rfl⟩, -⟩ := h
      exact .inl (by simp)
    | updateSubscription =>
      simp only [Call.run, Tx.returns_bind_const, returns_updateSubscription] at h
      obtain ⟨⟨-, d, -, -, -, rfl⟩, -⟩ := h
      exact .inl rfl
    | pauseSubscription =>
      simp only [Call.run, Tx.returns_bind_const, returns_pauseSubscription] at h
      obtain ⟨⟨-, d, -, -, -, rfl⟩, -⟩ := h
      exact .inl rfl
    | resumeSubscription =>
      simp only [Call.run, Tx.returns_bind_const, returns_resumeSubscription] at h
      obtain ⟨⟨-, d, -, -, -, rfl⟩, -⟩ := h
      exact .inl rfl
    | cancel =>
      simp only [Call.run, Tx.returns_bind_const, returns_cancel, State.indexRemove_eq,
        State.rosterRemove_eq] at h
      obtain ⟨⟨-, -, rfl⟩, -⟩ := h
      exact .inl (by simp)
    | transferSubscription =>
      simp only [Call.run, Tx.returns_bind_const, returns_transferSubscription, State.indexAdd,
        State.indexRemove_eq] at h
      obtain ⟨⟨-, -, -, -, d, -, -, rfl⟩, -⟩ := h
      exact .inl (by simp)
    | executePayment | batchExecutePayment => exact plain.elim
  | executed h =>
    obtain ⟨-, d₀, -, -, d, -, -, -, w, fees, -, rfl⟩ := returns_executePayment.1 h
    exact .inl (by simp [State.settle])
  | entry auth hnow h => cases h <;> exact .inl (by simp [State.settle])
  | opened | reverted | lapsed | external => exact .inl rfl

omit [DecidableEq Hash] in
theorem MicroStep.Administers.adminAgrees (h : μ.Administers H) (hσ : AdminAgrees μ.before) :
    AdminAgrees μ.after := by
  rcases h with h | ⟨-, h⟩ | ⟨a, -, -, hadmin, hconfig⟩
  · simp only [State.instanceStorage, Prod.mk.injEq] at h
    rw [AdminAgrees, h.1, h.2.2.1]
    exact hσ
  · exact h
  · rw [AdminAgrees, hadmin, hconfig]
    exact hσ

theorem Reachable.adminAgrees (h : Reachable H σ) : AdminAgrees σ := by
  obtain ⟨w, steps, rfl⟩ := h
  exact (path_microHistory (H := H) _ steps).invariant AdminAgrees
    (fun _ _ _ hσ hl => by
      obtain ⟨rfl, rfl, hgen⟩ := hl
      exact hgen.administers.adminAgrees hσ) rfl

/-- Once there is an administrator, only the administrator changes instance storage. -/
theorem instanceStorage_of_invoke (hσ : AdminAgrees σ) {call : Call Address} {a : Address}
    (hadmin : σ.admin = some a) (hauth : H.authorizes env a = false) :
    (next H σ ⟨env, .invoke call⟩).instanceStorage = σ.instanceStorage := by
  refine ((path_microSteps (H := H) σ ⟨env, .invoke call⟩).guarded
    (fun τ => τ.instanceStorage = σ.instanceStorage) (fun μ => μ.env = env) (fun _ => True)
    (fun τ μ τ' hτ hμ hl => ?_) rfl fun μ hμ => env_of_mem_microSteps hμ).2
  obtain ⟨rfl, rfl, hgen⟩ := hl
  have hsame := hτ
  simp only [State.instanceStorage, Prod.mk.injEq] at hsame
  rcases hgen.administers with h | ⟨hnone, -⟩ | ⟨b, hb, hsigned, -⟩
  · exact ⟨trivial, h.trans hτ⟩
  · rw [hsame.1, hadmin] at hnone
    cases hnone
  · have hba : b = a := by
      rw [hsame.1, hsame.2.2.1, hσ, or_self, hadmin] at hb
      exact (Option.some.inj hb).symm
    rw [hba, hμ, hauth] at hsigned
    cases hsigned

end Configuration

/-! ### Invocations -/

section Invocations

variable [DecidableEq Address] [DecidableEq Hash] {H : Host Address Hash World Op}
  {bal : World → Address → Address → ℤ} {σ : State Address Hash World}

/-- **Footprints.** In every reachable state every invocation of an entry point changes only the
records it names, with the authorizations that its footprint lists, takes from a subscriber at
most the amount of one live record with an authorizing merchant, and leaves instance storage to the
administrator. -/
theorem footprint (hkey : H.KeysInjective) (hledger : IsLedger H.tokens bal)
    (hreach : Reachable H σ) (env : Env Address) (call : Call Address) :
    Footprint H bal env call σ (next H σ ⟨env, .invoke call⟩) := by
  have hσ := hreach.sound hkey
  have hpath : ∀ s m, Path Lifecycle (H.record σ s m)
      ((microSteps H σ ⟨env, .invoke call⟩).flatMap (·.acts H s m))
      (H.record (next H σ ⟨env, .invoke call⟩) s m) := fun s m =>
    path_lifecycle hkey (path_microSteps σ _) hσ s m
  have hauth : ∀ s m, ∀ a ∈ (microSteps H σ ⟨env, .invoke call⟩).flatMap (·.acts H s m),
      H.authorizes env s = true ∨ (a.IsPayment ∧ H.authorizes env m = true) := by
    intro s m a ha
    obtain ⟨μ, hμ, ha⟩ := List.mem_flatMap.1 ha
    have hgen := (sound_of_mem_path hkey (path_microSteps σ _) hσ hμ).1
    have henv : μ.env = env := env_of_mem_microSteps hμ
    exact henv ▸ hgen.authorized_of_mem_acts ha
  have hstays : ∀ s m, (∀ a, a ∉ (microSteps H σ ⟨env, .invoke call⟩).flatMap (·.acts H s m)) →
      H.record (next H σ ⟨env, .invoke call⟩) s m = H.record σ s m := by
    intro s m hnone
    have h := hpath s m
    rw [List.eq_nil_iff_forall_not_mem.2 hnone, Path.nil_iff] at h
    exact h.symm
  refine ⟨fun s m hnames => hstays s m fun a ha => ?_, fun s m hs => ?_, fun s m hs hm =>
    hstays s m fun a ha => ?_, fun t s hlt => debited_of_invoke hkey hledger hσ hlt, fun a => ?_⟩
  · obtain ⟨μ, hμ, ha⟩ := List.mem_flatMap.1 ha
    exact hnames (names_of_mem_acts hμ ha)
  · refine ((hpath s m).guarded (fun r => r.map agreed = (H.record σ s m).map agreed)
      Act.IsPayment (fun _ => True) (fun _ _ _ hr ha hl => ⟨trivial, (hl.agreed_eq ha).trans hr⟩)
      rfl fun a ha => ?_).2
    exact ((hauth s m a ha).resolve_left (by simp [hs])).1
  · rcases hauth s m a ha with h | ⟨-, h⟩
    · simp [hs] at h
    · simp [hm] at h
  · exact instanceStorage_of_invoke hreach.adminAgrees

end Invocations

/-- A batch that lists a subscriber twice, and a stranger. -/
theorem footprint_sample :
    Footprint sampleHost (fun L t x => L.balance t x) (sampleEnv 86401)
      (.batchExecutePayment 2 9 [1, 1, 3]) sampleSubscribed
      (next sampleHost sampleSubscribed (sampleStep 86401 (.batchExecutePayment 2 9 [1, 1, 3]))) :=
  footprint sampleHost_keysInjective sampleHost_isLedger ⟨_, _, rfl⟩ _ _

end SorobanPay
