import SorobanPay.Tokens.Conservation

/-!
# Allowances do not cap collections

Over SEP-41 ledgers, what is collected from a subscriber in a token since the subscriber last
approved the contract should not exceed the approved amount. The payment paths compare the amount
of one payment with the allowance, and then move the tokens by `transfer`, which leaves every
allowance as it is. So the allowance they read stays the approved amount however often it is used
(`MicroStep.Genuine.allowance_eq`). The cap holds as long as the payments that are asked for when
they are due add up to no more than the approval (`allowance_cap`); when all of these go through,
it does not hold any longer (`allowanceCapped_iff_of_willing`).

## Main definitions

* `MicroStep.Grants`: an approval of the contract by the subscriber.
* `collectedFrom`: what a micro-step collects from a subscriber in a token.
* `AllowanceCapped`: the cap.
* `askedFrom`, `CoveredByApproval`: the payments that are due and asked for, and an approval that
  is enough for them.

## Main results

* `MicroStep.Genuine.allowance_eq`: only approvals change the allowance of the contract.
* `allowance_cap`: when the cap holds.
* `allowanceCapped_iff_of_willing`: that it does not hold otherwise, if all payments go through.
* `not_allowanceCapped_sample`: two payments out of an allowance for one.
-/

set_option autoImplicit false

namespace SorobanPay

open Foundation

variable {Address Hash : Type}

section Statement

variable [DecidableEq Address] (H : Host Address Hash (TokenLedger Address) (External Address))

/-- An approval of the contract by `s` for an amount of the token `t`: it is signed by `s`, which
is not the contract, and the amount is not negative. -/
def MicroStep.Grants (t s : Address) (amount : ℤ)
    (μ : MicroStep Address Hash (TokenLedger Address) (External Address)) : Prop :=
  ∃ op : External Address, μ.deed = .external op ∧
    op.operation = .approve t s H.currentContractAddress amount ∧
    (op.signers s = true ∧ s ≠ H.currentContractAddress) ∧ 0 ≤ amount

/-- The amount of a record in the token `t`. -/
def amountIn (t : Address) (r : Option (SubscriptionData Address)) : ℤ :=
  match r with
  | some d => if d.token = t then d.amount else 0
  | none => 0

/-- What a micro-step collects from `s` in the token `t`. -/
def collectedFrom (t s : Address)
    (μ : MicroStep Address Hash (TokenLedger Address) (External Address)) : ℤ :=
  match μ.deed with
  | .executed s' m | .entry s' m true => if s' = s then amountIn t (H.record μ.before s m) else 0
  | _ => 0

/-- The cap in a run: what is collected from `s` in the token `t` after an approval of the contract
by `s`, and before the next one, is at most the approved amount. -/
def AllowanceCapped [DecidableEq Hash] (w : TokenLedger Address)
    (steps : List (Step Address Hash (External Address))) (t s : Address) : Prop :=
  ∀ pre α mid post amount,
    microHistory H (State.deployed Address Hash w) steps = pre ++ α :: mid ++ post →
    α.Grants H t s amount → (∀ ν ∈ mid, ∀ a, ¬ ν.Grants H t s a) →
      (mid.map (collectedFrom H t s)).sum ≤ amount

/-- The pair that a micro-step asks a payment of: a call of `execute_payment` that the merchant has
signed, whether it goes through or not, or an entry of a batch. -/
def MicroStep.asks (μ : MicroStep Address Hash (TokenLedger Address) (External Address)) :
    Option (Address × Address) :=
  match μ.deed with
  | .executed s m | .entry s m _ => some (s, m)
  | .reverted (.executePayment s m _) => if H.authorizes μ.env m then some (s, m) else none
  | _ => none

/-- The amount of a record in the token `t` that is due, unless it exceeds the approved amount. -/
def amountDue (t : Address) (approved : ℤ) (now : ℕ) (r : Option (SubscriptionData Address)) : ℤ :=
  match r with
  | some d => if d.token = t ∧ d.nextPayment ≤ now ∧ d.amount ≤ approved then d.amount else 0
  | none => 0

/-- What a micro-step asks of `s` in the token `t`, by the amount and the time in the record. -/
def askedFrom (t s : Address) (approved : ℤ)
    (μ : MicroStep Address Hash (TokenLedger Address) (External Address)) : ℤ :=
  match μ.asks H with
  | some (s', m) =>
    if s' = s then amountDue t approved μ.env.timestamp (H.record μ.before s m) else 0
  | none => 0

/-- Every approval is enough for the payments from `s` in the token `t` that are asked for when they
are due, up to the next approval. -/
def CoveredByApproval [DecidableEq Hash] (w : TokenLedger Address)
    (steps : List (Step Address Hash (External Address))) (t s : Address) : Prop :=
  ∀ pre α mid post amount,
    microHistory H (State.deployed Address Hash w) steps = pre ++ α :: mid ++ post →
    α.Grants H t s amount → (∀ ν ∈ mid, ∀ a, ¬ ν.Grants H t s a) →
      (mid.map (askedFrom H t s amount)).sum ≤ amount

/-- The payments from `s` in the token `t` that are asked for when they are due go through. -/
def Willing [DecidableEq Hash] (w : TokenLedger Address)
    (steps : List (Step Address Hash (External Address))) (t s : Address) : Prop :=
  ∀ pre α mid ν post amount,
    microHistory H (State.deployed Address Hash w) steps = pre ++ α :: mid ++ ν :: post →
    α.Grants H t s amount → (∀ ν ∈ mid, ∀ a, ¬ ν.Grants H t s a) →
      askedFrom H t s amount ν ≠ 0 → ∃ m, ν.deed.IsCharge s m

end Statement

/-! ### The allowance of the contract -/

section Allowance

variable [DecidableEq Address] [DecidableEq Hash]
  {H : Host Address Hash (TokenLedger Address) (External Address)}
  {symbols : Address → Option String} {env : Env Address} {t s m token : Address}
  {μ : MicroStep Address Hash (TokenLedger Address) (External Address)}

omit [DecidableEq Hash] in
/-- A payment leaves all allowances. -/
theorem allowance_payment (hH : OverLedger H symbols)
    {config : Option (ProtocolFeeConfig Address)} {L L' : TokenLedger Address} {amount : ℤ}
    {fees : List (Event Address)}
    (h : payment H env config L s m token amount = some (L', fees)) :
    L'.allowance = L.allowance := by
  refine payment_invariant (I := fun w => w.allowance = L.allowance) (fun w dst a w' hmove hw => ?_)
    h rfl
  rw [hH.transfer_eq] at hmove
  obtain ⟨-, rfl⟩ := TokenLedger.transfer_eq_some_iff.1 hmove
  exact hw

/-- Only an approval by the subscriber changes the allowance of the contract. -/
theorem MicroStep.Genuine.allowance_eq (hH : OverLedger H symbols) (hσ : Sound H μ.before)
    (hμ : μ.Genuine H) (hgrant : ∀ amount, ¬ μ.Grants H t s amount) :
    μ.after.tokens.allowance t s H.currentContractAddress =
      μ.before.tokens.allowance t s H.currentContractAddress := by
  by_cases hcharge : ∃ s' m', μ.deed.IsCharge s' m'
  · obtain ⟨s', m', hc⟩ := hcharge
    obtain ⟨d, fees, hcollect⟩ := hμ.collects hσ hc
    rw [allowance_payment hH hcollect.charge.paid]
  by_cases hexternal : ∃ op, μ.deed = .external op
  · obtain ⟨op, hop⟩ := hexternal
    cases hμ with
    | external =>
      obtain rfl := Deed.external.inj hop
      simp only [State.setTokens_tokens, hH.act_eq]
      refine TokenLedger.perform_allowance_of_not_spender (fun amount happrove h => ?_) (by simp)
      simp only [Bool.and_eq_true, bne_iff_ne] at h
      exact hgrant amount ⟨_, rfl, happrove, h.1, h.2⟩
    | _ => cases hop
  · rw [(hμ.idle (fun s m h => hcharge ⟨s, m, h⟩) fun op h => hexternal ⟨op, h⟩).1]

/-- An approval sets the allowance of the contract. -/
theorem MicroStep.Grants.allowance_eq (hH : OverLedger H symbols) {amount : ℤ} (hμ : μ.Genuine H)
    (h : μ.Grants H t s amount) :
    μ.after.tokens.allowance t s H.currentContractAddress = amount := by
  obtain ⟨op, hop, happrove, hsigned, hnonneg⟩ := h
  cases hμ with
  | external =>
    obtain rfl := Deed.external.inj hop
    simp only [State.setTokens_tokens, hH.act_eq, happrove, TokenLedger.perform]
    rw [if_pos ⟨by simp [hsigned.1, hsigned.2], hnonneg⟩]
    simp [TokenLedger.approve]
  | _ => cases hop

/-- After an approval the payment paths read the approved amount until the next one. -/
theorem allowance_since_grant (hkey : H.KeysInjective) (hH : OverLedger H symbols)
    {w : TokenLedger Address} {steps : List (Step Address Hash (External Address))}
    {pre mid post : List (MicroStep Address Hash (TokenLedger Address) (External Address))}
    {α : MicroStep Address Hash (TokenLedger Address) (External Address)} {amount : ℤ}
    (hsplit : microHistory H (State.deployed Address Hash w) steps = pre ++ α :: mid ++ μ :: post)
    (hα : α.Grants H t s amount) (hmid : ∀ ν ∈ mid, ∀ a, ¬ ν.Grants H t s a) :
    (μ.Genuine H ∧ Sound H μ.before) ∧
      μ.before.tokens.allowance t s H.currentContractAddress = amount := by
  obtain ⟨⟨hgen, hσ⟩, hpath, hgen', hσ'⟩ := between_of_split hkey hsplit
  have hguarded := hpath.guarded
    (fun σ => Sound H σ ∧ σ.tokens.allowance t s H.currentContractAddress = amount)
    (fun ν => ∀ a, ¬ ν.Grants H t s a) (fun _ => True)
    (fun σ ν σ' hσ hν hl => by
      obtain ⟨rfl, rfl, hgen⟩ := hl
      exact ⟨trivial, hgen.sound hkey hσ.1, (hgen.allowance_eq hH hσ.1 hν).trans hσ.2⟩)
    ⟨hgen.sound hkey hσ, hα.allowance_eq hH hgen⟩ hmid
  exact ⟨⟨hgen', hσ'⟩, hguarded.2.2⟩

end Allowance

/-! ### The cap -/

section Cap

variable [DecidableEq Address]
  {H : Host Address Hash (TokenLedger Address) (External Address)}
  {symbols : Address → Option String} {t s m : Address}
  {μ : MicroStep Address Hash (TokenLedger Address) (External Address)}

/-- What is collected from a subscriber is collected by a charge. -/
theorem isCharge_of_collectedFrom (h : collectedFrom H t s μ ≠ 0) : ∃ m, μ.deed.IsCharge s m := by
  unfold collectedFrom at h
  split at h
  · rename_i s' m hdeed
    split_ifs at h with hs
    · exact ⟨m, .inl (hs ▸ hdeed)⟩
    · exact (h rfl).elim
  · rename_i s' m hdeed
    split_ifs at h with hs
    · exact ⟨m, .inr (hs ▸ hdeed)⟩
    · exact (h rfl).elim
  · exact (h rfl).elim

theorem asks_of_isCharge (hc : μ.deed.IsCharge s m) : μ.asks H = some (s, m) := by
  rcases hc with hc | hc <;> simp [MicroStep.asks, hc]

/-- Nothing negative is asked for. -/
theorem askedFrom_nonneg (hσ : Sound H μ.before) {approved : ℤ} :
    0 ≤ askedFrom H t s approved μ := by
  unfold askedFrom
  split
  · rename_i s' m _
    split_ifs
    · cases hr : H.record μ.before s m with
      | none => exact le_rfl
      | some d =>
        rw [amountDue]
        split_ifs
        · exact (hσ.wellFormed _ _ _ hr).amount_pos.le
        · exact le_rfl
    · exact le_rfl
  · exact le_rfl

/-- What is collected has been asked for. -/
theorem collectedFrom_eq_askedFrom [DecidableEq Hash] (hH : OverLedger H symbols)
    (hσ : Sound H μ.before) (hμ : μ.Genuine H) {approved : ℤ}
    (happroved : μ.before.tokens.allowance t s H.currentContractAddress = approved)
    (hc : μ.deed.IsCharge s m) : collectedFrom H t s μ = askedFrom H t s approved μ := by
  obtain ⟨d, fees, hcollect⟩ := hμ.collects hσ hc
  obtain ⟨a, ha, hle⟩ := hcollect.charge.approved
  have hcollected : collectedFrom H t s μ = if d.token = t then d.amount else 0 := by
    rcases hc with hc | hc <;> simp [collectedFrom, amountIn, hc, hcollect.found]
  rw [hcollected, askedFrom, asks_of_isCharge hc]
  simp only [if_true, hcollect.found, amountDue, hcollect.due, true_and]
  by_cases ht : d.token = t
  · rw [hH.allowance_eq, Option.some.injEq, ht, happroved] at ha
    rw [if_pos ht, if_pos ⟨ht, ha.symm ▸ hle⟩]
  · rw [if_neg ht, if_neg fun h => ht h.1]

theorem collectedFrom_le_askedFrom [DecidableEq Hash] (hH : OverLedger H symbols)
    (hσ : Sound H μ.before) (hμ : μ.Genuine H) {approved : ℤ}
    (happroved : μ.before.tokens.allowance t s H.currentContractAddress = approved) :
    collectedFrom H t s μ ≤ askedFrom H t s approved μ := by
  by_cases hzero : collectedFrom H t s μ = 0
  · rw [hzero]
    exact askedFrom_nonneg hσ
  · obtain ⟨m, hc⟩ := isCharge_of_collectedFrom hzero
    exact (collectedFrom_eq_askedFrom hH hσ hμ happroved hc).le

/-- **When the allowance caps the collections.** What is collected from a subscriber in a token
since the last approval stays within the approved amount throughout a run if the payments that are
asked for when they are due add up to no more. -/
theorem allowance_cap [DecidableEq Hash] (hkey : H.KeysInjective) (hH : OverLedger H symbols)
    {w : TokenLedger Address} {steps : List (Step Address Hash (External Address))}
    (hcovered : CoveredByApproval H w steps t s) : AllowanceCapped H w steps t s := by
  intro pre α mid post amount hsplit hα hmid
  refine (List.sum_le_sum fun ν hν => ?_).trans (hcovered pre α mid post amount hsplit hα hmid)
  obtain ⟨mid₁, mid₂, rfl⟩ := List.append_of_mem hν
  have hsplit : microHistory H (State.deployed Address Hash w) steps =
      pre ++ α :: mid₁ ++ ν :: (mid₂ ++ post) := by simp [hsplit]
  obtain ⟨⟨hgen, hσ⟩, happroved⟩ := allowance_since_grant hkey hH hsplit hα
    fun ν' hν' => hmid ν' (List.mem_append_left _ hν')
  exact collectedFrom_le_askedFrom hH hσ hgen happroved

/-- If the payments that are asked for when they are due go through, the allowance caps the
collections only if the approvals are enough for them. -/
theorem allowanceCapped_iff_of_willing [DecidableEq Hash] (hkey : H.KeysInjective)
    (hH : OverLedger H symbols) {w : TokenLedger Address}
    {steps : List (Step Address Hash (External Address))} (hwilling : Willing H w steps t s) :
    AllowanceCapped H w steps t s ↔ CoveredByApproval H w steps t s := by
  refine ⟨fun hcap pre α mid post amount hsplit hα hmid => ?_, allowance_cap hkey hH⟩
  refine (List.sum_le_sum fun ν hν => ?_).trans (hcap pre α mid post amount hsplit hα hmid)
  obtain ⟨mid₁, mid₂, rfl⟩ := List.append_of_mem hν
  have hsplit : microHistory H (State.deployed Address Hash w) steps =
      pre ++ α :: mid₁ ++ ν :: (mid₂ ++ post) := by simp [hsplit]
  have hmid₁ : ∀ ν' ∈ mid₁, ∀ a, ¬ ν'.Grants H t s a :=
    fun ν' hν' => hmid ν' (List.mem_append_left _ hν')
  obtain ⟨⟨hgen, hσ⟩, happroved⟩ := allowance_since_grant hkey hH hsplit hα hmid₁
  by_cases hzero : askedFrom H t s amount ν = 0
  · rw [hzero]
    by_cases hnone : collectedFrom H t s ν = 0
    · exact hnone.ge
    · obtain ⟨m, hc⟩ := isCharge_of_collectedFrom hnone
      exact (hzero.symm.trans (collectedFrom_eq_askedFrom hH hσ hgen happroved hc).symm).le
  · obtain ⟨m, hc⟩ := hwilling pre α mid₁ ν (mid₂ ++ post) amount hsplit hα hmid₁ hzero
    exact (collectedFrom_eq_askedFrom hH hσ hgen happroved hc).ge

end Cap

/-- The subscriber 1 lets the contract move an amount of the token 9, subscribes for 100 a day, and
is collected on two days. -/
def sampleTwoDays (approved : ℤ) : List (Step UInt8 (List UInt8) (External UInt8)) :=
  [⟨sampleEnv 1, .external ⟨fun _ => true, .approve 9 1 0 approved⟩⟩,
    sampleStep 1 (.subscribe 1 2 9 100 86400 false none),
    sampleStep 86401 (.batchExecutePayment 2 9 [1]),
    sampleStep 172801 (.batchExecutePayment 2 9 [1])]

/-- 200 are collected out of an allowance of 100. -/
theorem not_allowanceCapped_sample :
    ¬ AllowanceCapped sampleHost sampleLedger (sampleTwoDays 100) 9 1 := by
  intro hcap
  have hsum := hcap [] _ [_, _, _, _, _] [] 100 rfl
    ⟨⟨fun _ => true, .approve 9 1 0 100⟩, rfl, rfl, by decide, by decide⟩
    fun ν hν a ⟨op, hop, _⟩ => by
      have hdeed : ν.deed ∈ [.applied (.subscribe 1 2 9 100 86400 false none), .opened 2 1,
          .entry 1 2 true, .opened 2 1, .entry 1 2 true] := List.mem_map_of_mem hν
      simp [hop] at hdeed
  exact absurd hsum (by decide +kernel)

/-- An allowance of 200 is enough for the two days. -/
theorem coveredByApproval_sample :
    CoveredByApproval sampleHost sampleLedger (sampleTwoDays 200) 9 1 := by
  rintro pre α mid post amount hsplit ⟨op, hop, happrove, -, -⟩ -
  have hdeed : α.deed ∈ [.external ⟨fun _ => true, .approve 9 1 0 200⟩,
      .applied (.subscribe 1 2 9 100 86400 false none), .opened 2 1, .entry 1 2 true, .opened 2 1,
      .entry 1 2 true] := by
    have hmem : α ∈ microHistory sampleHost (State.deployed UInt8 (List UInt8) sampleLedger)
        (sampleTwoDays 200) := by simp [hsplit]
    exact List.mem_map_of_mem hmem
  have hamount : amount = 200 := by
    simp only [hop, List.mem_cons, Deed.external.injEq, reduceCtorEq, List.not_mem_nil,
      or_false] at hdeed
    rw [hdeed] at happrove
    exact (TokenLedger.Operation.approve.inj happrove).2.2.2.symm
  subst hamount
  have hsub : mid.Sublist (microHistory sampleHost
      (State.deployed UInt8 (List UInt8) sampleLedger) (sampleTwoDays 200)) := by
    rw [hsplit]
    exact ((List.sublist_cons_self _ _).trans (List.sublist_append_right _ _)).trans
      (List.sublist_append_left _ _)
  exact ((hsub.map _).sum_le_sum (by decide +kernel)).trans (by decide +kernel)

theorem allowance_cap_sample :
    AllowanceCapped sampleHost sampleLedger (sampleTwoDays 200) 9 1 :=
  allowance_cap sampleHost_keysInjective
    (show OverLedger sampleHost fun _ => some "TOK" from rfl) coveredByApproval_sample

end SorobanPay
