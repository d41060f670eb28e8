import SorobanPay.Lifecycle.PauseSafety

/-!
# Isolation of the tokens of a pair

Most entry points take a token beside the subscriber and the merchant, as if a pair could have a
subscription in each of several tokens. The storage key is the hash of subscriber and merchant
alone, so a pair has one record, and the token of the record need not be the one that is asked for.
A call that names another token acts on this record: `subscribe` overwrites it, `cancel`,
`pause_subscription`, `resume_subscription` and `execute_payment` treat it as the subscription that
they were asked for, and a batch charges it.

The subscription of a pair in a token is the record of the pair if it is in that token. The
tokens of a pair are isolated in a step if its operation keeps the subscriptions in all other
tokens and treats a subscription that does not exist as absent. `token_isolation_iff` says that this
holds throughout a run exactly if no step of it gets to a record in another token.

## Main definitions

* `Host.subscriptionIn`, `CollectableIn`: the subscription of a pair in a token.
* `TokenHost.Separate`: token contracts that do not share balances or allowances.
* `Keeps`, `Call.FindsNone`, `TokenIsolated`: isolation.
* `Call.Crosses`: the calls that get to a record in another token.

## Main results

* `Call.isolated_iff`: isolation in one step.
* `token_isolation_iff`: isolation throughout a run.
* `not_tokenIsolated_second_token`: a subscription lost to a second token.
-/

set_option autoImplicit false

namespace SorobanPay

open Foundation

variable {Address Hash World Op : Type}

/-! ### Subscriptions in a token -/

section Subscriptions

variable [DecidableEq Address] (H : Host Address Hash World Op)

/-- The subscription of a pair in a token: the record of the pair, if it is in that token. -/
def Host.subscriptionIn (σ : State Address Hash World) (s m t : Address) :
    Option (SubscriptionData Address) :=
  (H.record σ s m).filter fun d => d.token = t

/-- The subscription of a pair in a token passes the checks that the contract makes before a
payment at the time `now`. -/
def CollectableIn (now : ℕ) (σ : State Address Hash World) (s m t : Address) : Prop :=
  ∃ d, H.subscriptionIn σ s m t = some d ∧ d.isPaused = false ∧ d.nextPayment ≤ now ∧
    σ.hasExecutionMarker (H.subscriptionKey s m) d.paymentNonce = false ∧
    Approved H σ s d ∧ Funded H σ s d

/-- The record of a pair is in another token than `t`. -/
def OtherToken (σ : State Address Hash World) (s m t : Address) : Prop :=
  ∃ d, H.record σ s m = some d ∧ d.token ≠ t

variable {H} {σ : State Address Hash World} {s m t t' : Address}

theorem subscriptionIn_eq_some_iff {d : SubscriptionData Address} :
    H.subscriptionIn σ s m t = some d ↔ H.record σ s m = some d ∧ d.token = t := by
  rw [Host.subscriptionIn, Option.filter_eq_some_iff, decide_eq_true_iff]

theorem subscriptionIn_eq_none_iff :
    H.subscriptionIn σ s m t = none ↔ ∀ d, H.record σ s m = some d → d.token ≠ t := by
  rw [Host.subscriptionIn, Option.filter_eq_none_iff]
  simp

/-- A pair whose record is in another token has no subscription. -/
theorem OtherToken.subscriptionIn_eq_none (h : OtherToken H σ s m t) :
    H.subscriptionIn σ s m t = none := by
  obtain ⟨d, hd, hne⟩ := h
  rw [subscriptionIn_eq_none_iff]
  intro d' hd'
  obtain rfl := Option.some.inj (hd.symm.trans hd')
  exact hne

/-- A pair with a subscription has none in another token. -/
theorem subscriptionIn_eq_none_of_ne (h : ¬ OtherToken H σ s m t) (hne : t' ≠ t) :
    H.subscriptionIn σ s m t' = none := by
  rw [subscriptionIn_eq_none_iff]
  intro d hd ht
  exact h ⟨d, hd, fun heq => hne (ht.symm.trans heq)⟩

theorem record_eq_none (h : ¬ OtherToken H σ s m t) (h' : H.subscriptionIn σ s m t = none) :
    H.record σ s m = none := by
  rw [subscriptionIn_eq_none_iff] at h'
  exact Option.eq_none_iff_forall_ne_some.2 fun d hd => h ⟨d, hd, h' d hd⟩

/-- `get_subscription` answers for the token asked for unless the record is in another one. -/
theorem getSubscription_eq_iff :
    getSubscription H σ s m t = H.subscriptionIn σ s m t ↔ ¬ OtherToken H σ s m t := by
  change H.record σ s m = _ ↔ _
  rcases hr : H.record σ s m with _ | d
  · simp [Host.subscriptionIn, OtherToken, hr]
  · by_cases ht : d.token = t <;>
      simp [Host.subscriptionIn, OtherToken, hr, Option.filter_some, ht]

end Subscriptions

/-! ### What an operation keeps -/

/-- Token contracts that are separate: a transfer of one token does not change the allowances and
balances of another. -/
structure TokenHost.Separate (T : TokenHost Address World Op) : Prop where
  allowance : ∀ {auth : Address → Bool} {w w' : World} {t src dst : Address} {a : ℤ},
    T.transfer auth w t src dst a = some w' → ∀ t', t' ≠ t → T.allowance w' t' = T.allowance w t'
  balance : ∀ {auth : Address → Bool} {w w' : World} {t src dst : Address} {a : ℤ},
    T.transfer auth w t src dst a = some w' → ∀ t', t' ≠ t → T.balance w' t' = T.balance w t'

section Keeps

variable [DecidableEq Address] {H : Host Address Hash World Op}
  {σ σ' σ'' : State Address Hash World} {s m t t' : Address}

/-- The subscription of a pair in a token keeps its existence, terms and next payment, and remains
collectable. -/
structure Keeps (H : Host Address Hash World Op) (s m t : Address)
    (σ σ' : State Address Hash World) : Prop where
  kept : ∀ d, H.subscriptionIn σ s m t = some d → ∃ d', H.subscriptionIn σ' s m t = some d' ∧
    d'.amount = d.amount ∧ d'.interval = d.interval ∧ d'.nextPayment = d.nextPayment
  collectable : ∀ now, CollectableIn H now σ s m t → CollectableIn H now σ' s m t

theorem Keeps.refl (σ : State Address Hash World) : Keeps H s m t σ σ :=
  ⟨fun d hd => ⟨d, hd, rfl, rfl, rfl⟩, fun _ h => h⟩

theorem Keeps.trans (h : Keeps H s m t σ σ') (h' : Keeps H s m t σ' σ'') :
    Keeps H s m t σ σ'' := by
  refine ⟨fun d hd => ?_, fun now hc => h'.collectable now (h.collectable now hc)⟩
  obtain ⟨d', hd', hamount, hinterval, hnext⟩ := h.kept d hd
  obtain ⟨d'', hd'', hamount', hinterval', hnext'⟩ := h'.kept d' hd'
  exact ⟨d'', hd'', hamount'.trans hamount, hinterval'.trans hinterval, hnext'.trans hnext⟩

/-- Nothing is lost where there is nothing. -/
theorem Keeps.of_none (h : H.subscriptionIn σ s m t = none) : Keeps H s m t σ σ' := by
  refine ⟨fun d hd => ?_, ?_⟩
  · rw [h] at hd
    cases hd
  · rintro now ⟨d, hd, -⟩
    rw [h] at hd
    cases hd

/-- A subscription of which at most the mark of an overdue payment changes, while the token
contract reports the same as before. -/
theorem Keeps.of_record
    (hrecord : ∀ d, H.record σ s m = some d → d.token = t →
      ∃ o, H.record σ' s m = some { d with overdueSince := o })
    (hmarkers : σ'.executionMarkers = σ.executionMarkers)
    (hallowance : H.tokens.allowance σ'.tokens t = H.tokens.allowance σ.tokens t)
    (hbalance : H.tokens.balance σ'.tokens t = H.tokens.balance σ.tokens t) :
    Keeps H s m t σ σ' := by
  constructor
  · intro d hin
    obtain ⟨hd, ht⟩ := subscriptionIn_eq_some_iff.1 hin
    obtain ⟨o, ho⟩ := hrecord d hd ht
    exact ⟨_, subscriptionIn_eq_some_iff.2 ⟨ho, ht⟩, rfl, rfl, rfl⟩
  · rintro now ⟨d, hin, hactive, due, hmarker, happroved, hfunded⟩
    obtain ⟨hd, rfl⟩ := subscriptionIn_eq_some_iff.1 hin
    obtain ⟨o, ho⟩ := hrecord d hd rfl
    refine ⟨_, subscriptionIn_eq_some_iff.2 ⟨ho, rfl⟩, hactive, due, ?_, ?_, ?_⟩
    · rw [State.hasExecutionMarker, hmarkers]
      exact hmarker
    · simpa only [Approved, hallowance] using happroved
    · simpa only [Funded, hbalance] using hfunded

/-- A payment in one token does not show in another. -/
theorem payment_separate (hsep : H.tokens.Separate) {env : Env Address}
    {config : Option (ProtocolFeeConfig Address)} {w w' : World} {amount : ℤ}
    {fees : List (Event Address)} (h : payment H env config w s m t amount = some (w', fees))
    (hne : t' ≠ t) :
    H.tokens.allowance w' t' = H.tokens.allowance w t' ∧
      H.tokens.balance w' t' = H.tokens.balance w t' := by
  refine payment_invariant
    (I := fun w₁ => H.tokens.allowance w₁ t' = H.tokens.allowance w t' ∧
      H.tokens.balance w₁ t' = H.tokens.balance w t') (fun w₁ dst a w₂ hmove hw₁ => ?_) h ⟨rfl, rfl⟩
  exact ⟨(hsep.allowance hmove t' hne).trans hw₁.1, (hsep.balance hmove t' hne).trans hw₁.2⟩

end Keeps

/-! ### Operations with a token -/

/-- The lookup of a subscription by an entry point: who has to sign, and what is asked for. -/
structure Lookup (Address : Type) where
  signer : Address
  subscriber : Address
  merchant : Address
  token : Address

/-- The lookup of an entry point that takes a token and acts on one existing subscription. -/
def Call.lookup : Call Address → Option (Lookup Address)
  | .pauseSubscription s m t _ => some ⟨s, s, m, t⟩
  | .resumeSubscription s m t => some ⟨s, s, m, t⟩
  | .cancel s m t => some ⟨s, s, m, t⟩
  | .executePayment s m t => some ⟨m, s, m, t⟩
  | _ => none

/-- The call is an operation on `(s, m, t)`. -/
def Call.On (s m t : Address) : Call Address → Prop
  | .subscribe s' m' t' .. => s' = s ∧ m' = m ∧ t' = t
  | .batchExecutePayment m' t' subscribers => s ∈ subscribers ∧ m' = m ∧ t' = t
  | call => ∃ signer, call.lookup = some ⟨signer, s, m, t⟩

section Operations

variable [DecidableEq Address] [DecidableEq Hash] {H : Host Address Hash World Op}
  {env : Env Address} {σ σ' : State Address Hash World} {call : Call Address} {l : Lookup Address}

/-- The call treats the subscription of `s` that it asks for as absent: an authorized lookup returns
`NoActiveSubscription`, and a batch does not report a charge. -/
def Call.FindsNone (H : Host Address Hash World Op) (env : Env Address)
    (σ : State Address Hash World) (s : Address) (call : Call Address) : Prop :=
  (∀ l, call.lookup = some l → H.authorizes env l.signer = true →
    (call.run H env).Fails σ (.error .noActiveSubscription)) ∧
  ∀ results σ', (call.run H env).Returns σ (.reports results) σ' → (s, true) ∉ results

/-- A lookup that finds a record is signed. -/
theorem Call.record_of_returns (hl : call.lookup = some l) {reply : Reply Address}
    (h : (call.run H env).Returns σ reply σ') :
    H.authorizes env l.signer = true ∧ ∃ d, H.record σ l.subscriber l.merchant = some d := by
  cases call with
  | pauseSubscription s m t resumeAt =>
    obtain rfl := Option.some.inj hl
    obtain ⟨hauth, d, hd, -⟩ := returns_pauseSubscription.1 (Tx.returns_bind_const.1 h).1
    exact ⟨hauth, d, hd⟩
  | resumeSubscription s m t =>
    obtain rfl := Option.some.inj hl
    obtain ⟨hauth, d, hd, -⟩ := returns_resumeSubscription.1 (Tx.returns_bind_const.1 h).1
    exact ⟨hauth, d, hd⟩
  | cancel s m t =>
    obtain rfl := Option.some.inj hl
    obtain ⟨hauth, hd, -⟩ := returns_cancel.1 (Tx.returns_bind_const.1 h).1
    exact ⟨hauth, Option.isSome_iff_exists.1 hd⟩
  | executePayment s m t =>
    obtain rfl := Option.some.inj hl
    obtain ⟨hauth, d, hd, -⟩ := returns_executePayment.1 (Tx.returns_bind_const.1 h).1
    exact ⟨hauth, d, hd⟩
  | _ => cases hl

/-- A lookup returns `NoActiveSubscription` exactly if it is signed and the pair has no record. -/
theorem Call.fails_noActiveSubscription_iff (hl : call.lookup = some l) :
    (call.run H env).Fails σ (.error .noActiveSubscription) ↔
      H.authorizes env l.signer = true ∧ H.record σ l.subscriber l.merchant = none := by
  cases call with
  | pauseSubscription s m t resumeAt =>
    obtain rfl := Option.some.inj hl
    cases resumeAt <;>
      simp [Call.run, SorobanPay.pauseSubscription, ledgerTimestamp, storeSubscription, Host.record]
  | resumeSubscription s m t =>
    obtain rfl := Option.some.inj hl
    simp [Call.run, SorobanPay.resumeSubscription, ledgerTimestamp, checkedNextPayment,
      storeSubscription, Host.record]
  | cancel s m t =>
    obtain rfl := Option.some.inj hl
    simp [Call.run, SorobanPay.cancel, Host.record]
  | executePayment s m t =>
    obtain rfl := Option.some.inj hl
    have hpause : ∀ now (d : SubscriptionData Address) (τ : State Address Hash World),
        ¬ (clearElapsedPause now d : Contract Address Hash World _).Fails τ
          (.error .noActiveSubscription) := fun now d τ h => by
      simpa using fails_clearElapsedPause h
    simp [Call.run, SorobanPay.executePayment, Host.record, ledgerTimestamp, storeSubscription,
      tokenAllowance, tokenBalance, hpause, not_fails_payOut]
  | _ => cases hl

/-- What isolation asks of an operation on `(s, m, t)`. -/
structure Call.Isolated (H : Host Address Hash World Op) (env : Env Address)
    (σ : State Address Hash World) (s m t : Address) (call : Call Address) : Prop where
  others : ∀ t', t' ≠ t → Keeps H s m t' σ (next H σ ⟨env, .invoke call⟩)
  absent : H.subscriptionIn σ s m t = none → call.FindsNone H env σ s

/-- The call gets to a record in another token than the one it names: it looks it up, it subscribes
over it, or it is a batch with an entry that finds it due and covered. -/
def Call.Crosses (H : Host Address Hash World Op) (env : Env Address)
    (σ : State Address Hash World) : Call Address → Prop
  | .subscribe s m t amount interval strict gracePeriod => OtherToken H σ s m t ∧
    ∃ σ', (SorobanPay.subscribe H env s m t amount interval strict gracePeriod).Returns σ () σ'
  | .batchExecutePayment m t subscribers =>
    ∃ μ ∈ microSteps H σ ⟨env, .invoke (.batchExecutePayment m t subscribers)⟩, ∃ s,
      Collectible H s m μ ∧ OtherToken H μ.before s m t
  | call => ∃ l, call.lookup = some l ∧ H.authorizes env l.signer = true ∧
    OtherToken H σ l.subscriber l.merchant l.token

theorem Call.isolated_lookup_iff {signer s m t : Address}
    (hl : call.lookup = some ⟨signer, s, m, t⟩) :
    call.Isolated H env σ s m t ↔
      ¬ (H.authorizes env signer = true ∧ OtherToken H σ s m t) := by
  constructor
  · rintro h ⟨hauth, hother⟩
    have hfails := (h.absent hother.subscriptionIn_eq_none).1 _ hl hauth
    obtain ⟨d, hd, -⟩ := hother
    have hnone := ((Call.fails_noActiveSubscription_iff hl).1 hfails).2
    rw [hd] at hnone
    cases hnone
  · intro h
    by_cases hother : OtherToken H σ s m t
    · have hauth : ¬ H.authorizes env signer = true := fun hauth => h ⟨hauth, hother⟩
      have hreturns : ∀ reply σ', ¬ (call.run H env).Returns σ reply σ' := fun _ _ hr =>
        hauth (Call.record_of_returns hl hr).1
      refine ⟨fun t' _ => ?_, fun _ =>
        ⟨fun l hl' hauth' => ?_, fun _ _ hr => (hreturns _ _ hr).elim⟩⟩
      · rw [next_eq_of_not_returns hreturns]
        exact .refl σ
      · obtain rfl := Option.some.inj (hl.symm.trans hl')
        exact (hauth hauth').elim
    · refine ⟨fun t' hne => .of_none (subscriptionIn_eq_none_of_ne hother hne), fun hnone => ?_⟩
      have hrecord : H.record σ s m = none := record_eq_none hother hnone
      refine ⟨fun l hl' hauth => ?_, fun _ _ hr => ?_⟩
      · obtain rfl := Option.some.inj (hl.symm.trans hl')
        exact (Call.fails_noActiveSubscription_iff hl).2 ⟨hauth, hrecord⟩
      · obtain ⟨-, d, hd⟩ := Call.record_of_returns hl hr
        rw [hrecord] at hd
        cases hd

theorem Call.isolated_subscribe_iff (hkey : H.KeysInjective) {s m t : Address} {amount : ℤ}
    {interval : ℕ} {strict : Bool} {gracePeriod : Option ℕ} :
    (Call.subscribe s m t amount interval strict gracePeriod).Isolated H env σ s m t ↔
      ¬ (OtherToken H σ s m t ∧ ∃ σ',
        (SorobanPay.subscribe H env s m t amount interval strict gracePeriod).Returns σ () σ') := by
  constructor
  · rintro h ⟨⟨d, hd, hne⟩, σ', hr⟩
    obtain ⟨d', hd', -⟩ := (h.others d.token hne).kept d (subscriptionIn_eq_some_iff.2 ⟨hd, rfl⟩)
    rw [next_eq_of_returns (Tx.returns_bind_const.2 ⟨hr, rfl⟩)] at hd'
    obtain ⟨hrecord, htoken⟩ := subscriptionIn_eq_some_iff.1 hd'
    rw [record_subscribe hr, Host.record_setSubscription hkey, if_pos ⟨rfl, rfl⟩] at hrecord
    rw [← Option.some.inj hrecord] at htoken
    exact hne htoken.symm
  · intro h
    refine ⟨fun t' hne => ?_, fun _ => ⟨fun l hl => (by cases hl), fun _ _ hr => ?_⟩⟩
    · by_cases hother : OtherToken H σ s m t
      · rw [next_eq_of_not_returns fun _ σ' hr =>
          h ⟨hother, σ', (Tx.returns_bind_const.1 hr).1⟩]
        exact .refl σ
      · exact .of_none (subscriptionIn_eq_none_of_ne hother hne)
    · cases (Tx.returns_bind_const.1 hr).2

end Operations

/-! ### Batches -/

section Batches

variable [DecidableEq Address] [DecidableEq Hash] {H : Host Address Hash World Op}
  {env : Env Address} {σ σ' : State Address Hash World} {μ : MicroStep Address Hash World Op}
  {s m t t' : Address} {subscribers : List Address} {results : List (Address × Bool)}

/-- A batch leaves the token of every record. -/
theorem MicroStep.Genuine.token_eq (hkey : H.KeysInjective) (hμ : μ.Genuine H)
    (hbatch : μ.deed.OfBatch m) (s m' : Address) :
    (H.record μ.after s m').map (·.token) = (H.record μ.before s m').map (·.token) := by
  cases hμ with
  | opened | reverted => rfl
  | entry auth hnow h =>
    have hset : ∀ {x x' : Address} {τ τ' : State Address Hash World}
        {d d' : SubscriptionData Address}, H.record τ x x' = some d →
        H.record τ' = H.record (τ.setSubscription (H.subscriptionKey x x') d') →
        d'.token = d.token →
        (H.record τ' s m').map (·.token) = (H.record τ s m').map (·.token) := by
      intro x x' τ τ' d d' hd hτ htoken
      rw [hτ, Host.record_setSubscription hkey]
      split_ifs with hpair
      · obtain ⟨rfl, rfl⟩ := hpair
        rw [hd, Option.map_some, Option.map_some, htoken]
      · rfl
    cases h with
    | absent | notDue | lowAllowance => rfl
    | underfunded hr => exact hset hr rfl rfl
    | charged hr => exact hset hr rfl rfl
  | applied | executed | lapsed | external => exact hbatch.elim

/-- An entry of a batch that charges records in the token `t` only keeps the subscriptions in other
tokens. -/
theorem MicroStep.Genuine.keeps (hkey : H.KeysInjective) (hsep : H.tokens.Separate)
    (hμ : μ.Genuine H) (hbatch : μ.deed.OfBatch m)
    (hsame : ∀ x, Collectible H x m μ → ¬ OtherToken H μ.before x m t) (hne : t' ≠ t)
    (s : Address) :
    Keeps H s m t' μ.before μ.after := by
  cases hμ with
  | opened => exact .of_record (fun d hd _ => ⟨d.overdueSince, hd⟩) rfl rfl rfl
  | reverted => exact .refl _
  | @entry _ _ _ x _ _ auth hnow h =>
    obtain rfl : _ = m := hbatch
    cases h with
    | absent | notDue => exact .refl _
    | lowAllowance => exact .of_record (fun d hd _ => ⟨d.overdueSince, hd⟩) rfl rfl rfl
    | underfunded hr =>
      refine .of_record (fun d hd _ => ?_) rfl rfl rfl
      rw [Host.record_publish, Host.record_setSubscription hkey]
      split_ifs with hpair
      · obtain ⟨rfl, -⟩ := hpair
        obtain rfl := Option.some.inj (hr.symm.trans hd)
        exact ⟨_, rfl⟩
      · exact ⟨d.overdueSince, hd⟩
    | @charged d w fees hr due charge =>
      have htoken : d.token = t := by
        by_contra hother
        exact hsame x ⟨⟨_, rfl⟩, d, hr, due, charge.approved, charge.funded⟩ ⟨d, hr, hother⟩
      subst htoken
      obtain ⟨hallowance, hbalance⟩ := payment_separate hsep charge.paid hne
      refine .of_record (fun d' hd' ht' => ⟨d'.overdueSince, ?_⟩) rfl hallowance hbalance
      by_cases hs : s = x
      · subst hs
        obtain rfl := Option.some.inj (hr.symm.trans hd')
        exact absurd ht'.symm hne
      · change H.record (State.setSubscription _ _ _) s _ = _
        rw [Host.record_setSubscription hkey, if_neg fun h => hs h.1]
        exact hd'
  | applied | executed | lapsed | external => exact hbatch.elim

/-- The micro-steps of a batch start with the tokens that the records had before it. -/
theorem token_eq_of_mem (hkey : H.KeysInjective)
    (hμ : μ ∈ microSteps H σ (batchStep Op Hash env m t subscribers)) (s : Address) :
    μ.Genuine H ∧ (H.record μ.before s m).map (·.token) = (H.record σ s m).map (·.token) := by
  have hguarded := (path_microSteps (H := H) σ (batchStep Op Hash env m t subscribers)).guarded
    (fun τ => (H.record τ s m).map (·.token) = (H.record σ s m).map (·.token))
    (fun ν => ν.deed.OfBatch m)
    (fun ν => ν.Genuine H ∧ (H.record ν.before s m).map (·.token) = (H.record σ s m).map (·.token))
    (fun τ ν τ' hτ hν hl => by
      obtain ⟨rfl, rfl, hgen⟩ := hl
      exact ⟨⟨hgen, hτ⟩, (hgen.token_eq hkey hν s m).trans hτ⟩) rfl fun ν => ofBatch_of_mem
  exact hguarded.1 μ hμ

theorem Call.isolated_batch_iff (hkey : H.KeysInjective) (hsep : H.tokens.Separate) :
    (∀ s ∈ subscribers,
        (Call.batchExecutePayment m t subscribers).Isolated H env σ s m t) ↔
      ¬ ∃ μ ∈ microSteps H σ (batchStep Op Hash env m t subscribers), ∃ s,
        Collectible H s m μ ∧ OtherToken H μ.before s m t := by
  have hother_iff : ∀ μ ∈ microSteps H σ (batchStep Op Hash env m t subscribers), ∀ s,
      OtherToken H μ.before s m t ↔ OtherToken H σ s m t := by
    intro μ hμ s
    have htoken := (token_eq_of_mem hkey hμ s).2
    have hiff : ∀ τ : State Address Hash World, OtherToken H τ s m t ↔
        ∃ a, (H.record τ s m).map (·.token) = some a ∧ a ≠ t := fun τ => by
      simp [OtherToken]
    rw [hiff, hiff, htoken]
  constructor
  · rintro h ⟨μ, hμ, s, hcollectible, hother⟩
    obtain ⟨charged, hdeed⟩ := hcollectible.1
    obtain rfl := ((token_eq_of_mem hkey hμ s).1.isCharge_entry_iff hdeed).2 hcollectible
    obtain ⟨hs, results, σ', hr, hreport⟩ := report_of_mem hμ hdeed
    have habsent := (h s hs).absent (((hother_iff μ hμ s).1 hother).subscriptionIn_eq_none)
    exact habsent.2 results σ' (Tx.returns_bind.2 ⟨_, _, hr, Tx.returns_pure.2 ⟨rfl, rfl⟩⟩) hreport
  · intro h s _
    refine ⟨fun t' hne => ?_, fun hnone =>
      ⟨fun l hl => (by cases hl), fun results σ' hr hreport => ?_⟩⟩
    · exact ((path_microSteps (H := H) σ (batchStep Op Hash env m t subscribers)).guarded
        (fun τ => Keeps H s m t' σ τ)
        (fun ν => ν.deed.OfBatch m ∧ ∀ x, Collectible H x m ν → ¬ OtherToken H ν.before x m t)
        (fun _ => True)
        (fun τ ν τ' hτ hν hl => by
          obtain ⟨rfl, rfl, hgen⟩ := hl
          exact ⟨trivial, hτ.trans (hgen.keeps hkey hsep hν.1 hν.2 hne s)⟩) (.refl σ)
        fun ν hν => ⟨ofBatch_of_mem hν, fun x hc ho => h ⟨ν, hν, x, hc, ho⟩⟩).2
    · obtain ⟨results', τ, hbatch, hpure⟩ := Tx.returns_bind.1 hr
      obtain ⟨hreports, rfl⟩ := Tx.returns_pure.1 hpure
      obtain rfl := Reply.reports.inj hreports
      obtain ⟨μ, hμ, hdeed⟩ := entry_of_report hbatch hreport
      have hcollectible := ((token_eq_of_mem hkey hμ s).1.isCharge_entry_iff hdeed).1 rfl
      obtain ⟨d, hd, -⟩ := hcollectible.2
      have hother : ¬ OtherToken H μ.before s m t := fun ho => h ⟨μ, hμ, s, hcollectible, ho⟩
      have hrecord := record_eq_none (mt (hother_iff μ hμ s).2 hother) hnone
      have htoken := (token_eq_of_mem hkey hμ s).2
      rw [hrecord, hd] at htoken
      cases htoken

end Batches

/-! ### Isolation -/

section Isolation

variable [DecidableEq Address] [DecidableEq Hash] {H : Host Address Hash World Op}
  {env : Env Address} {σ : State Address Hash World}

private theorem Call.isolated_default_iff {call : Call Address} :
    (∀ s m t, (∃ signer, call.lookup = some ⟨signer, s, m, t⟩) → call.Isolated H env σ s m t) ↔
      ¬ ∃ l, call.lookup = some l ∧ H.authorizes env l.signer = true ∧
        OtherToken H σ l.subscriber l.merchant l.token := by
  constructor
  · rintro h ⟨⟨signer, s, m, t⟩, hl, hcross⟩
    exact (Call.isolated_lookup_iff hl).1 (h s m t ⟨signer, hl⟩) hcross
  · rintro h s m t ⟨signer, hl⟩
    exact (Call.isolated_lookup_iff hl).2 fun hcross => h ⟨_, hl, hcross⟩

/-- **Isolation in one step.** An operation is isolated exactly if it does not get to a record in
another token. -/
theorem Call.isolated_iff (hkey : H.KeysInjective) (hsep : H.tokens.Separate)
    (call : Call Address) :
    (∀ s m t, call.On s m t → call.Isolated H env σ s m t) ↔ ¬ call.Crosses H env σ := by
  cases call with
  | subscribe s m t amount interval strict gracePeriod =>
    constructor
    · intro h
      exact (Call.isolated_subscribe_iff hkey).1 (h s m t ⟨rfl, rfl, rfl⟩)
    · rintro h _ _ _ ⟨rfl, rfl, rfl⟩
      exact (Call.isolated_subscribe_iff hkey).2 h
  | batchExecutePayment m t subscribers =>
    rw [Call.Crosses, ← Call.isolated_batch_iff hkey hsep]
    constructor
    · intro h s hs
      exact h s m t ⟨hs, rfl, rfl⟩
    · rintro h s _ _ ⟨hs, rfl, rfl⟩
      exact h s hs
  | _ => exact Call.isolated_default_iff

/-- The tokens of a pair are isolated in a step: its operation on `(s, m, t)` keeps the
subscriptions of `(s, m)` in other tokens and treats an absent one as absent. -/
def TokenIsolated (H : Host Address Hash World Op) (σ : State Address Hash World)
    (step : Step Address Hash Op) : Prop :=
  ∀ call, step.action = .invoke call → ∀ s m t, call.On s m t → call.Isolated H step.env σ s m t

/-- The step gets to a record in another token than the one it names. -/
def Step.Crosses (H : Host Address Hash World Op) (σ : State Address Hash World)
    (step : Step Address Hash Op) : Prop :=
  ∃ call, step.action = .invoke call ∧ call.Crosses H step.env σ

theorem tokenIsolated_iff (hkey : H.KeysInjective) (hsep : H.tokens.Separate)
    (step : Step Address Hash Op) : TokenIsolated H σ step ↔ ¬ step.Crosses H σ := by
  constructor
  · rintro h ⟨call, haction, hcrosses⟩
    exact (Call.isolated_iff hkey hsep call).1 (h call haction) hcrosses
  · intro h call haction
    exact (Call.isolated_iff hkey hsep call).2 fun hcrosses => h ⟨call, haction, hcrosses⟩

/-- **When the tokens of a pair are isolated.** In a run from deployment every operation is isolated
exactly if no step gets to a record in another token than the one it names; and in every state
reached `get_subscription` answers for the token asked for exactly if the record is not in another
one. -/
theorem token_isolation_iff (hkey : H.KeysInjective) (hsep : H.tokens.Separate) {w : World}
    {steps : List (Step Address Hash Op)} :
    (Along (next H) (TokenIsolated H) (State.deployed Address Hash w) steps ↔
      Along (next H) (fun σ step => ¬ step.Crosses H σ) (State.deployed Address Hash w) steps) ∧
      ∀ pre post, steps = pre ++ post → ∀ s m t,
        getSubscription H (after (next H) (State.deployed Address Hash w) pre) s m t =
            H.subscriptionIn (after (next H) (State.deployed Address Hash w) pre) s m t ↔
          ¬ OtherToken H (after (next H) (State.deployed Address Hash w) pre) s m t :=
  ⟨⟨Along.mono fun _ step => (tokenIsolated_iff hkey hsep step).1,
    Along.mono fun _ step => (tokenIsolated_iff hkey hsep step).2⟩,
    fun _ _ _ _ _ _ => getSubscription_eq_iff⟩

end Isolation

/-- The tokens of a ledger are separate. -/
theorem OverLedger.separate [DecidableEq Address]
    {H : Host Address Hash (TokenLedger Address) (External Address)}
    {symbols : Address → Option String} (hH : OverLedger H symbols) : H.tokens.Separate := by
  rw [hH]
  constructor
  · intro auth L L' t src dst a h t' hne
    obtain ⟨-, rfl⟩ := TokenLedger.transfer_eq_some_iff.1 h
    rfl
  · intro auth L L' t src dst a h t' hne
    obtain ⟨-, rfl⟩ := TokenLedger.transfer_eq_some_iff.1 h
    funext x
    change some ((L.move t src dst a).balance t' x) = some (L.balance t' x)
    rw [TokenLedger.balance_move_of_ne hne]

/-- A subscriber who subscribes in the token 8 loses his subscription in the token 9. -/
theorem not_tokenIsolated_second_token :
    ¬ Along (next sampleHost) (TokenIsolated sampleHost) sampleStart
      [sampleStep 1 (.subscribe 1 2 9 100 86400 false none),
        sampleStep 2 (.subscribe 1 2 8 100 86400 false none)] := by
  rintro ⟨-, h, -⟩
  have hothers := (h _ rfl 1 2 8 ⟨rfl, rfl, rfl⟩).others 9 (by decide)
  obtain ⟨d, hd, -⟩ := hothers.kept ⟨9, 100, 86400, 86401, false, 0, none, 0, none⟩ rfl
  cases hd

/-- A pair with a subscription in the token 9 that is collected and ended, and one in the token 8
after it. -/
def sampleTokens : List (Step UInt8 (List UInt8) (External UInt8)) :=
  [sampleStep 1 (.subscribe 1 2 9 100 86400 false none),
    sampleStep 86401 (.executePayment 1 2 9),
    sampleStep 86402 (.cancel 1 2 9),
    sampleStep 86403 (.subscribe 1 2 8 100 86400 false none)]

theorem token_isolation_sample :
    Along (next sampleHost) (TokenIsolated sampleHost) sampleStart sampleTokens := by
  have hsep : sampleHost.tokens.Separate :=
    OverLedger.separate (show OverLedger sampleHost fun _ => some "TOK" from rfl)
  refine (token_isolation_iff sampleHost_keysInjective hsep).1.2 ⟨?_, ?_, ?_, ?_, trivial⟩
  all_goals
    rintro ⟨call, haction, hcrosses⟩
    obtain rfl := Action.invoke.inj haction
  · obtain ⟨⟨d, hd, -⟩, -⟩ := hcrosses
    cases hd
  · obtain ⟨l, hl, -, d, hd, hne⟩ := hcrosses
    obtain rfl := Option.some.inj hl
    cases hd
    exact hne rfl
  · obtain ⟨l, hl, -, d, hd, hne⟩ := hcrosses
    obtain rfl := Option.some.inj hl
    cases hd
    exact hne rfl
  · obtain ⟨⟨d, hd, -⟩, -⟩ := hcrosses
    cases hd

end SorobanPay
