import SorobanPay.Contract.Invocation
import SorobanPay.Tokens.Ledger

/-!
# Agreement of the two payment paths

`execute_payment(s, m)` and a batch of `m` that lists `s` alone should charge the same records and
leave the same ledger. They are written out separately, and differ in three places: the batch has
no pause guard, the batch neither reads nor writes execution markers, and an underfunded record is
marked overdue for good by the batch only, because the single path returns an error and is undone.

`pathsAgree_iff` compares the paths on every state, reachable or not: they agree where neither
charges and the batch marks nothing new, and where both charge a record whose next marker is
already there.

## Main definitions

* `PathsAgree`: agreement of the paths on a state.
* `Settles`: the transfers of a record go through and its new schedule fits.
* `AgreementCondition`: the states on which the paths agree.

## Main results

* `pathsAgree_iff`: the paths agree exactly under the condition.
* `not_pathsAgree_sample`: they do not agree on the first payment of a subscription.
-/

set_option autoImplicit false

namespace SorobanPay

open Foundation

variable {Address Hash World Op : Type} [DecidableEq Address] [DecidableEq Hash]

/-! ### Statement -/

section Statement

variable (H : Host Address Hash World Op) (env : Env Address) (σ : State Address Hash World)
  (s m token : Address)

/-- A batch that lists `s` alone. -/
def invokeBatch : Except Fault (Reply Address) × State Address Hash World :=
  invoke H env (.batchExecutePayment m token [s]) σ

/-- The single path on `s`. -/
def invokeExecute : Except Fault (Reply Address) × State Address Hash World :=
  invoke H env (.executePayment s m token) σ

/-- The paths agree on a state: one charges exactly when the other does; when both do, the states
they leave have the same records, markers, balances and allowances; when neither does, they have
the same record of the pair and the same balances. -/
structure PathsAgree : Prop where
  succeed_iff : (invokeBatch H env σ s m token).1 = .ok (.reports [(s, true)]) ↔
    (invokeExecute H env σ s m token).1 = .ok .done
  on_success : (invokeBatch H env σ s m token).1 = .ok (.reports [(s, true)]) →
    (invokeExecute H env σ s m token).1 = .ok .done →
      (invokeBatch H env σ s m token).2.subscriptions =
          (invokeExecute H env σ s m token).2.subscriptions ∧
        (invokeBatch H env σ s m token).2.executionMarkers =
          (invokeExecute H env σ s m token).2.executionMarkers ∧
        H.tokens.balance (invokeBatch H env σ s m token).2.tokens =
          H.tokens.balance (invokeExecute H env σ s m token).2.tokens ∧
        H.tokens.allowance (invokeBatch H env σ s m token).2.tokens =
          H.tokens.allowance (invokeExecute H env σ s m token).2.tokens
  on_failure : (invokeBatch H env σ s m token).1 ≠ .ok (.reports [(s, true)]) →
    (invokeExecute H env σ s m token).1 ≠ .ok .done →
      H.record (invokeBatch H env σ s m token).2 s m =
          H.record (invokeExecute H env σ s m token).2 s m ∧
        H.tokens.balance (invokeBatch H env σ s m token).2.tokens =
          H.tokens.balance (invokeExecute H env σ s m token).2.tokens

/-- A record is covered by allowance and balance, its transfers go through, and its new schedule
and nonce fit. -/
def Settles (d : SubscriptionData Address) : Prop :=
  ∃ w fees, Charge H env σ.protocolFee σ s m d w fees

/-- A due record is covered by the allowance and not by the balance. -/
def Underfunded (d : SubscriptionData Address) : Prop :=
  d.nextPayment ≤ env.timestamp ∧ Approved H σ s d ∧
    ∃ b, H.tokens.balance σ.tokens d.token s = some b ∧ b < d.amount

/-- A record with the interval zero whose pause has elapsed: the single path clears the pause and
finds the payment due at once. The contract stores no such record. -/
def ResumesDue (d : SubscriptionData Address) : Prop :=
  d.isPaused = true ∧ (∃ r, d.pausedUntil = some r ∧ r ≤ env.timestamp) ∧ d.interval = 0 ∧
    σ.hasExecutionMarker (H.subscriptionKey s m) d.paymentNonce = false ∧ Settles H env σ s m d

/-- The states on which the paths agree. Either the record of the pair is not chargeable by either
path, and the batch does not mark it overdue for the first time; or it is due, not paused and
settles, and there is no marker for its nonce but one for the next. -/
def AgreementCondition : Prop :=
  ∀ d, H.record σ s m = some d → 0 < env.timestamp →
    (¬ (d.nextPayment ≤ env.timestamp ∧ Settles H env σ s m d) ∧
      ¬ (Underfunded H env σ s d ∧ d.overdueSince = none) ∧ ¬ ResumesDue H env σ s m d) ∨
    (d.nextPayment ≤ env.timestamp ∧ Settles H env σ s m d ∧ d.isPaused = false ∧
      σ.hasExecutionMarker (H.subscriptionKey s m) d.paymentNonce = false ∧
      σ.hasExecutionMarker (H.subscriptionKey s m) (d.paymentNonce + 1) = true)

end Statement

/-! ### Outcomes -/

section Outcomes

variable {H : Host Address Hash World Op} {env : Env Address} {σ σ' : State Address Hash World}
  {s m token : Address} {d : SubscriptionData Address}

/-- A batch of one. -/
theorem returns_batch_singleton {results : List (Address × Bool)} :
    (batchExecutePayment H env m token [s]).Returns σ results σ' ↔
      H.authorizes env m = true ∧ 0 < env.timestamp ∧ ∃ charged,
        EntryStep H env σ.protocolFee s m (σ.publish (.batchExecuteInitiated m 1)) charged σ' ∧
          [(s, charged)] = results := by
  simp only [returns_batchExecutePayment, returns_batchLoop_cons, returns_batchLoop_nil]
  constructor
  · rintro ⟨auth, -, -, hnow, charged, τ, hentry, rest, ⟨rfl, rfl⟩, rfl⟩
    exact ⟨auth, hnow, charged, hentry, rfl⟩
  · rintro ⟨auth, hnow, charged, hentry, rfl⟩
    exact ⟨auth, by simp, by simp [batchMaxSize], hnow, charged, _, hentry, _, ⟨rfl, rfl⟩, rfl⟩

theorem invokeBatch_eq_iff {results : List (Address × Bool)} :
    invokeBatch H env σ s m token = (.ok (.reports results), σ') ↔
      (batchExecutePayment H env m token [s]).Returns σ results σ' := by
  simp [invokeBatch, invoke, Tx.commit_eq_ok_iff, Call.run]

theorem invokeExecute_eq_iff :
    invokeExecute H env σ s m token = (.ok .done, σ') ↔
      (executePayment H env s m token).Returns σ () σ' := by
  simp only [invokeExecute, invoke, Tx.commit_eq_ok_iff, Call.run, Tx.returns_bind_const, and_true]

private theorem fst_eq_iff {α β : Type} {p : α × β} {a : α} : p.1 = a ↔ ∃ b, p = (a, b) :=
  ⟨fun h => ⟨p.2, Prod.ext h rfl⟩, fun ⟨_, h⟩ => by rw [h]⟩

/-- When the batch charges, and what it leaves. -/
theorem batch_charges_iff (hauth : H.authorizes env m = true) :
    (invokeBatch H env σ s m token).1 = .ok (.reports [(s, true)]) ↔
      0 < env.timestamp ∧ ∃ d, H.record σ s m = some d ∧ d.nextPayment ≤ env.timestamp ∧
        Settles H env σ s m d := by
  simp only [fst_eq_iff, invokeBatch_eq_iff, returns_batch_singleton]
  constructor
  · rintro ⟨σ', -, hnow, charged, hentry, hcharged⟩
    obtain rfl : charged = true := by simpa using hcharged
    cases hentry with
    | charged hr due charge =>
      exact ⟨hnow, _, hr, due, _, _, charge.approved, charge.funded, charge.paid,
        charge.next_fits, charge.nonce_fits⟩
  · rintro ⟨hnow, d, hr, due, w, fees, charge⟩
    exact ⟨_, hauth, hnow, true, .charged hr due
      ⟨charge.approved, charge.funded, charge.paid, charge.next_fits, charge.nonce_fits⟩, rfl⟩

/-- When the single path charges. -/
theorem execute_charges_iff (hauth : H.authorizes env m = true) :
    (invokeExecute H env σ s m token).1 = .ok .done ↔
      0 < env.timestamp ∧ ∃ d₀ d, H.record σ s m = some d₀ ∧ d₀.Unpaused env.timestamp d ∧
        d.nextPayment ≤ env.timestamp ∧
          σ.hasExecutionMarker (H.subscriptionKey s m) d.paymentNonce = false ∧
            Settles H env σ s m d := by
  simp only [fst_eq_iff, invokeExecute_eq_iff, returns_executePayment]
  constructor
  · rintro ⟨σ', -, d₀, hr, hnow, d, hd, due, hmarker, w, fees, charge, -⟩
    exact ⟨hnow, d₀, d, hr, hd, due, hmarker, w, fees, charge⟩
  · rintro ⟨hnow, d₀, d, hr, hd, due, hmarker, w, fees, charge⟩
    exact ⟨_, hauth, d₀, hr, hnow, d, hd, due, hmarker, w, fees, charge, rfl⟩

variable (token) in
/-- What a batch that charges leaves. -/
theorem batch_after_charge (hauth : H.authorizes env m = true) (hnow : 0 < env.timestamp)
    (hr : H.record σ s m = some d) (due : d.nextPayment ≤ env.timestamp) {w : World}
    {fees : List (Event Address)} (charge : Charge H env σ.protocolFee σ s m d w fees) :
    (invokeBatch H env σ s m token).2.subscriptions =
        Function.update σ.subscriptions (H.subscriptionKey s m)
          (some (d.collected env.timestamp)) ∧
      (invokeBatch H env σ s m token).2.executionMarkers = σ.executionMarkers ∧
        (invokeBatch H env σ s m token).2.tokens = w := by
  rw [invokeBatch_eq_iff.2 (returns_batch_singleton.2 ⟨hauth, hnow, true, .charged hr due
    ⟨charge.approved, charge.funded, charge.paid, charge.next_fits, charge.nonce_fits⟩, rfl⟩)]
  simp only [State.settle, State.publish, State.publishAll, State.setTokens, State.setSubscription,
    and_self]

variable (token) in
/-- What the single path leaves when it charges. -/
theorem execute_after_charge (hauth : H.authorizes env m = true) (hnow : 0 < env.timestamp)
    {d₀ : SubscriptionData Address} (hr : H.record σ s m = some d₀)
    (hd : d₀.Unpaused env.timestamp d) (due : d.nextPayment ≤ env.timestamp)
    (hmarker : σ.hasExecutionMarker (H.subscriptionKey s m) d.paymentNonce = false) {w : World}
    {fees : List (Event Address)} (charge : Charge H env σ.protocolFee σ s m d w fees) :
    (invokeExecute H env σ s m token).2.subscriptions =
        Function.update σ.subscriptions (H.subscriptionKey s m)
          (some (d.collected env.timestamp)) ∧
      (invokeExecute H env σ s m token).2.executionMarkers =
          (σ.writeExecutionMarker (H.subscriptionKey s m) (d.paymentNonce + 1)).executionMarkers ∧
        (invokeExecute H env σ s m token).2.tokens = w := by
  rw [invokeExecute_eq_iff.2 (returns_executePayment.2 ⟨hauth, d₀, hr, hnow, d, hd, due, hmarker,
    w, fees, charge, rfl⟩)]
  exact ⟨rfl, rfl, rfl⟩

/-- A single path that does not charge leaves the state as it was. -/
theorem execute_after_failure (h : (invokeExecute H env σ s m token).1 ≠ .ok .done) :
    (invokeExecute H env σ s m token).2 = σ := by
  rcases ((Call.executePayment s m token).run H env).returns_or_fails σ with
    ⟨reply, τ, hr⟩ | ⟨e, hf⟩
  · have hreply : reply = .done := by
      simp only [Call.run, Tx.returns_bind_const] at hr
      exact hr.2.symm
    exact absurd (by rw [invokeExecute, invoke, Tx.commit_of_returns hr, hreply]) h
  · rw [invokeExecute, invoke, Tx.commit_of_fails hf]

/-- The batch marks an underfunded record. -/
theorem batch_marks_overdue (hauth : H.authorizes env m = true) (hnow : 0 < env.timestamp)
    (hr : H.record σ s m = some d) (hunder : Underfunded H env σ s d) :
    H.record (invokeBatch H env σ s m token).2 s m = some (d.overdue env.timestamp) := by
  obtain ⟨due, approved, b, hb, low⟩ := hunder
  rw [invokeBatch_eq_iff.2 (returns_batch_singleton.2 ⟨hauth, hnow, false,
    .underfunded hr due approved hb low, rfl⟩)]
  simp [Host.record]

/-- A batch that does not charge leaves all tokens, and changes the record only to mark it. -/
theorem batch_after_failure
    (h : (invokeBatch H env σ s m token).1 ≠ .ok (.reports [(s, true)])) :
    (invokeBatch H env σ s m token).2.tokens = σ.tokens ∧
      (H.record (invokeBatch H env σ s m token).2 s m = H.record σ s m ∨
        ∃ d, H.record σ s m = some d ∧ 0 < env.timestamp ∧ Underfunded H env σ s d ∧
          H.record (invokeBatch H env σ s m token).2 s m = some (d.overdue env.timestamp)) := by
  rcases (batchExecutePayment H env m token [s]).returns_or_fails σ with ⟨results, τ, hr⟩ | ⟨e, hf⟩
  · have hinvoke := invokeBatch_eq_iff.2 hr
    obtain ⟨-, hnow, charged, hentry, rfl⟩ := returns_batch_singleton.1 hr
    rw [hinvoke] at h ⊢
    cases hentry with
    | absent | notDue | lowAllowance => exact ⟨rfl, .inl rfl⟩
    | underfunded hd due approved hb low =>
      exact ⟨rfl, .inr ⟨_, hd, hnow, ⟨due, approved, _, hb, low⟩, by simp [Host.record]⟩⟩
    | charged => exact absurd rfl h
  · rw [invokeBatch, invoke, Tx.commit_of_fails (fails_run_batch.2 hf)]
    exact ⟨rfl, .inl rfl⟩

end Outcomes

/-! ### Comparison -/

section Comparison

variable {H : Host Address Hash World Op} {env : Env Address} {σ : State Address Hash World}
  {s m token : Address} {d : SubscriptionData Address}

omit [DecidableEq Hash] in
/-- What a record settles to does not depend on its pause. -/
theorem settles_resumed_iff {now : ℕ} :
    Settles H env σ s m (d.resumed now) ↔ Settles H env σ s m d :=
  exists_congr fun _ => exists_congr fun _ => by simp only [charge_iff, Approved, Funded,
    SubscriptionData.resumed]

/-- Where the batch charges a record, the paths agree exactly when the record is not paused, has no
marker for its nonce, and has one for the next. -/
theorem pathsAgree_of_settles (hauth : H.authorizes env m = true) (hnow : 0 < env.timestamp)
    (hr : H.record σ s m = some d) (due : d.nextPayment ≤ env.timestamp)
    (hsettles : Settles H env σ s m d) :
    PathsAgree H env σ s m token ↔ d.isPaused = false ∧
      σ.hasExecutionMarker (H.subscriptionKey s m) d.paymentNonce = false ∧
      σ.hasExecutionMarker (H.subscriptionKey s m) (d.paymentNonce + 1) = true := by
  have hbatch : (invokeBatch H env σ s m token).1 = .ok (.reports [(s, true)]) :=
    (batch_charges_iff hauth).2 ⟨hnow, d, hr, due, hsettles⟩
  obtain ⟨w, fees, hcharge⟩ := hsettles
  obtain ⟨hsub, hmark, htok⟩ := batch_after_charge token hauth hnow hr due hcharge
  constructor
  · intro hagree
    have hexecute := hagree.succeed_iff.1 hbatch
    obtain ⟨hsubs, hmarks, -⟩ := hagree.on_success hbatch hexecute
    obtain ⟨-, d₀, d', hr₀, hd', due', hmarker, w', fees', hcharge'⟩ :=
      (execute_charges_iff hauth).1 hexecute
    obtain rfl := Option.some.inj (hr.symm.trans hr₀)
    obtain ⟨hsub', hmark', -⟩ :=
      execute_after_charge token hauth hnow hr hd' due' hmarker hcharge'
    rcases hd' with ⟨hactive, rfl⟩ | ⟨hpaused, -, -, rfl⟩
    · refine ⟨hactive, hmarker, ?_⟩
      have := congrFun (congrFun (hmark.symm.trans (hmarks.trans hmark'))
        (H.subscriptionKey s m)) (d.paymentNonce + 1)
      simpa [State.hasExecutionMarker] using this
    · have := congrFun (hsub.symm.trans (hsubs.trans hsub')) (H.subscriptionKey s m)
      simp [SubscriptionData.collected, SubscriptionData.resumed, hpaused] at this
  · rintro ⟨hactive, hmarker, hnext⟩
    have hunpaused : d.Unpaused env.timestamp d := .inl ⟨hactive, rfl⟩
    have hexecute : (invokeExecute H env σ s m token).1 = .ok .done :=
      (execute_charges_iff hauth).2 ⟨hnow, d, d, hr, hunpaused, due, hmarker, w, fees, hcharge⟩
    obtain ⟨hsub', hmark', htok'⟩ :=
      execute_after_charge token hauth hnow hr hunpaused due hmarker hcharge
    refine ⟨iff_of_true hbatch hexecute, fun _ _ => ⟨by rw [hsub, hsub'], ?_, by rw [htok, htok'],
      by rw [htok, htok']⟩, fun h => absurd hbatch h⟩
    rw [hmark, hmark']
    funext hash nonce
    simp only [State.writeExecutionMarker_executionMarkers]
    split_ifs with hkey
    · obtain ⟨rfl, rfl⟩ := hkey
      exact hnext
    · rfl

/-- Where neither path charges, they agree unless the batch marks the record for the first time. -/
theorem pathsAgree_of_failure
    (hbatch : (invokeBatch H env σ s m token).1 ≠ .ok (.reports [(s, true)]))
    (hexecute : (invokeExecute H env σ s m token).1 ≠ .ok .done)
    (hmark : ∀ d, H.record σ s m = some d → 0 < env.timestamp →
      ¬ (Underfunded H env σ s d ∧ d.overdueSince = none)) : PathsAgree H env σ s m token := by
  refine ⟨iff_of_false hbatch hexecute, fun h => absurd h hbatch, fun _ _ => ?_⟩
  obtain ⟨htok, hrecord⟩ := batch_after_failure hbatch
  rw [execute_after_failure hexecute, htok]
  refine ⟨?_, rfl⟩
  rcases hrecord with hsame | ⟨d, hr, hnow, hunder, hmarked⟩
  · exact hsame
  · rcases hsince : d.overdueSince with _ | t
    · exact absurd ⟨hunder, hsince⟩ (hmark d hr hnow)
    · rw [hmarked, hr, SubscriptionData.overdue, hsince, Option.getD_some, ← hsince]

/-- Where the batch does not charge a record, the paths agree exactly when the batch does not mark
it for the first time and the single path does not resume and charge it. -/
theorem pathsAgree_of_not_settles (hauth : H.authorizes env m = true) (hnow : 0 < env.timestamp)
    (hr : H.record σ s m = some d)
    (hsettles : ¬ (d.nextPayment ≤ env.timestamp ∧ Settles H env σ s m d)) :
    PathsAgree H env σ s m token ↔
      ¬ (Underfunded H env σ s d ∧ d.overdueSince = none) ∧ ¬ ResumesDue H env σ s m d := by
  have hbatch : (invokeBatch H env σ s m token).1 ≠ .ok (.reports [(s, true)]) := by
    intro h
    obtain ⟨-, d', hr', h⟩ := (batch_charges_iff hauth).1 h
    obtain rfl := Option.some.inj (hr.symm.trans hr')
    exact hsettles h
  have hexecute_iff : (invokeExecute H env σ s m token).1 = .ok .done ↔
      ResumesDue H env σ s m d := by
    rw [execute_charges_iff hauth]
    constructor
    · rintro ⟨-, d₀, d', hr₀, hd', due', hmarker, hsettles'⟩
      obtain rfl := Option.some.inj (hr.symm.trans hr₀)
      rcases hd' with ⟨-, rfl⟩ | ⟨hpaused, helapsed, -, rfl⟩
      · exact absurd ⟨due', hsettles'⟩ hsettles
      · rw [SubscriptionData.resumed_nextPayment] at due'
        exact ⟨hpaused, helapsed, by omega, hmarker, settles_resumed_iff.1 hsettles'⟩
    · rintro ⟨hpaused, helapsed, hzero, hmarker, hsettles'⟩
      obtain ⟨w, fees, hcharge⟩ := hsettles'
      refine ⟨hnow, d, d.resumed env.timestamp, hr,
        .inr ⟨hpaused, helapsed, hcharge.next_fits, rfl⟩, ?_, hmarker,
        settles_resumed_iff.2 ⟨w, fees, hcharge⟩⟩
      simp [hzero]
  constructor
  · intro hagree
    have hexecute := fun h => hbatch (hagree.succeed_iff.2 h)
    refine ⟨fun ⟨hunder, hsince⟩ => ?_, fun h => hexecute (hexecute_iff.2 h)⟩
    obtain ⟨hsame, -⟩ := hagree.on_failure hbatch hexecute
    rw [batch_marks_overdue hauth hnow hr hunder, execute_after_failure hexecute, hr] at hsame
    have := congrArg SubscriptionData.overdueSince (Option.some.inj hsame)
    simp [hsince] at this
  · rintro ⟨hmark, hresume⟩
    refine pathsAgree_of_failure hbatch (fun h => hresume (hexecute_iff.1 h)) fun d' hr' _ => ?_
    obtain rfl := Option.some.inj (hr.symm.trans hr')
    exact hmark

/-- **When the payment paths agree.** -/
theorem pathsAgree_iff (hauth : H.authorizes env m = true) :
    PathsAgree H env σ s m token ↔ AgreementCondition H env σ s m := by
  rcases Nat.eq_zero_or_pos env.timestamp with hzero | hnow
  · have hbatch : (invokeBatch H env σ s m token).1 ≠ .ok (.reports [(s, true)]) := fun h =>
      absurd ((batch_charges_iff hauth).1 h).1 (by omega)
    have hexecute : (invokeExecute H env σ s m token).1 ≠ .ok .done := fun h =>
      absurd ((execute_charges_iff hauth).1 h).1 (by omega)
    exact iff_of_true (pathsAgree_of_failure hbatch hexecute fun _ _ h => absurd h (by omega))
      fun _ _ h => absurd h (by omega)
  rcases hr : H.record σ s m with _ | d
  · have hbatch : (invokeBatch H env σ s m token).1 ≠ .ok (.reports [(s, true)]) := fun h => by
      obtain ⟨-, d, hd, -⟩ := (batch_charges_iff hauth).1 h
      simp [hr] at hd
    have hexecute : (invokeExecute H env σ s m token).1 ≠ .ok .done := fun h => by
      obtain ⟨-, d, -, hd, -⟩ := (execute_charges_iff hauth).1 h
      simp [hr] at hd
    exact iff_of_true (pathsAgree_of_failure hbatch hexecute fun d hd => by simp [hr] at hd)
      fun d hd => by simp [hr] at hd
  · have hcondition : AgreementCondition H env σ s m ↔
        (¬ (d.nextPayment ≤ env.timestamp ∧ Settles H env σ s m d) ∧
          ¬ (Underfunded H env σ s d ∧ d.overdueSince = none) ∧ ¬ ResumesDue H env σ s m d) ∨
        (d.nextPayment ≤ env.timestamp ∧ Settles H env σ s m d ∧ d.isPaused = false ∧
          σ.hasExecutionMarker (H.subscriptionKey s m) d.paymentNonce = false ∧
          σ.hasExecutionMarker (H.subscriptionKey s m) (d.paymentNonce + 1) = true) :=
      ⟨fun h => h d hr hnow, fun h d' hr' _ => by rwa [← Option.some.inj (hr.symm.trans hr')]⟩
    rw [hcondition]
    by_cases hsettles : d.nextPayment ≤ env.timestamp ∧ Settles H env σ s m d
    · rw [pathsAgree_of_settles hauth hnow hr hsettles.1 hsettles.2]
      exact ⟨fun h => .inr ⟨hsettles.1, hsettles.2, h⟩,
        fun h => h.elim (fun h => absurd hsettles h.1) fun h => h.2.2⟩
    · rw [pathsAgree_of_not_settles hauth hnow hr hsettles]
      exact ⟨fun h => .inl ⟨hsettles, h⟩,
        fun h => h.elim (fun h => h.2) fun h => absurd ⟨h.1, h.2.1⟩ hsettles⟩

end Comparison

/-- On the first payment of a subscription both paths charge, and only the single path leaves an
execution marker. -/
theorem not_pathsAgree_sample :
    ¬ PathsAgree sampleHost (sampleEnv 86401) sampleSubscribed 1 2 9 := by
  intro hagree
  obtain ⟨-, hmarks, -⟩ := hagree.on_success (by decide +kernel) (by decide +kernel)
  exact absurd (congrFun (congrFun hmarks [1, 2]) 1) (by decide +kernel)

theorem pathsAgree_iff_sample :
    PathsAgree sampleHost (sampleEnv 86401) sampleSubscribed 1 2 9 ↔
      AgreementCondition sampleHost (sampleEnv 86401) sampleSubscribed 1 2 :=
  pathsAgree_iff (by decide)

end SorobanPay
