import SorobanPay.Contract.Frame
import SorobanPay.Foundation.Listing
import SorobanPay.Lifecycle.Record
import SorobanPay.Payments.PathAgreement

/-!
# Since when a subscription is overdue

`overdue_since` is to be the time at which the balance was first found below the amount, since the
subscription was opened or last collected. Both payment paths write it when they find this. But
`execute_payment` then returns an error, so that the host undoes what it has written, and so does a
batch that aborts at a later entry.

The attempts that found the balance below the amount are kept beside the states of a run, whether
they were undone or not. A transfer takes those of a pair along to the new pair.

## Main definitions

* `findsShort`, `Call.shortAttempts`: the attempts that find the balance below the amount.
* `attempts`: those of a run since a pair was opened or collected.
* `OverdueKept`: `overdue_since` is the time of the first of them.
* `ExecuteFindsShort`, `EntriesAbort`: where `execute_payment` fails for the balance, and where a
  batch aborts.
* `Step.UndoesMark`: a step in which the first of the attempts is undone.

## Main results

* `fails_transferFailed_iff`, `fails_batchExecutePayment_iff`: which attempts are undone.
* `overdue_kept_iff`: when `overdue_since` is right in all states of a run.
* `not_overdueKept_executed`: where it is not.
-/

set_option autoImplicit false

namespace SorobanPay

open Foundation SubscriptionData

variable {Address Hash World Op : Type} [DecidableEq Address] [DecidableEq Hash]

/-! ### Attempts -/

section Attempts

variable (H : Host Address Hash World Op)

omit [DecidableEq Address] [DecidableEq Hash] in
/-- The record of a pair is due, the allowance covers its amount, and the balance does not. -/
def findsShort (env : Env Address) (σ : State Address Hash World) (s m : Address) : Bool :=
  match H.record σ s m with
  | none => false
  | some d => d.nextPayment ≤ env.timestamp &&
      (H.tokens.allowance σ.tokens d.token s H.currentContractAddress).any (d.amount ≤ ·) &&
      (H.tokens.balance σ.tokens d.token s).any (· < d.amount)

/-- The subscribers for whom the entries of a batch find the balance below the amount, up to the
entry at which it aborts. -/
def shortEntries (env : Env Address) (config : Option (ProtocolFeeConfig Address)) (m : Address) :
    State Address Hash World → List Address → List Address
  | _, [] => []
  | σ, s :: subscribers =>
    match (batchEntry H env config env.timestamp m s).run σ with
    | (.ok _, τ) =>
      (if findsShort H env σ s m then [s] else []) ++ shortEntries env config m τ subscribers
    | (.error _, _) => []

/-- The times of the attempts for a pair that a call makes, and that find the balance below the
amount. -/
def Call.shortAttempts (env : Env Address) (σ : State Address Hash World) (s m : Address) :
    Call Address → List ℕ
  | .executePayment s' m' token =>
    if (s' = s ∧ m' = m) ∧
        ((SorobanPay.executePayment H env s m token).run σ).1 = .error (.error .transferFailed) then
      [env.timestamp]
    else []
  | .batchExecutePayment m' _ subscribers =>
    if m' = m ∧ H.authorizes env m = true ∧ subscribers ≠ [] ∧
        subscribers.length ≤ batchMaxSize ∧ 0 < env.timestamp then
      ((shortEntries H env σ.protocolFee m
        (σ.publish (.batchExecuteInitiated m subscribers.length)) subscribers).filter (· = s)).map
          fun _ => env.timestamp
    else []
  | _ => []

/-- The times of the attempts for the pairs after a micro-step: a subscription that is opened or
collected begins anew. -/
def MicroStep.attempt (trail : Address → Address → List ℕ) (μ : MicroStep Address Hash World Op)
    (s m : Address) : List ℕ :=
  match μ.deed with
  | .applied (.subscribe s' m' ..) => if s' = s ∧ m' = m then [] else trail s m
  | .applied (.transferSubscription s' old new) =>
    if s' = s ∧ new = m then trail s old else trail s m
  | .executed s' m' | .entry s' m' true => if s' = s ∧ m' = m then [] else trail s m
  | .entry s' m' false =>
    if (s' = s ∧ m' = m) ∧ findsShort H μ.env μ.before s m = true then
      trail s m ++ [μ.env.timestamp]
    else trail s m
  | .reverted call => trail s m ++ call.shortAttempts H μ.env μ.before s m
  | _ => trail s m

/-- The times of the attempts that found the balance of the subscriber of a pair below the amount,
since the subscription was opened or last collected. -/
def attempts (μs : List (MicroStep Address Hash World Op)) : Address → Address → List ℕ :=
  μs.foldl (MicroStep.attempt H) fun _ _ => []

omit [DecidableEq Address] [DecidableEq Hash] in
/-- Every record is overdue since the first of its attempts. -/
def TracksOverdue (σ : State Address Hash World) (trail : Address → Address → List ℕ) :
    Prop :=
  ∀ s m d, H.record σ s m = some d → d.overdueSince = (trail s m).head?

/-- Every record is overdue since the first attempt that found the balance below its amount. -/
def OverdueKept (σ : State Address Hash World) (μs : List (MicroStep Address Hash World Op)) :
    Prop :=
  ∀ s m d, H.record σ s m = some d → d.overdueSince = (attempts H μs s m).head?

/-- An invocation fails that finds the balance below the amount of a record that is not overdue. -/
def MicroStep.UndoesMark (μ : MicroStep Address Hash World Op) : Prop :=
  ∃ call s m d, μ.deed = .reverted call ∧ H.record μ.before s m = some d ∧
    d.overdueSince = none ∧ call.shortAttempts H μ.env μ.before s m ≠ []

omit [DecidableEq Address] [DecidableEq Hash] in
/-- `execute_payment` gets as far as the balance, and the balance is short: the record is unpaused
or can be resumed, and then due, not marked as executed, and approved. -/
def ExecuteFindsShort (env : Env Address) (σ : State Address Hash World) (s m : Address) : Prop :=
  H.authorizes env m = true ∧ ∃ d₀, H.record σ s m = some d₀ ∧ 0 < env.timestamp ∧
    ∃ d, d₀.Unpaused env.timestamp d ∧ d.nextPayment ≤ env.timestamp ∧
      σ.hasExecutionMarker (H.subscriptionKey s m) d.paymentNonce = false ∧
      ∃ a, H.tokens.allowance σ.tokens d.token s H.currentContractAddress = some a ∧
        d.amount ≤ a ∧ ∃ b, H.tokens.balance σ.tokens d.token s = some b ∧ b < d.amount

omit [DecidableEq Address] [DecidableEq Hash] in
/-- The states in which an entry of a batch aborts: the record is due, and the token does not tell
the allowance, or the balance of an approved payment, or the payment is approved and funded and
cannot be made. -/
def EntryAborts (env : Env Address) (config : Option (ProtocolFeeConfig Address))
    (σ : State Address Hash World) (s m : Address) : Prop :=
  ∃ d, H.record σ s m = some d ∧ d.nextPayment ≤ env.timestamp ∧
    (H.tokens.allowance σ.tokens d.token s H.currentContractAddress = none ∨
      Approved H σ s d ∧ (H.tokens.balance σ.tokens d.token s = none ∨
        Funded H σ s d ∧ ¬ ∃ w fees, Charge H env config σ s m d w fees))

/-- Some entry of a batch aborts. -/
def EntriesAbort (env : Env Address) (config : Option (ProtocolFeeConfig Address)) (m : Address) :
    State Address Hash World → List Address → Prop
  | _, [] => False
  | σ, s :: subscribers => EntryAborts H env config σ s m ∨
      ∃ charged τ, EntryStep H env config s m σ charged τ ∧ EntriesAbort env config m τ subscribers

/-- The guards of `batch_execute_payment`. -/
def PassesGuards (env : Env Address) (m : Address) (subscribers : List Address) : Prop :=
  H.authorizes env m = true ∧ subscribers ≠ [] ∧ subscribers.length ≤ batchMaxSize ∧
    0 < env.timestamp

/-- The step undoes the first mark of a record that is not overdue: it is an `execute_payment` that
finds the balance below its amount, or a batch that does so at an entry and aborts at a later one.
-/
def Step.UndoesMark (σ : State Address Hash World) (step : Step Address Hash Op) : Prop :=
  ∃ s m d, H.record σ s m = some d ∧ d.overdueSince = none ∧
    ((∃ token, step.action = .invoke (.executePayment s m token) ∧
        ExecuteFindsShort H step.env σ s m) ∨
      ∃ token subscribers, step.action = .invoke (.batchExecutePayment m token subscribers) ∧
        PassesGuards H step.env m subscribers ∧
        s ∈ shortEntries H step.env σ.protocolFee m
          (σ.publish (.batchExecuteInitiated m subscribers.length)) subscribers ∧
        EntriesAbort H step.env σ.protocolFee m
          (σ.publish (.batchExecuteInitiated m subscribers.length)) subscribers)

end Attempts

section Specs

variable {H : Host Address Hash World Op} {env : Env Address} {σ σ' : State Address Hash World}
  {s m token : Address}

omit [DecidableEq Address] [DecidableEq Hash] in
theorem findsShort_iff :
    findsShort H env σ s m = true ↔ ∃ d, H.record σ s m = some d ∧ Underfunded H env σ s d := by
  unfold findsShort Underfunded Approved
  rcases H.record σ s m with _ | d
  · simp
  · simp [and_assoc, Option.any_eq_true]

/-- **When `execute_payment` finds the balance below the amount.** -/
theorem fails_transferFailed_iff :
    (executePayment H env s m token).Fails σ (.error .transferFailed) ↔
      ExecuteFindsShort H env σ s m := by
  have hclear : ∀ d : SubscriptionData Address,
      ¬ (clearElapsedPause env.timestamp d : Contract Address Hash World _).Fails σ
        (.error .transferFailed) := by
    intro d h
    rcases fails_clearElapsedPause h with h | h <;> cases h
  simp [executePayment, requireAuth, loadSubscription, ledgerTimestamp, tokenAllowance,
    tokenBalance, storeSubscription, returns_clearElapsedPause, hclear, not_fails_payOut,
    Host.record, and_assoc, Nat.pos_iff_ne_zero, ExecuteFindsShort]

/-- An entry of a batch ends in one of the five ways, or aborts. -/
theorem entryAborts_iff {config : Option (ProtocolFeeConfig Address)} :
    EntryAborts H env config σ s m ↔ ∀ charged σ', ¬ EntryStep H env config s m σ charged σ' := by
  constructor
  · rintro ⟨d, hr, due, haborts⟩ charged σ' hentry
    cases hentry with
    | absent hr' => cases hr.symm.trans hr'
    | notDue hr' early =>
      obtain rfl := Option.some.inj (hr.symm.trans hr')
      exact early.not_ge due
    | lowAllowance hr' _ ha low =>
      obtain rfl := Option.some.inj (hr.symm.trans hr')
      rcases haborts with hnone | ⟨⟨a, ha', hle⟩, -⟩
      · cases hnone.symm.trans ha
      · obtain rfl := Option.some.inj (ha.symm.trans ha')
        exact low.not_ge hle
    | underfunded hr' _ approved hb low =>
      obtain rfl := Option.some.inj (hr.symm.trans hr')
      obtain ⟨a, ha, -⟩ := approved
      rcases haborts with hnone | ⟨-, hnone | ⟨⟨b, hb', hle⟩, -⟩⟩
      · cases hnone.symm.trans ha
      · cases hnone.symm.trans hb
      · obtain rfl := Option.some.inj (hb.symm.trans hb')
        exact low.not_ge hle
    | charged hr' _ charge =>
      obtain rfl := Option.some.inj (hr.symm.trans hr')
      obtain ⟨a, ha, -⟩ := charge.approved
      obtain ⟨b, hb, -⟩ := charge.funded
      rcases haborts with hnone | ⟨-, hnone | ⟨-, hnone⟩⟩
      · cases hnone.symm.trans ha
      · cases hnone.symm.trans hb
      · exact hnone ⟨_, _, charge⟩
  · intro hnone
    rcases hr : H.record σ s m with _ | d
    · exact absurd (.absent hr) (hnone _ _)
    rcases lt_or_ge env.timestamp d.nextPayment with early | due
    · exact absurd (.notDue hr early) (hnone _ _)
    refine ⟨d, hr, due, ?_⟩
    rcases ha : H.tokens.allowance σ.tokens d.token s H.currentContractAddress with _ | a
    · exact .inl rfl
    rcases lt_or_ge a d.amount with low | happroved
    · exact absurd (.lowAllowance hr due ha low) (hnone _ _)
    have approved : Approved H σ s d := ⟨a, ha, happroved⟩
    refine .inr ⟨approved, ?_⟩
    rcases hb : H.tokens.balance σ.tokens d.token s with _ | b
    · exact .inl rfl
    rcases lt_or_ge b d.amount with low | hfunded
    · exact absurd (.underfunded hr due approved hb low) (hnone _ _)
    · exact .inr ⟨⟨b, hb, hfunded⟩, fun ⟨w, fees, charge⟩ => hnone _ _ (.charged hr due charge)⟩

theorem fails_batchEntry_iff {config : Option (ProtocolFeeConfig Address)} :
    (∃ e, (batchEntry H env config env.timestamp m s).Fails σ e) ↔
      EntryAborts H env config σ s m := by
  rw [Tx.exists_fails_iff, entryAborts_iff]
  simp only [returns_batchEntry]

/-- The loop of a batch aborts if an entry does. -/
theorem fails_batchLoop_iff {config : Option (ProtocolFeeConfig Address)}
    {subscribers : List Address} :
    (∃ e, (batchLoop H env config env.timestamp m subscribers).Fails σ e) ↔
      EntriesAbort H env config m σ subscribers := by
  induction subscribers generalizing σ with
  | nil => simp [batchLoop, EntriesAbort]
  | cons s subscribers ih =>
    simp only [EntriesAbort, ← ih, ← fails_batchEntry_iff, ← returns_batchEntry]
    simp only [batchLoop, Tx.fails_bind, Tx.fails_pure, and_false, exists_false, or_false,
      exists_or]
    refine or_congr_right ⟨?_, ?_⟩
    · rintro ⟨e, charged, τ, hr, hf⟩
      exact ⟨charged, τ, hr, e, hf⟩
    · rintro ⟨charged, τ, hr, e, hf⟩
      exact ⟨e, charged, τ, hr, hf⟩

/-- A batch that passes the guards aborts if an entry does. -/
theorem fails_batchExecutePayment_iff {subscribers : List Address}
    (hguards : PassesGuards H env m subscribers) :
    (∃ e, (batchExecutePayment H env m token subscribers).Fails σ e) ↔
      EntriesAbort H env σ.protocolFee m
        (σ.publish (.batchExecuteInitiated m subscribers.length)) subscribers := by
  obtain ⟨hauth, hne, hlen, hnow⟩ := hguards
  rw [← fails_batchLoop_iff, Tx.exists_fails_iff, Tx.exists_fails_iff]
  simp only [returns_batchExecutePayment, hauth, hlen, hnow, true_and, ne_eq, hne,
    not_false_eq_true]

end Specs

/-! ### One micro-step -/

section MicroSteps

variable {H : Host Address Hash World Op} {env : Env Address} {σ σ' : State Address Hash World}
  {trail : Address → Address → List ℕ} {s m : Address} {μ : MicroStep Address Hash World Op}

omit [DecidableEq Address] in
/-- The record of a pair is rewritten, and is overdue since the same time. -/
theorem TracksOverdue.of_update [DecidableEq Address] (hkey : H.KeysInjective)
    (h : TracksOverdue H σ trail) {d d' : SubscriptionData Address} (hd : H.record σ s m = some d)
    (hsince : d'.overdueSince = d.overdueSince) :
    TracksOverdue H (σ.setSubscription (H.subscriptionKey s m) d') trail := by
  intro s' m' d₀ hd₀
  rw [Host.record_setSubscription hkey] at hd₀
  split_ifs at hd₀ with hpair
  · obtain ⟨rfl, rfl⟩ := hpair
    obtain rfl := Option.some.inj hd₀
    rw [hsince]
    exact h _ _ d hd
  · exact h s' m' d₀ hd₀

/-- The record of a pair begins anew. -/
theorem TracksOverdue.of_reset (hkey : H.KeysInjective) (h : TracksOverdue H σ trail)
    {d : SubscriptionData Address} (hsince : d.overdueSince = none)
    (hrecord : H.record σ' = H.record (σ.setSubscription (H.subscriptionKey s m) d)) :
    TracksOverdue H σ' fun s' m' => if s = s' ∧ m = m' then [] else trail s' m' := by
  intro s' m' d₀ hd₀
  change d₀.overdueSince = (if s = s' ∧ m = m' then [] else trail s' m').head?
  rw [hrecord, Host.record_setSubscription hkey] at hd₀
  by_cases hpair : s' = s ∧ m' = m
  · obtain ⟨rfl, rfl⟩ := hpair
    rw [if_pos ⟨rfl, rfl⟩] at hd₀ ⊢
    obtain rfl := Option.some.inj hd₀
    exact hsince
  · rw [if_neg hpair] at hd₀
    rw [if_neg fun hback => hpair ⟨hback.1.symm, hback.2.symm⟩]
    exact h s' m' d₀ hd₀

/-- Calls outside the payment paths. -/
theorem TracksOverdue.applied (hkey : H.KeysInjective) (h : TracksOverdue H σ trail)
    {call : Call Address} {reply : Reply Address} (plain : call.IsPlain)
    (hr : (call.run H env).Returns σ reply σ') :
    TracksOverdue H σ'
      ((⟨env, σ, .applied call, σ'⟩ : MicroStep Address Hash World Op).attempt H trail) := by
  cases call with
  | init | setMaxAmount | migrate | setProtocolFee =>
    intro s m d hd
    rw [Call.record_of_administration hr trivial] at hd
    exact h s m d hd
  | subscribe s m token amount interval strict gracePeriod =>
    exact h.of_reset hkey rfl (record_subscribe (Tx.returns_bind_const.1 hr).1)
  | updateSubscription s m amount interval =>
    obtain ⟨-, d, hd, -, -, rfl⟩ := returns_updateSubscription.1 (Tx.returns_bind_const.1 hr).1
    exact h.of_update hkey hd rfl
  | pauseSubscription s m token resumeAt =>
    obtain ⟨-, d, hd, -, -, rfl⟩ := returns_pauseSubscription.1 (Tx.returns_bind_const.1 hr).1
    exact h.of_update hkey hd rfl
  | resumeSubscription s m token =>
    obtain ⟨-, d, hd, -, -, rfl⟩ := returns_resumeSubscription.1 (Tx.returns_bind_const.1 hr).1
    exact h.of_update hkey hd rfl
  | cancel s m token =>
    have hrecord := record_cancel (Tx.returns_bind_const.1 hr).1
    intro s' m' d hd
    rw [hrecord, Host.record_removeSubscription hkey] at hd
    split_ifs at hd
    exact h s' m' d hd
  | transferSubscription s old new =>
    obtain ⟨-, -, hne, -, d₀, hold, -, rfl⟩ :=
      returns_transferSubscription.1 (Tx.returns_bind_const.1 hr).1
    intro s' m' d hd
    simp only [Host.record_publish, Host.record_indexAdd, Host.record_indexRemove,
      Host.record_removeSubscription hkey, Host.record_setSubscription hkey] at hd
    simp only [MicroStep.attempt]
    split_ifs at hd with hout hin
    · obtain ⟨rfl, rfl⟩ := hin
      obtain rfl := Option.some.inj hd
      rw [if_pos ⟨rfl, rfl⟩]
      exact h s' old d₀ hold
    · rw [if_neg fun h => hin ⟨h.1.symm, h.2.symm⟩]
      exact h s' m' d hd
  | executePayment | batchExecutePayment => exact plain.elim

omit [DecidableEq Address] [DecidableEq Hash] in
/-- A record is marked at the first attempt that finds the balance below its amount. -/
theorem overdue_overdueSince_eq {d : SubscriptionData Address} {l : List ℕ} {now : ℕ}
    (h : d.overdueSince = l.head?) : (d.overdue now).overdueSince = (l ++ [now]).head? := by
  rw [overdue_overdueSince, h]
  cases l <;> rfl

theorem MicroStep.attempt_entry_of_not_short (h : ¬ findsShort H env σ s m = true) :
    (⟨env, σ, .entry s m false, σ'⟩ : MicroStep Address Hash World Op).attempt H trail = trail := by
  funext s' m'
  refine if_neg ?_
  rintro ⟨⟨rfl, rfl⟩, hshort⟩
  exact h hshort

/-- Entries of batches that return. -/
theorem TracksOverdue.entry (hkey : H.KeysInjective) (h : TracksOverdue H σ trail) {charged : Bool}
    (hentry : EntryStep H env σ.protocolFee s m σ charged σ') :
    TracksOverdue H σ'
      ((⟨env, σ, .entry s m charged, σ'⟩ : MicroStep Address Hash World Op).attempt H trail) := by
  cases hentry with
  | absent hr =>
    rw [MicroStep.attempt_entry_of_not_short]
    · exact h
    · rw [findsShort_iff, hr]
      rintro ⟨d, hd, -⟩
      cases hd
  | notDue hr early =>
    rw [MicroStep.attempt_entry_of_not_short]
    · exact h
    · rw [findsShort_iff]
      rintro ⟨d, hd, due, -⟩
      obtain rfl := Option.some.inj (hr.symm.trans hd)
      exact early.not_ge due
  | lowAllowance hr due ha low =>
    rw [MicroStep.attempt_entry_of_not_short]
    · exact h
    · rw [findsShort_iff]
      rintro ⟨d, hd, -, ⟨a, ha', hle⟩, -⟩
      obtain rfl := Option.some.inj (hr.symm.trans hd)
      obtain rfl := Option.some.inj (ha.symm.trans ha')
      exact low.not_ge hle
  | @underfunded d b hr due approved hb low =>
    have hshort : findsShort H env σ s m = true :=
      findsShort_iff.2 ⟨d, hr, due, approved, b, hb, low⟩
    intro s' m' d₀ hd₀
    rw [Host.record_publish, Host.record_setSubscription hkey] at hd₀
    simp only [MicroStep.attempt]
    by_cases hpair : s' = s ∧ m' = m
    · obtain ⟨rfl, rfl⟩ := hpair
      rw [if_pos ⟨rfl, rfl⟩] at hd₀
      rw [if_pos ⟨⟨rfl, rfl⟩, hshort⟩]
      obtain rfl := Option.some.inj hd₀
      exact overdue_overdueSince_eq (h _ _ d hr)
    · rw [if_neg hpair] at hd₀
      rw [if_neg fun hback => hpair ⟨hback.1.1.symm, hback.1.2.symm⟩]
      exact h s' m' d₀ hd₀
  | charged hr due charge => exact h.of_reset hkey rfl rfl

/-- Attempts that are undone are the first ones only where a mark is undone. -/
theorem TracksOverdue.reverted (h : TracksOverdue H σ trail) {call : Call Address} :
    TracksOverdue H σ
        ((⟨env, σ, .reverted call, σ⟩ : MicroStep Address Hash World Op).attempt H trail) ↔
      ¬ (⟨env, σ, .reverted call, σ⟩ : MicroStep Address Hash World Op).UndoesMark H := by
  constructor
  · rintro hafter ⟨call', s, m, d, hdeed, hd, hnone, hattempts⟩
    obtain rfl := Deed.reverted.inj hdeed
    have hbefore := h s m d hd
    have hhead := hafter s m d hd
    rw [hnone, eq_comm, List.head?_eq_none_iff] at hbefore hhead
    exact hattempts (List.append_eq_nil_iff.1 hhead).2
  · intro hmark s m d hd
    have hbefore := h s m d hd
    simp only [MicroStep.attempt]
    rcases hattempts : call.shortAttempts H env σ s m with _ | ⟨now, later⟩
    · rwa [List.append_nil]
    · have hne : trail s m ≠ [] := by
        intro hnil
        rw [hnil] at hbefore
        exact hmark ⟨call, s, m, d, rfl, hd, hbefore, by rw [hattempts]; exact List.cons_ne_nil _ _⟩
      rw [hbefore, List.head?_append_of_ne_nil _ hne]

/-- **What a micro-step keeps.** -/
theorem TracksOverdue.microStep (hkey : H.KeysInjective) (hμ : μ.Genuine H)
    (h : TracksOverdue H μ.before trail) (hmark : ¬ μ.UndoesMark H) :
    TracksOverdue H μ.after (μ.attempt H trail) := by
  cases hμ with
  | applied plain hr => exact h.applied hkey plain hr
  | executed hr =>
    obtain ⟨-, d₀, -, -, d, -, -, -, w, fees, -, rfl⟩ := returns_executePayment.1 hr
    exact h.of_reset hkey rfl rfl
  | entry auth hnow hentry => exact h.entry hkey hentry
  | reverted => exact h.reverted.2 hmark
  | opened | lapsed | external => exact h

end MicroSteps

/-! ### Runs -/

section Runs

variable {H : Host Address Hash World Op} {σ : State Address Hash World}
  {trail : Address → Address → List ℕ} {step : Step Address Hash Op}
  {steps : List (Step Address Hash Op)} {μs : List (MicroStep Address Hash World Op)}

/-- A step undoes a mark if it is an invocation that fails, and that finds the balance below the
amount of a record that is not overdue. -/
theorem undoesMark_iff :
    step.UndoesMark H σ ↔ ∃ call s m d, step.action = .invoke call ∧
      (∃ e, (call.run H step.env).Fails σ e) ∧ H.record σ s m = some d ∧ d.overdueSince = none ∧
      call.shortAttempts H step.env σ s m ≠ [] := by
  constructor
  · rintro ⟨s, m, d, hd, hnone, ⟨token, haction, hshort⟩ |
      ⟨token, subscribers, haction, hguards, hmem, haborts⟩⟩
    · have hf : (executePayment H step.env s m token).Fails σ (.error .transferFailed) :=
        fails_transferFailed_iff.2 hshort
      refine ⟨_, s, m, d, haction, ⟨_, Tx.fails_bind.2 (.inl hf)⟩, hd, hnone, ?_⟩
      rw [Call.shortAttempts, if_pos ⟨⟨rfl, rfl⟩, Tx.fails_iff.1 hf⟩]
      exact List.cons_ne_nil _ _
    · obtain ⟨e, hf⟩ : ∃ e, (batchExecutePayment H step.env m token subscribers).Fails σ e :=
        (fails_batchExecutePayment_iff hguards).2 haborts
      refine ⟨_, s, m, d, haction, ⟨e, fails_run_batch.2 hf⟩, hd, hnone, ?_⟩
      rw [Call.shortAttempts, if_pos ⟨rfl, hguards⟩, ne_eq, List.map_eq_nil_iff,
        List.filter_eq_nil_iff]
      exact fun hall => hall s hmem (decide_eq_true rfl)
  · rintro ⟨call, s, m, d, haction, ⟨e, hf⟩, hd, hnone, hattempts⟩
    refine ⟨s, m, d, hd, hnone, ?_⟩
    cases call with
    | executePayment s' m' token =>
      rw [Call.shortAttempts] at hattempts
      split_ifs at hattempts with hshort
      · obtain ⟨⟨rfl, rfl⟩, hfails⟩ := hshort
        exact .inl ⟨token, haction, fails_transferFailed_iff.1 (Tx.fails_iff.2 hfails)⟩
      · exact absurd rfl hattempts
    | batchExecutePayment m' token subscribers =>
      rw [Call.shortAttempts] at hattempts
      split_ifs at hattempts with hguards
      · obtain ⟨rfl, hguards⟩ := hguards
        have hmem : s ∈ shortEntries H step.env σ.protocolFee m'
            (σ.publish (.batchExecuteInitiated m' subscribers.length)) subscribers := by
          rw [ne_eq, List.map_eq_nil_iff, List.filter_eq_nil_iff] at hattempts
          by_contra hnot
          exact hattempts fun x hx heq => hnot (of_decide_eq_true heq ▸ hx)
        exact .inr ⟨token, subscribers, haction, hguards, hmem,
          (fails_batchExecutePayment_iff hguards).1 ⟨e, fails_run_batch.1 hf⟩⟩
      · exact absurd rfl hattempts
    | _ => exact absurd rfl hattempts

/-- A step that returns undoes nothing. -/
theorem not_undoesMark_of_ok {env : Env Address} {call : Call Address} (reply : Reply Address)
    (h : (invoke H env call σ).1 = .ok reply) :
    ¬ Step.UndoesMark H σ (⟨env, .invoke call⟩ : Step Address Hash Op) := by
  intro hmark
  obtain ⟨call', s, m, d, haction, ⟨e, hf⟩, -⟩ := undoesMark_iff.1 hmark
  obtain rfl := Action.invoke.inj haction
  exact hf.not_returns (returns_of_invoke h)

/-- What is undone in a step is what the step does. -/
theorem undoesMark_of_mem {μ : MicroStep Address Hash World Op} (hμ : μ ∈ microSteps H σ step)
    (h : μ.UndoesMark H) : step.UndoesMark H σ := by
  obtain ⟨call', s, m, d, hdeed, hd, hnone, hattempts⟩ := h
  obtain ⟨env, action⟩ := step
  cases action with
  | invoke call =>
    rcases (call.run H env).returns_or_fails σ with ⟨reply, τ, hr⟩ | ⟨e, hf⟩
    · rw [microSteps_of_returns hr] at hμ
      cases call with
      | batchExecutePayment m' token subscribers =>
        rcases List.mem_cons.1 hμ with rfl | hμ
        · cases hdeed
        · obtain ⟨-, s', charged, hentry⟩ := env_deed_of_mem_entrySteps hμ
          cases hentry.symm.trans hdeed
      | _ =>
        rw [List.mem_singleton.1 hμ] at hdeed
        cases hdeed
    · rw [microSteps_of_fails hf, List.mem_singleton] at hμ
      subst hμ
      obtain rfl := Deed.reverted.inj hdeed
      exact undoesMark_iff.2 ⟨call, s, m, d, rfl, ⟨e, hf⟩, hd, hnone, hattempts⟩
  | lapse expired =>
    rw [List.mem_singleton.1 hμ] at hdeed
    cases hdeed
  | external op =>
    rw [List.mem_singleton.1 hμ] at hdeed
    cases hdeed

/-- **What a step keeps.** -/
theorem TracksOverdue.step_iff (hkey : H.KeysInjective) (h : TracksOverdue H σ trail) :
    TracksOverdue H (next H σ step) ((microSteps H σ step).foldl (MicroStep.attempt H) trail) ↔
      ¬ step.UndoesMark H σ := by
  constructor
  · intro hafter hmark
    obtain ⟨call, s, m, d, haction, ⟨e, hf⟩, hd, hnone, hattempts⟩ := undoesMark_iff.1 hmark
    obtain ⟨env, action⟩ := step
    obtain rfl : action = .invoke call := haction
    rw [microSteps_of_fails hf, next_eq_of_fails hf] at hafter
    exact h.reverted.1 hafter ⟨call, s, m, d, rfl, hd, hnone, hattempts⟩
  · intro hmark
    refine (path_microSteps (H := H) σ step).fold (MicroStep.attempt H) (TracksOverdue H)
      (fun μ => ¬ μ.UndoesMark H) (fun τ trail μ τ' hτ hμ hl => ?_) h
      fun μ hμ hundoes => hmark (undoesMark_of_mem hμ hundoes)
    obtain ⟨rfl, rfl, hgen⟩ := hl
    exact hτ.microStep hkey hgen hμ

/-- **When `overdue_since` is right.** In a run from deployment, `overdue_since` of every record is
the time of the first attempt that found the balance below the amount, since the subscription was
opened or last collected, in all states reached, exactly if no step of the run undoes the first such
attempt. -/
theorem overdue_kept_iff (hkey : H.KeysInjective) {w : World} :
    (∀ pre post, steps = pre ++ post →
      OverdueKept H (after (next H) (State.deployed Address Hash w) pre)
        (microHistory H (State.deployed Address Hash w) pre)) ↔
      Along (next H) (fun σ step => ¬ step.UndoesMark H σ) (State.deployed Address Hash w)
        steps := by
  have hstart : OverdueKept H (State.deployed Address Hash w) [] := fun s m d hd => by cases hd
  have hstep : ∀ (τ : State Address Hash World × List (MicroStep Address Hash World Op)) step,
      OverdueKept H τ.1 τ.2 →
        (OverdueKept H (logged (next H) (microSteps H) τ step).1
            (logged (next H) (microSteps H) τ step).2 ↔ ¬ step.UndoesMark H τ.1) := by
    intro τ step hτ
    change TracksOverdue H (next H τ.1 step) (attempts H (τ.2 ++ microSteps H τ.1 step)) ↔ _
    rw [attempts, List.foldl_append]
    exact TracksOverdue.step_iff hkey hτ
  have hiff : Throughout (logged (next H) (microSteps H)) (fun τ => OverdueKept H τ.1 τ.2)
      (State.deployed Address Hash w, []) steps ↔
      Along (logged (next H) (microSteps H)) (fun τ step => ¬ step.UndoesMark H τ.1)
        (State.deployed Address Hash w, []) steps :=
    throughout_iff_along (fun τ => OverdueKept H τ.1 τ.2) (fun _ hτ => hτ)
      (fun τ step hτ hmark => (hstep τ step hτ).2 hmark)
      (fun τ step hτ hafter => (hstep τ step hτ).1 hafter) hstart
  refine Iff.trans ?_ (hiff.trans (along_logged (P := fun σ step => ¬ Step.UndoesMark H σ step)))
  simp only [Throughout, after_logged, List.nil_append]
  rfl

end Runs

/-- Two subscriptions of 600 a day, and a payment for the first of them, which leaves 400. -/
def samplePaid : List (Step UInt8 (List UInt8) (External UInt8)) :=
  [sampleStep 1 (.subscribe 1 2 9 600 86400 false none),
    sampleStep 1 (.subscribe 1 3 9 600 86400 false none),
    sampleStep 86401 (.executePayment 1 2 9)]

/-- An attempt of `execute_payment` for the second subscription is undone, and it is not overdue. -/
theorem not_overdueKept_executed :
    ¬ OverdueKept sampleHost
      (after (next sampleHost) sampleStart
        (samplePaid ++ [sampleStep 86402 (.executePayment 1 3 9)]))
      (microHistory sampleHost sampleStart
        (samplePaid ++ [sampleStep 86402 (.executePayment 1 3 9)])) := by
  intro h
  exact absurd (h 1 3 ⟨9, 600, 86400, 86401, false, 0, none, 0, none⟩ rfl) (by decide)

/-- A batch marks it. -/
theorem overdue_kept_sample :
    OverdueKept sampleHost
      (after (next sampleHost) sampleStart
        (samplePaid ++ [sampleStep 86402 (.batchExecutePayment 3 9 [1])]))
      (microHistory sampleHost sampleStart
        (samplePaid ++ [sampleStep 86402 (.batchExecutePayment 3 9 [1])])) := by
  have hmarks : Along (next sampleHost) (fun σ step => ¬ step.UndoesMark sampleHost σ) sampleStart
      (samplePaid ++ [sampleStep 86402 (.batchExecutePayment 3 9 [1])]) := by
    refine ⟨?_, ?_, ?_, ?_, trivial⟩
    · exact not_undoesMark_of_ok .done (by decide)
    · exact not_undoesMark_of_ok .done (by decide)
    · exact not_undoesMark_of_ok .done (by decide)
    · exact not_undoesMark_of_ok (.reports [(1, false)]) (by decide)
  exact (overdue_kept_iff sampleHost_keysInjective).2 hmarks _ [] (List.append_nil _).symm

end SorobanPay
