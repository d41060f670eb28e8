import SorobanPay.Contract.FeeSplit
import SorobanPay.Lifecycle.Refinement
import SorobanPay.Tokens.Ledger

/-!
# The replay guard of the single path

`execute_payment` refuses a record whose nonce has an execution marker, and after a payment it
writes a marker for the nonce of the new record, not for the one it has just used. The marker of
one period is therefore the one the next period looks for, and until it lapses the next period is
refused as a duplicate.

For a token that honours its transfers, the marker and the range of the timestamps are all that
can stand between a due and covered payment and its success (`executePayment_succeeds_iff`). The
marker is there exactly if a payment of the single path has left the pair with the nonce it has now
and the marker of this payment has not lapsed since (`marker_after_iff`); so these are the periods
that are refused, in any run (`replay_guard_iff`).

## Main definitions

* `HonoursTransfers`: a transfer covered by the balance goes through.
* `MicroStep.Marks`, `MicroStep.Unmarks`: what writes and what removes a marker.

## Main results

* `payment_of_honoursTransfers`: a covered payment goes through.
* `marker_after_iff`: the markers at the end of a run.
* `replay_guard_iff`: when a due and covered payment succeeds.
* `not_executePayment_second_period`: the second period is refused.
-/

set_option autoImplicit false

namespace SorobanPay

open Foundation

variable {Address Hash World Op : Type} [DecidableEq Address] [DecidableEq Hash]
  {H : Host Address Hash World Op} {env : Env Address} {σ : State Address Hash World}
  {s m token : Address}

omit [DecidableEq Hash] in
/-- The tokens honour the transfers of an invocation: a transfer covered by the balance goes
through, and the balance loses at most the amount. -/
def HonoursTransfers (H : Host Address Hash World Op) (env : Env Address) : Prop :=
  ∀ w token src dst amount b, H.tokens.balance w token src = some b → 0 ≤ amount → amount ≤ b →
    ∃ w' b', H.tokens.transfer (H.tokenAuthorization env) w token src dst amount = some w' ∧
      H.tokens.balance w' token src = some b' ∧ b - amount ≤ b'

omit [DecidableEq Hash] in
/-- A payment covered by the balance goes through when the tokens honour transfers. -/
theorem payment_of_honoursTransfers (htoken : HonoursTransfers H env)
    {config : Option (ProtocolFeeConfig Address)} {w : World} {amount b : ℤ}
    (hfee : ∀ cfg, config = some cfg → cfg.feeBps ≤ maxFeeBps)
    (hpos : 0 < amount) (hle : amount ≤ maxAmount) (hb : H.tokens.balance w token s = some b)
    (hcover : amount ≤ b) :
    ∃ w' fees, payment H env config w s m token amount = some (w', fees) := by
  refine exists_payment hpos hle hfee fun fee hnonneg hlt => ?_
  obtain ⟨w₁, b₁, htransfer, hb₁, hleft⟩ :=
    htoken w token s m (amount - fee) b hb (by omega) (by omega)
  refine ⟨w₁, htransfer, fun dst => ?_⟩
  obtain ⟨w₂, -, htransfer', -⟩ := htoken w₁ token s dst fee b₁ hb₁ hnonneg (by omega)
  exact ⟨w₂, htransfer'⟩

/-- **When a due payment succeeds.** In a reachable state, let the record of `(s, m)` be live,
unpaused and due, with allowance and balance at least its amount and a nonce that is not the last,
and let the tokens honour transfers. Then `execute_payment` succeeds exactly when there is no
execution marker for the nonce of the record and the next payment fits a `u64`. -/
theorem executePayment_succeeds_iff (hkey : H.KeysInjective) (hreach : Reachable H σ)
    (htoken : HonoursTransfers H env) (hauth : H.authorizes env m = true)
    {d : SubscriptionData Address} (hd : H.record σ s m = some d) (hactive : d.isPaused = false)
    (hdue : d.nextPayment ≤ env.timestamp) (happroved : Approved H σ s d)
    (hfunded : Funded H σ s d) (hnonce : d.paymentNonce < 2 ^ 32 - 1) :
    (∃ σ', (executePayment H env s m token).Returns σ () σ') ↔
      σ.hasExecutionMarker (H.subscriptionKey s m) d.paymentNonce = false ∧
        env.timestamp + d.interval < 2 ^ 64 := by
  have hσ := hreach.sound hkey
  have hwf := hσ.wellFormed s m d hd
  have hunpaused : d.Unpaused env.timestamp d := .inl ⟨hactive, rfl⟩
  constructor
  · rintro ⟨σ', h⟩
    obtain ⟨-, d₀, hd₀, -, d', hd', hdue', hmarker, w, fees, hcharge, -⟩ :=
      returns_executePayment.1 h
    obtain rfl := Option.some.inj (hd.symm.trans hd₀)
    obtain ⟨-, rfl⟩ := hd'.of_due hwf.interval_pos hdue'
    exact ⟨hmarker, hcharge.next_fits⟩
  · rintro ⟨hmarker, hnext⟩
    obtain ⟨b, hb, hcover⟩ := hfunded
    obtain ⟨w, fees, hpay⟩ := payment_of_honoursTransfers (m := m) htoken hσ.fee_le hwf.amount_pos
      hwf.amount_le hb hcover
    refine ⟨_, returns_executePayment.2 ⟨hauth, d, hd, hwf.next_pos.trans_le hdue, d, hunpaused,
      hdue, hmarker, w, fees, ⟨happroved, ⟨b, hb, hcover⟩, hpay, hnext, ?_⟩, rfl⟩⟩
    omega

/-! ### Markers in a run -/

section Markers

variable {μ : MicroStep Address Hash World Op} {n : ℕ}

omit [DecidableEq Address] [DecidableEq Hash] in
/-- A payment of the single path that leaves the pair with the nonce `n`. -/
def MicroStep.Marks (H : Host Address Hash World Op) (s m : Address) (n : ℕ)
    (μ : MicroStep Address Hash World Op) : Prop :=
  μ.deed = .executed s m ∧ ∃ d, H.record μ.after s m = some d ∧ d.paymentNonce = n

omit [DecidableEq Address] [DecidableEq Hash] in
/-- The end of the time-to-live of the marker of the pair for the nonce `n`. -/
def MicroStep.Unmarks (H : Host Address Hash World Op) (s m : Address) (n : ℕ)
    (μ : MicroStep Address Hash World Op) : Prop :=
  ∃ expired, μ.deed = .lapsed expired ∧ expired (H.subscriptionKey s m) n = true

/-- The single path marks the nonce it leaves behind; only the end of its time-to-live removes a
marker. -/
theorem MicroStep.Genuine.marker_iff (hkey : H.KeysInjective) (hμ : μ.Genuine H) :
    μ.after.hasExecutionMarker (H.subscriptionKey s m) n = true ↔
      μ.Marks H s m n ∨
        μ.before.hasExecutionMarker (H.subscriptionKey s m) n = true ∧ ¬ μ.Unmarks H s m n := by
  cases hμ with
  | applied plain h =>
    simp [MicroStep.Marks, MicroStep.Unmarks, State.hasExecutionMarker,
      (Call.frame plain h).executionMarkers]
  | @executed _ _ _ s' m' _ h =>
    obtain ⟨-, d₀, -, -, d, -, -, -, w, fees, -, rfl⟩ := returns_executePayment.1 h
    -- the source marks the incremented nonce, which is the one the record has now
    by_cases hpair : s' = s ∧ m' = m
    · obtain ⟨rfl, rfl⟩ := hpair
      simp [MicroStep.Marks, MicroStep.Unmarks, State.hasExecutionMarker, State.settle,
        Host.record_setSubscription hkey, eq_comm (a := n)]
    · have hkeys : H.subscriptionKey s m ≠ H.subscriptionKey s' m' := fun heq =>
        hpair ⟨(hkey.eq_iff.1 heq).1.symm, (hkey.eq_iff.1 heq).2.symm⟩
      rw [or_iff_right fun hμ => hpair (Deed.executed.inj hμ.1)]
      simp [MicroStep.Unmarks, State.hasExecutionMarker, State.settle, hkeys]
  | entry auth hnow h =>
    cases h <;> simp [MicroStep.Marks, MicroStep.Unmarks, State.hasExecutionMarker, State.settle]
  | lapsed => simp [MicroStep.Marks, MicroStep.Unmarks, State.hasExecutionMarker]
  | opened | reverted | external =>
    simp [MicroStep.Marks, MicroStep.Unmarks, State.hasExecutionMarker]

/-- **Markers in a run.** A pair is marked for a nonce exactly if a payment of the single path has
left it with this nonce and the marker has not lapsed since. -/
theorem marker_after_iff (hkey : H.KeysInjective) {w : World}
    {steps : List (Step Address Hash Op)} :
    (after (next H) (State.deployed Address Hash w) steps).hasExecutionMarker
        (H.subscriptionKey s m) n = true ↔
      Raised (MicroStep.Marks H s m n) (MicroStep.Unmarks H s m n)
        (microHistory H (State.deployed Address Hash w) steps) := by
  have hflag := (path_microHistory (H := H) (State.deployed Address Hash w) steps).flag_iff
    (fun σ => σ.hasExecutionMarker (H.subscriptionKey s m) n = true)
    (fun τ μ τ' hl => by
      obtain ⟨rfl, rfl, hgen⟩ := hl
      exact hgen.marker_iff (s := s) (m := m) (n := n) hkey)
  rw [hflag, or_iff_right]
  exact fun h => Bool.false_ne_true h.1

end Markers

/-- **When the replay guard lets a period through.** After any run, let the record of `(s, m)` be
live, unpaused and due, with allowance and balance at least its amount and a nonce that is not the
last, and let the tokens honour transfers. Then `execute_payment` succeeds exactly when no payment
of the single path in the run has left the pair with the nonce it has now, its marker not lapsed
since, and the next payment fits a `u64`. -/
theorem replay_guard_iff (hkey : H.KeysInjective) (htoken : HonoursTransfers H env)
    (hauth : H.authorizes env m = true) {w : World} {steps : List (Step Address Hash Op)}
    {d : SubscriptionData Address}
    (hd : H.record (after (next H) (State.deployed Address Hash w) steps) s m = some d)
    (hactive : d.isPaused = false) (hdue : d.nextPayment ≤ env.timestamp)
    (happroved : Approved H (after (next H) (State.deployed Address Hash w) steps) s d)
    (hfunded : Funded H (after (next H) (State.deployed Address Hash w) steps) s d)
    (hnonce : d.paymentNonce < 2 ^ 32 - 1) :
    (∃ σ', (executePayment H env s m token).Returns
        (after (next H) (State.deployed Address Hash w) steps) () σ') ↔
      ¬ Raised (MicroStep.Marks H s m d.paymentNonce) (MicroStep.Unmarks H s m d.paymentNonce)
          (microHistory H (State.deployed Address Hash w) steps) ∧
        env.timestamp + d.interval < 2 ^ 64 := by
  rw [executePayment_succeeds_iff hkey ⟨w, steps, rfl⟩ htoken hauth hd hactive hdue happroved
    hfunded hnonce, ← marker_after_iff hkey, Bool.not_eq_true]

/-! ### A sample -/

theorem sampleHost_honoursTransfers (now : ℕ) : HonoursTransfers sampleHost (sampleEnv now) := by
  rintro L token src dst amount b ⟨⟩ hnonneg hle
  refine ⟨L.move token src dst amount, _, ?_, rfl, ?_⟩
  · exact TokenLedger.transfer_eq_some_iff.2
      ⟨⟨by simp [Host.tokenAuthorization, sampleEnv], hnonneg, hle⟩, rfl⟩
  · simp only [TokenLedger.move, if_true]
    split_ifs <;> omega

/-- A subscription of 100 a day after the single path has collected its first period. -/
abbrev sampleCollectedOnce : State UInt8 (List UInt8) (TokenLedger UInt8) :=
  after (next sampleHost) sampleStart
    [sampleStep 1 (.subscribe 1 2 9 100 86400 false none),
      sampleStep 86401 (.executePayment 1 2 9)]

/-- The second period of the subscription is due and covered, and is refused as a duplicate. -/
theorem not_executePayment_second_period :
    ∃ d, sampleHost.record sampleCollectedOnce 1 2 = some d ∧ d.isPaused = false ∧
      d.nextPayment ≤ (sampleEnv 172801).timestamp ∧ Approved sampleHost sampleCollectedOnce 1 d ∧
      Funded sampleHost sampleCollectedOnce 1 d ∧ d.paymentNonce < 2 ^ 32 - 1 ∧
      HonoursTransfers sampleHost (sampleEnv 172801) ∧
      sampleHost.authorizes (sampleEnv 172801) 2 = true ∧ Reachable sampleHost sampleCollectedOnce ∧
      (executePayment sampleHost (sampleEnv 172801) 1 2 9).Fails sampleCollectedOnce
        (.error .duplicateExecution) ∧
      ¬ ∃ σ', (executePayment sampleHost (sampleEnv 172801) 1 2 9).Returns sampleCollectedOnce ()
        σ' := by
  have hfails : (executePayment sampleHost (sampleEnv 172801) 1 2 9).Fails sampleCollectedOnce
      (.error .duplicateExecution) := Tx.fails_iff.2 (by decide +kernel)
  exact ⟨⟨9, 100, 86400, 172801, false, 0, none, 1, none⟩, rfl, rfl, le_rfl,
    ⟨1000, rfl, by decide⟩, ⟨900, rfl, by decide⟩, by decide, sampleHost_honoursTransfers _,
    by decide, ⟨_, _, rfl⟩, hfails, fun ⟨_, hreturns⟩ => hfails.not_returns hreturns⟩

/-- The same subscription after the marker of its first payment has lapsed. -/
def sampleLapsed : List (Step UInt8 (List UInt8) (External UInt8)) :=
  [sampleStep 1 (.subscribe 1 2 9 100 86400 false none),
    sampleStep 86401 (.executePayment 1 2 9), ⟨sampleEnv 86402, .lapse fun _ _ => true⟩]

/-- Its second period is collected. -/
theorem replay_guard_sample :
    ∃ σ', (executePayment sampleHost (sampleEnv 172801) 1 2 9).Returns
      (after (next sampleHost) sampleStart sampleLapsed) () σ' :=
  (replay_guard_iff (d := ⟨9, 100, 86400, 172801, false, 0, none, 1, none⟩)
    sampleHost_keysInjective (sampleHost_honoursTransfers 172801) (by decide) rfl rfl le_rfl
    ⟨1000, rfl, by decide⟩ ⟨900, rfl, by decide⟩ (by decide)).2
    ⟨(marker_after_iff sampleHost_keysInjective).not.1 (by decide), by decide⟩

end SorobanPay
