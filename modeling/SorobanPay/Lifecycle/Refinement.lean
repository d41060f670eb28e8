import SorobanPay.Contract.Frame

/-!
# The contract refines the life cycle of every pair

Fix a pair of a subscriber and a merchant. Every micro-step of a run is for that pair either no
act at all or one act of its life cycle, and the record of the pair changes as the act says. Hence
the acts of a run form a path of `Lifecycle`, and what holds of all such paths holds of all runs.

The refinement rests on storage keys being injective, and on two facts about the states of a run
that are proved with it: stored records are well formed, and a live subscription is between a
subscriber and a different merchant, the subscriber not being the contract itself.

## Main definitions

* `MicroStep.acts`: the acts of a micro-step on a pair.
* `Call.Resets`, `Call.Transfers`: the calls that open a schedule anew or end it, and transfers.
* `Sound`: the invariant of the states of a run.

## Main results

* `MicroStep.Genuine.refines`, `MicroStep.Genuine.sound`: one micro-step refines the life cycle of
  every pair and keeps the invariant.
* `path_lifecycle`: the acts of a path of micro-steps form a path of the life cycle.
* `between_of_split`: what leads from one micro-step of a run to a later one.
* `Reachable.sound`: reachable states satisfy the invariant.
-/

set_option autoImplicit false

namespace SorobanPay

open Foundation SubscriptionData

variable {Address Hash World Op : Type} [DecidableEq Address] [DecidableEq Hash]
  (H : Host Address Hash World Op)

/-! ### Acts -/

omit [DecidableEq Hash] in
/-- The acts of a successful plain call on the pair `(s, m)`. -/
def Call.acts (now : ℕ) (σ : State Address Hash World) (s m : Address) :
    Call Address → List (Act Address)
  | .subscribe s' m' token amount interval _ gracePeriod =>
    if s' = s ∧ m' = m then
      [.subscribe now (.opened now token amount interval (gracePeriod.getD 0))]
    else []
  | .updateSubscription s' m' amount interval =>
    if s' = s ∧ m' = m then [.update now amount interval] else []
  | .pauseSubscription s' m' _ resumeAt => if s' = s ∧ m' = m then [.pause now resumeAt] else []
  | .resumeSubscription s' m' _ => if s' = s ∧ m' = m then [.resume now] else []
  | .cancel s' m' _ => if s' = s ∧ m' = m then [.cancel now] else []
  | .transferSubscription s' old new =>
    if s' = s ∧ old = m then [.moveOut now]
    else if s' = s ∧ new = m then (H.record σ s old).toList.map (.moveIn now)
    else []
  | _ => []

omit [DecidableEq Hash] in
/-- The acts of a micro-step on the pair `(s, m)`. An entry of a batch that is not charged acts on
the pair when it marks its record overdue for the first time. -/
def MicroStep.acts (s m : Address) (μ : MicroStep Address Hash World Op) : List (Act Address) :=
  match μ.deed with
  | .applied call => call.acts H μ.env.timestamp μ.before s m
  | .executed s' m' | .entry s' m' true =>
    if s' = s ∧ m' = m then (H.record μ.before s m).toList.map (.collect μ.env.timestamp) else []
  | .entry s' m' false =>
    if (s' = s ∧ m' = m) ∧ H.record μ.before s m ≠ H.record μ.after s m then
      [.markOverdue μ.env.timestamp]
    else []
  | _ => []

omit [DecidableEq Address] [DecidableEq Hash] in
/-- The invariant of the states of a run. -/
structure Sound (σ : State Address Hash World) : Prop where
  wellFormed : ∀ s m d, H.record σ s m = some d → d.WellFormed
  distinct : ∀ s m d, H.record σ s m = some d → s ≠ m
  subscriber_ne : ∀ s m d, H.record σ s m = some d → s ≠ H.currentContractAddress
  fee_le : ∀ cfg, σ.protocolFee = some cfg → cfg.feeBps ≤ maxFeeBps

variable {H} {env : Env Address} {σ σ' : State Address Hash World} {s m : Address}

/-! ### Plain calls -/

omit [DecidableEq Hash] in
/-- An act on one pair is no act on any other. -/
theorem path_single_pair {s' m' : Address} {a : Act Address}
    {r : Option (SubscriptionData Address)} (h : Lifecycle (H.record σ s' m') a r)
    (s m : Address) :
    Path Lifecycle (H.record σ s m) (if s' = s ∧ m' = m then [a] else [])
      (if s = s' ∧ m = m' then r else H.record σ s m) := by
  by_cases hpair : s' = s ∧ m' = m
  · obtain ⟨rfl, rfl⟩ := hpair
    simpa using h
  · rw [if_neg hpair, if_neg fun h => hpair ⟨h.1.symm, h.2.symm⟩]
    exact .nil _

omit [DecidableEq Hash] in
/-- A transfer moves the record of one pair to a pair that has none. -/
theorem path_transfer {s' old new : Address} {now : ℕ} {d : SubscriptionData Address}
    (hne : old ≠ new) (hold : H.record σ s' old = some d) (hnew : H.record σ s' new = none)
    (wf : d.WellFormed) (s m : Address) :
    Path Lifecycle (H.record σ s m)
      ((Call.transferSubscription s' old new).acts H now σ s m)
      (if s = s' ∧ m = old then none else if s = s' ∧ m = new then some d
        else H.record σ s m) := by
  by_cases hout : s' = s ∧ old = m
  · obtain ⟨rfl, rfl⟩ := hout
    simpa [Call.acts, hold] using Lifecycle.moveOut
  by_cases hin : s' = s ∧ new = m
  · obtain ⟨rfl, rfl⟩ := hin
    simpa [Call.acts, hold, hnew, hne, hne.symm] using Lifecycle.moveIn wf
  · rw [if_neg fun h => hout ⟨h.1.symm, h.2.symm⟩, if_neg fun h => hin ⟨h.1.symm, h.2.symm⟩]
    simp only [Call.acts, if_neg hout, if_neg hin]
    exact .nil _

theorem Call.refines (hkey : H.KeysInjective) (hσ : Sound H σ) {call : Call Address}
    {reply : Reply Address} (plain : call.IsPlain) (h : (call.run H env).Returns σ reply σ')
    (s m : Address) :
    Path Lifecycle (H.record σ s m) (call.acts H env.timestamp σ s m) (H.record σ' s m) := by
  cases call with
  | init | setMaxAmount | migrate | setProtocolFee =>
    rw [Call.record_of_administration h trivial]
    exact .nil _
  | subscribe s' m' token amount interval strict grace =>
    simp only [Call.run, Tx.returns_bind_const, returns_subscribe] at h
    obtain ⟨⟨-, -, ⟨hpos, hle⟩, -, ⟨hge, hint⟩, -, a, -, -, ⟨hnow, -⟩, rfl⟩, -⟩ := h
    simpa [Call.acts, Host.record_setSubscription hkey] using
      path_single_pair (.subscribe hnow ⟨hpos, hle, hge, hint⟩) s m
  | updateSubscription s' m' amount interval =>
    simp only [Call.run, Tx.returns_bind_const, returns_updateSubscription] at h
    obtain ⟨⟨-, d, hd, ⟨hpos, hle⟩, ⟨hge, hint⟩, rfl⟩, -⟩ := h
    simpa [Call.acts, Host.record_setSubscription hkey] using
      path_single_pair (hd ▸ .update ⟨hpos, hle, hge, hint⟩) s m
  | pauseSubscription s' m' token resumeAt =>
    simp only [Call.run, Tx.returns_bind_const, returns_pauseSubscription] at h
    obtain ⟨⟨-, d, hd, hactive, hfuture, rfl⟩, -⟩ := h
    simpa [Call.acts, Host.record_setSubscription hkey] using
      path_single_pair (hd ▸ .pause hactive fun r hr => (hfuture r hr).2) s m
  | resumeSubscription s' m' token =>
    simp only [Call.run, Tx.returns_bind_const, returns_resumeSubscription] at h
    obtain ⟨⟨-, d, hd, hpaused, -, rfl⟩, -⟩ := h
    simpa [Call.acts, Host.record_setSubscription hkey] using
      path_single_pair (hd ▸ .resume hpaused) s m
  | cancel s' m' token =>
    simp only [Call.run, Tx.returns_bind_const, returns_cancel] at h
    obtain ⟨⟨-, hd, rfl⟩, -⟩ := h
    obtain ⟨d, hd⟩ := Option.isSome_iff_exists.1 hd
    simpa [Call.acts, Host.record_removeSubscription hkey] using path_single_pair (hd ▸ .cancel) s m
  | transferSubscription s' old new =>
    simp only [Call.run, Tx.returns_bind_const, returns_transferSubscription] at h
    obtain ⟨⟨-, -, hne, -, d, hold, hnew, rfl⟩, -⟩ := h
    simpa [Host.record_removeSubscription hkey, Host.record_setSubscription hkey] using
      path_transfer hne hold hnew (hσ.wellFormed _ _ _ hold) s m
  | executePayment | batchExecutePayment => exact plain.elim

/-! ### Charges -/

omit [DecidableEq Address] [DecidableEq Hash] in
/-- A record the single path charges is not paused: the end of an elapsed pause starts a new
interval, which is not over yet. -/
theorem SubscriptionData.Unpaused.of_due {now : ℕ} {d₀ d : SubscriptionData Address}
    (h : d₀.Unpaused now d) (hint : 0 < d₀.interval) (due : d.nextPayment ≤ now) :
    d₀.isPaused = false ∧ d₀ = d := by
  rcases h with h | ⟨-, -, -, rfl⟩
  · exact h
  · rw [resumed_nextPayment] at due
    omega

/-- What a charge of `(s, m)` finds and leaves. -/
structure Collects (H : Host Address Hash World Op) (μ : MicroStep Address Hash World Op)
    (s m : Address) (d : SubscriptionData Address) (fees : List (Event Address)) : Prop where
  found : H.record μ.before s m = some d
  due : d.nextPayment ≤ μ.env.timestamp
  now_pos : 0 < μ.env.timestamp
  charge : Charge H μ.env μ.before.protocolFee μ.before s m d μ.after.tokens fees
  left : μ.after.subscriptions =
    Function.update μ.before.subscriptions (H.subscriptionKey s m)
      (some (d.collected μ.env.timestamp))
  published : ∃ success, (success = [] ∨ success = [.paymentTransferSuccess s m d.amount]) ∧
    μ.after.events = μ.before.events ++ fees ++ success ++
      [.executed s m d.token d.amount (d.paymentNonce + 1)]

/-- **Charges.** The charges of either path find a record that is due and leave it collected. -/
theorem MicroStep.Genuine.collects {μ : MicroStep Address Hash World Op} (hσ : Sound H μ.before)
    (hμ : μ.Genuine H) (hc : μ.deed.IsCharge s m) : ∃ d fees, Collects H μ s m d fees := by
  rcases hc with hc | hc
  · cases hμ with
    | executed h =>
      obtain ⟨rfl, rfl⟩ := by simpa using hc
      obtain ⟨-, d₀, hr, hnow, d, hd, hdue, -, w, fees, hcharge, rfl⟩ :=
        returns_executePayment.1 h
      obtain ⟨-, rfl⟩ := hd.of_due (hσ.wellFormed _ _ _ hr).interval_pos hdue
      exact ⟨d₀, fees, hr, hdue, hnow, hcharge, rfl, [], .inl rfl, by simp [State.settle]⟩
    | _ => simp at hc
  · cases hμ with
    | entry auth hnow h =>
      obtain ⟨rfl, rfl, rfl⟩ := by simpa using hc
      cases h with
      | charged hr due charge => exact ⟨_, _, hr, due, hnow, charge, rfl, _, .inr rfl, rfl⟩
    | _ => simp at hc

/-! ### Micro-steps -/

section Refinement

variable {μ : MicroStep Address Hash World Op}

/-- A charge of one pair refines the life cycle of every pair. -/
theorem Collects.refines (hkey : H.KeysInjective) {s' m' : Address} {d : SubscriptionData Address}
    {fees : List (Event Address)} (h : Collects H μ s' m' d fees) (s m : Address) :
    Path Lifecycle (H.record μ.before s m)
      (if s' = s ∧ m' = m then (H.record μ.before s m).toList.map (.collect μ.env.timestamp)
        else []) (H.record μ.after s m) := by
  have hafter : H.record μ.after s m =
      if s = s' ∧ m = m' then some (d.collected μ.env.timestamp) else H.record μ.before s m := by
    simp only [Host.record, h.left, Function.update_apply, hkey.eq_iff]
  have hact : Lifecycle (H.record μ.before s' m') (.collect μ.env.timestamp d)
      (some (d.collected μ.env.timestamp)) := h.found ▸ .collect h.due h.now_pos
  rw [hafter]
  convert path_single_pair hact s m using 1
  by_cases hpair : s' = s ∧ m' = m
  · obtain ⟨rfl, rfl⟩ := hpair
    simp [h.found]
  · simp [hpair]

theorem MicroStep.Genuine.refines (hkey : H.KeysInjective) (hσ : Sound H μ.before)
    (hμ : μ.Genuine H) (s m : Address) :
    Path Lifecycle (H.record μ.before s m) (μ.acts H s m) (H.record μ.after s m) := by
  cases hμ with
  | applied plain h => exact Call.refines hkey hσ plain h s m
  | executed h =>
    obtain ⟨d, fees, hc⟩ := (MicroStep.Genuine.executed h).collects hσ (.inl rfl)
    exact hc.refines hkey s m
  | @entry env σ σ' s' m' charged auth hnow h =>
    cases charged with
    | true =>
      obtain ⟨d, fees, hc⟩ := (MicroStep.Genuine.entry auth hnow h).collects hσ (.inr rfl)
      exact hc.refines hkey s m
    | false =>
      cases h with
      | absent | notDue | lowAllowance => simp [MicroStep.acts]
      | @underfunded d b hr due approved hb low =>
        have hact : Lifecycle (H.record σ s' m') (.markOverdue env.timestamp)
            (some (d.overdue env.timestamp)) := hr ▸ .markOverdue due
        have hpath := path_single_pair hact s m
        simp only [MicroStep.acts, Host.record_publish, Host.record_setSubscription hkey]
        by_cases hpair : s' = s ∧ m' = m
        · obtain ⟨rfl, rfl⟩ := hpair
          by_cases hsame : d = d.overdue env.timestamp
          · simp [hr, ← hsame]
          · simpa [hr, hsame] using hpath
        · simpa [hpair] using hpath
  | _ => exact .nil _

omit [DecidableEq Hash] in
theorem Host.ne_of_authorizes {a : Address} (h : H.authorizes env a = true) :
    a ≠ H.currentContractAddress := by
  simp only [Host.authorizes, Bool.and_eq_true, bne_iff_ne] at h
  exact h.2

omit [DecidableEq Hash] in
/-- Where the acts of a micro-step come from. -/
theorem MicroStep.mem_acts {a : Act Address} (ha : a ∈ μ.acts H s m) :
    (∃ call, μ.deed = .applied call ∧ a ∈ call.acts H μ.env.timestamp μ.before s m) ∨
      (μ.deed.IsCharge s m ∧ ∃ d, a = .collect μ.env.timestamp d) ∨
        (μ.deed = .entry s m false ∧ a = .markOverdue μ.env.timestamp) := by
  obtain ⟨env, σ, deed, σ'⟩ := μ
  cases deed with
  | applied call => exact .inl ⟨call, rfl, ha⟩
  | executed s' m' =>
    simp only [MicroStep.acts] at ha
    split_ifs at ha with hpair
    · obtain ⟨rfl, rfl⟩ := hpair
      obtain ⟨d, -, rfl⟩ := List.mem_map.1 ha
      exact .inr (.inl ⟨.inl rfl, d, rfl⟩)
    · simp at ha
  | entry s' m' charged =>
    cases charged with
    | true =>
      simp only [MicroStep.acts] at ha
      split_ifs at ha with hpair
      · obtain ⟨rfl, rfl⟩ := hpair
        obtain ⟨d, -, rfl⟩ := List.mem_map.1 ha
        exact .inr (.inl ⟨.inr rfl, d, rfl⟩)
      · simp at ha
    | false =>
      obtain ⟨⟨⟨rfl, rfl⟩, -⟩, rfl⟩ := by simpa [MicroStep.acts] using ha
      exact .inr (.inr ⟨rfl, rfl⟩)
  | _ => simp [MicroStep.acts] at ha

/-- Only a subscriber other than the merchant and the contract opens a subscription. -/
theorem MicroStep.Genuine.proper_of_isOpening (hμ : μ.Genuine H) {a : Act Address}
    (ha : a ∈ μ.acts H s m) (hopen : a.IsOpening) : s ≠ m ∧ s ≠ H.currentContractAddress := by
  rcases MicroStep.mem_acts ha with ⟨call, hdeed, ha⟩ | ⟨-, d, rfl⟩ | ⟨-, rfl⟩
  · cases hμ with
    | @applied env σ σ' call' reply plain h =>
      obtain rfl := Deed.applied.inj hdeed
      cases call' with
      | subscribe s' m' token amount interval strict grace =>
        obtain ⟨⟨auth, hne, -⟩, -⟩ := by
          simpa only [Call.run, Tx.returns_bind_const, returns_subscribe] using h
        obtain ⟨⟨rfl, rfl⟩, -⟩ := by simpa [Call.acts] using ha
        exact ⟨hne, Host.ne_of_authorizes auth⟩
      | transferSubscription s' old new =>
        obtain ⟨⟨auth, -, -, hne, -⟩, -⟩ := by
          simpa only [Call.run, Tx.returns_bind_const, returns_transferSubscription] using h
        simp only [Call.acts] at ha
        split_ifs at ha with hout hin
        · obtain rfl := List.mem_singleton.1 ha
          exact hopen.elim
        · obtain ⟨rfl, rfl⟩ := hin
          exact ⟨hne, Host.ne_of_authorizes auth⟩
        · simp at ha
      | _ =>
        simp only [Call.acts] at ha
        first
        | simp at ha; done
        | obtain ⟨-, rfl⟩ := by simpa using ha
          exact hopen.elim
    | _ => cases hdeed
  · exact hopen.elim
  · exact hopen.elim

theorem MicroStep.Genuine.fee_le (hμ : μ.Genuine H)
    (hfee : ∀ cfg, μ.before.protocolFee = some cfg → cfg.feeBps ≤ maxFeeBps) :
    ∀ cfg, μ.after.protocolFee = some cfg → cfg.feeBps ≤ maxFeeBps := by
  cases hμ with
  | applied plain hcall =>
    rcases (Call.frame plain hcall).protocolFee with h | ⟨admin, feeBps, collector, -, hle, h⟩
    · simpa only [h] using hfee
    · rintro cfg hcfg
      obtain rfl := Option.some.inj (h.symm.trans hcfg)
      exact hle
  | executed hexecute =>
    obtain ⟨-, _, -, -, _, -, -, -, _, _, -, rfl⟩ := returns_executePayment.1 hexecute
    exact hfee
  | entry auth hnow hentry => simpa only [hentry.protocolFee_eq] using hfee
  | _ => exact hfee

/-- **The invariant of runs.** -/
theorem MicroStep.Genuine.sound (hkey : H.KeysInjective) (hμ : μ.Genuine H)
    (hσ : Sound H μ.before) : Sound H μ.after := by
  have hproper : ∀ s m d, H.record μ.after s m = some d →
      s ≠ m ∧ s ≠ H.currentContractAddress := by
    intro s m d hd
    have hpath := hμ.refines hkey hσ s m
    rcases hr : H.record μ.before s m with _ | d₀
    · rw [hr, hd] at hpath
      obtain ⟨a, ha, hopen⟩ := Lifecycle.exists_isOpening hpath
      exact hμ.proper_of_isOpening ha hopen
    · exact ⟨hσ.distinct s m d₀ hr, hσ.subscriber_ne s m d₀ hr⟩
  refine ⟨fun s m => ?_, fun s m d hd => (hproper s m d hd).1,
    fun s m d hd => (hproper s m d hd).2, hμ.fee_le hσ.fee_le⟩
  exact (hμ.refines hkey hσ s m).invariant (fun r => ∀ d, r = some d → d.WellFormed)
    (fun _ _ _ hr hl => hl.wellFormed hr) (hσ.wellFormed s m)

theorem Leads.sound (hkey : H.KeysInjective) (h : Leads H σ μ σ') (hσ : Sound H σ) :
    Sound H σ' := by
  obtain ⟨rfl, rfl, hμ⟩ := h
  exact hμ.sound hkey hσ

end Refinement

/-! ### Resets and transfers -/

omit [DecidableEq Address] in
/-- A call that opens the schedule of `(s, m)` anew or ends it: `subscribe`, `resume_subscription`
or `cancel` of the pair. -/
def Call.Resets (s m : Address) : Call Address → Prop
  | .subscribe s' m' .. | .resumeSubscription s' m' _ | .cancel s' m' _ => s' = s ∧ m' = m
  | _ => False

omit [DecidableEq Address] in
/-- A call of `transfer_subscription` that names `(s, m)`, as the pair it leaves or the pair it
creates. -/
def Call.Transfers (s m : Address) : Call Address → Prop
  | .transferSubscription s' old new => s' = s ∧ (old = m ∨ new = m)
  | _ => False

omit [DecidableEq Hash] in
/-- The acts of a call happen at its time; those that reset the schedule come from calls that reset
it, and those that move it from transfers. -/
theorem Call.mem_acts {now : ℕ} {s m : Address} {call : Call Address} {a : Act Address}
    (ha : a ∈ call.acts H now σ s m) :
    a.time = now ∧ (a.IsReset → call.Resets s m) ∧ (a.IsMove → call.Transfers s m) := by
  cases call with
  | transferSubscription s' old new =>
    simp only [Call.acts] at ha
    split_ifs at ha with hout hin
    · obtain rfl := List.mem_singleton.1 ha
      exact ⟨rfl, False.elim, fun _ => ⟨hout.1, .inl hout.2⟩⟩
    · obtain ⟨d, -, rfl⟩ := List.mem_map.1 ha
      exact ⟨rfl, False.elim, fun _ => ⟨hin.1, .inr hin.2⟩⟩
    · simp at ha
  | subscribe | resumeSubscription | cancel =>
    obtain ⟨hpair, rfl⟩ := by simpa [Call.acts] using ha
    exact ⟨rfl, fun _ => hpair, False.elim⟩
  | updateSubscription | pauseSubscription =>
    obtain ⟨-, rfl⟩ := by simpa [Call.acts] using ha
    exact ⟨rfl, False.elim, False.elim⟩
  | _ => simp [Call.acts] at ha

omit [DecidableEq Hash] in
theorem MicroStep.reset_or_move_of_mem_acts {μ : MicroStep Address Hash World Op} {s m : Address}
    {a : Act Address} (ha : a ∈ μ.acts H s m) :
    a.time = μ.env.timestamp ∧
      (a.IsReset → ∃ call, μ.deed = .applied call ∧ call.Resets s m) ∧
        (a.IsMove → ∃ call, μ.deed = .applied call ∧ call.Transfers s m) := by
  rcases MicroStep.mem_acts ha with ⟨call, hdeed, ha⟩ | ⟨-, d, rfl⟩ | ⟨-, rfl⟩
  · obtain ⟨htime, hreset, hmove⟩ := Call.mem_acts ha
    exact ⟨htime, fun h => ⟨call, hdeed, hreset h⟩, fun h => ⟨call, hdeed, hmove h⟩⟩
  · exact ⟨rfl, False.elim, False.elim⟩
  · exact ⟨rfl, False.elim, False.elim⟩

theorem Collects.acts_eq {μ : MicroStep Address Hash World Op} {s m : Address}
    {d : SubscriptionData Address} {fees : List (Event Address)} (h : Collects H μ s m d fees)
    (hc : μ.deed.IsCharge s m) : μ.acts H s m = [.collect μ.env.timestamp d] := by
  rcases hc with hc | hc <;> simp [MicroStep.acts, hc, h.found]

/-! ### Runs -/

section Runs

variable {steps : List (Step Address Hash Op)}

omit [DecidableEq Address] [DecidableEq Hash] in
theorem sound_deployed (w : World) : Sound H (State.deployed Address Hash w) := by
  constructor <;> simp [Host.record, State.deployed]

/-- Paths of micro-steps keep the invariant. -/
theorem sound_of_path {μs : List (MicroStep Address Hash World Op)} (hkey : H.KeysInjective)
    (h : Path (Leads H) σ μs σ') (hσ : Sound H σ) : Sound H σ' :=
  h.invariant (Sound H) (fun _ _ _ hσ hl => hl.sound hkey hσ) hσ

/-- **Reachable states satisfy the invariant.** -/
theorem Reachable.sound (hkey : H.KeysInjective) (h : Reachable H σ) : Sound H σ := by
  obtain ⟨w, steps, rfl⟩ := h
  exact sound_of_path hkey (path_microHistory _ steps) (sound_deployed w)

/-- **The contract refines the life cycle of every pair.** The acts of a path of micro-steps on a
pair form a path of its life cycle. -/
theorem path_lifecycle {μs : List (MicroStep Address Hash World Op)} (hkey : H.KeysInjective)
    (h : Path (Leads H) σ μs σ') (hσ : Sound H σ) (s m : Address) :
    Path Lifecycle (H.record σ s m) (μs.flatMap (·.acts H s m)) (H.record σ' s m) := by
  induction h with
  | nil => exact .nil _
  | cons hd _ ih =>
    obtain ⟨rfl, rfl, hμ⟩ := hd
    exact (hμ.refines hkey hσ s m).append (ih (hμ.sound hkey hσ))

/-- The micro-steps of a path are genuine and start from states satisfying the invariant. -/
theorem sound_of_mem_path {μs : List (MicroStep Address Hash World Op)} (hkey : H.KeysInjective)
    (h : Path (Leads H) σ μs σ') (hσ : Sound H σ) {μ : MicroStep Address Hash World Op}
    (hμ : μ ∈ μs) : μ.Genuine H ∧ Sound H μ.before := by
  have hguarded := h.guarded (Sound H) (fun _ => True) (fun μ => μ.Genuine H ∧ Sound H μ.before)
    (fun _ _ _ hσ _ hl => ⟨⟨hl.2.2, hl.1 ▸ hσ⟩, hl.sound hkey hσ⟩) hσ fun _ _ => trivial
  exact hguarded.1 μ hμ

theorem sound_of_mem_microHistory (hkey : H.KeysInjective) {w : World}
    {μ : MicroStep Address Hash World Op}
    (h : μ ∈ microHistory H (State.deployed Address Hash w) steps) :
    μ.Genuine H ∧ Sound H μ.before :=
  sound_of_mem_path hkey (path_microHistory _ steps) (sound_deployed w) h

/-- Two micro-steps of a run, the first before the second, and what leads from one to the other. -/
theorem between_of_split (hkey : H.KeysInjective) {w : World}
    {pre mid post : List (MicroStep Address Hash World Op)} {μ μ' : MicroStep Address Hash World Op}
    (h : microHistory H (State.deployed Address Hash w) steps = pre ++ μ :: mid ++ μ' :: post) :
    (μ.Genuine H ∧ Sound H μ.before) ∧ Path (Leads H) μ.after mid μ'.before ∧
      (μ'.Genuine H ∧ Sound H μ'.before) := by
  have hpath := path_microHistory (H := H) (State.deployed Address Hash w) steps
  rw [h, List.append_assoc, List.cons_append] at hpath
  obtain ⟨σ, hpre, hrest⟩ := Path.append_iff.1 hpath
  obtain ⟨_, ⟨rfl, rfl, hgen⟩, htail⟩ := Path.cons_iff.1 hrest
  obtain ⟨_, hmid, hlast⟩ := Path.append_iff.1 htail
  obtain ⟨_, ⟨rfl, rfl, hgen'⟩, -⟩ := Path.cons_iff.1 hlast
  have hσ := sound_of_path hkey hpre (sound_deployed w)
  exact ⟨⟨hgen, hσ⟩, hmid, hgen', sound_of_path hkey hmid (hgen.sound hkey hσ)⟩

end Runs

end SorobanPay
