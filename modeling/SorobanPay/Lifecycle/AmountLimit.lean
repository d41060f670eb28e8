import SorobanPay.Foundation.Listing
import SorobanPay.Lifecycle.Provenance
import SorobanPay.Listings.Changes
import SorobanPay.Tokens.Ledger

/-!
# The administrator's limit on amounts

The administrator sets a limit on the amount of a subscription. A later change of the limit leaves
the stored amounts, so what can be asked of an amount is that it was within the limit in force when
it was written. `subscribe` checks this. `update_subscription`, which is to apply the same rules to
the new amount, checks only the constant bound `MAX_AMOUNT`.

`amount_limit_iff` says that an update above the limit is the only way in which a run goes wrong.

## Main definitions

* `State.amountLimit`, `lastLimit`: the limit in force, and when an amount was last written.
* `WithinLimits`: every amount was within the limit when it was written.
* `Step.ExceedsLimit`: the steps that go wrong.

## Main results

* `Lifecycle.amount_eq`: which acts write amounts.
* `amount_limit_iff`: when all amounts of a run were within the limit.
* `not_withinLimits_updated`: an amount that was not.
-/

set_option autoImplicit false

namespace SorobanPay

open Foundation SubscriptionData

variable {Address Hash World Op : Type}

/-! ### Statement -/

/-- The largest amount allowed at the moment: the administrator's limit, or `MAX_AMOUNT` as long as
none is stored. -/
def State.amountLimit (σ : State Address Hash World) : ℤ :=
  (σ.adminConfig.map (·.maxAmount)).getD maxAmount

/-- The acts that write an amount. -/
def Act.writesAmount : Act Address → Bool
  | .subscribe .. | .update .. => true
  | _ => false

/-- The limit in force when the amount of the record of a pair was last written, under whatever
merchant. -/
def lastLimit [DecidableEq Address] (H : Host Address Hash World Op) :
    List (MicroStep Address Hash World Op) → Address → Address → Option ℤ :=
  lastNote H Act.writesAmount fun μ => μ.before.amountLimit

/-- After `initialize`, the amount of every record was at most the limit in force when it was last
written. -/
def WithinLimits [DecidableEq Address] (H : Host Address Hash World Op)
    (σ : State Address Hash World) (μs : List (MicroStep Address Hash World Op)) : Prop :=
  σ.adminConfig.isSome = true → ∀ s m d, H.record σ s m = some d →
    ∃ limit, lastLimit H μs s m = some limit ∧ d.amount ≤ limit

/-- The step updates a subscription to an amount above the limit. -/
def Step.ExceedsLimit [DecidableEq Address] [DecidableEq Hash] (H : Host Address Hash World Op)
    (σ : State Address Hash World) (step : Step Address Hash Op) : Prop :=
  ∃ s m amount interval, step.Performs H σ (.updateSubscription s m amount interval) ∧
    σ.amountLimit < amount

/-! ### Acts -/

/-- The acts that write no amount keep it, the transfers apart. -/
theorem Lifecycle.amount_eq {r : Option (SubscriptionData Address)} {a : Act Address}
    {d : SubscriptionData Address} (h : Lifecycle r a (some d)) (hwrites : a.writesAmount = false)
    (hmove : ¬ a.IsMove) : ∃ d₀, r = some d₀ ∧ d₀.amount = d.amount := by
  cases h with
  | subscribe | update => cases hwrites
  | pause | resume | collect | markOverdue => exact ⟨_, rfl, rfl⟩
  | moveIn => exact (hmove trivial).elim

section Runs

variable [DecidableEq Address] [DecidableEq Hash] {H : Host Address Hash World Op}
  {σ : State Address Hash World} {μs : List (MicroStep Address Hash World Op)}
  {step : Step Address Hash Op} {steps : List (Step Address Hash Op)}
  {μ : MicroStep Address Hash World Op} {s m : Address}

/-- An amount written by `subscribe` is within the limit. -/
theorem MicroStep.Genuine.amount_le_of_subscribe (hμ : μ.Genuine H) {now : ℕ}
    {d : SubscriptionData Address} (ha : .subscribe now d ∈ μ.acts H s m) :
    d.amount ≤ μ.before.amountLimit := by
  obtain ⟨token, amount, interval, strict, gracePeriod, hdeed, rfl⟩ :=
    MicroStep.doneBy_of_mem_acts ha
  cases hμ with
  | @applied env σ _ _ _ _ h =>
    obtain rfl := Deed.applied.inj hdeed
    simp only [Call.run, Tx.returns_bind_const, returns_subscribe] at h
    obtain ⟨⟨-, -, ⟨-, hmax⟩, hlimit, -⟩, -⟩ := h
    rcases hconfig : σ.adminConfig with _ | config
    · simpa [State.amountLimit, hconfig] using hmax
    · simpa [State.amountLimit, hconfig] using hlimit config hconfig
  | _ => cases hdeed

/-- What a run keeps: amounts were within the limit. -/
def LimitInv (H : Host Address Hash World Op)
    (τ : State Address Hash World × List (MicroStep Address Hash World Op)) : Prop :=
  Sound H τ.1 ∧ Annotated H (fun d limit => d.amount ≤ limit) τ.1 (lastLimit H τ.2)

omit [DecidableEq Hash] in
theorem LimitInv.withinLimits (h : LimitInv H (σ, μs)) : WithinLimits H σ μs := fun _ => h.2

/-- A step that updates nothing to an amount above the limit keeps all amounts within theirs. -/
theorem LimitInv.logged (hkey : H.KeysInjective) (h : LimitInv H (σ, μs))
    (hupdate : ¬ step.ExceedsLimit H σ) :
    LimitInv H (Foundation.logged (next H) (microSteps H) (σ, μs) step) := by
  rw [LimitInv, Foundation.logged, lastLimit, lastNote, List.foldl_append]
  refine annotated_microSteps hkey ?_ ?_ h.1 h.2
  · intro a ha
    cases a <;> first | exact ha.elim | rfl
  · intro μ hμ _ hgen notes s m a ha hmove d hl hr
    by_cases hwrites : a.writesAmount = true
    · rw [if_pos hwrites]
      refine ⟨_, rfl, ?_⟩
      generalize H.record μ.before s m = r at hl
      cases hl with
      | subscribe => exact hgen.amount_le_of_subscribe ha
      | @update _ _ amount interval =>
        obtain ⟨hbefore, hperforms⟩ := performs_of_applied hμ (MicroStep.doneBy_of_mem_acts ha)
        rw [hbefore]
        exact not_lt.1 fun hlt => hupdate ⟨s, m, amount, interval, hperforms, hlt⟩
      | pause | resume | collect | markOverdue | moveIn => cases hwrites
    · rw [if_neg hwrites]
      obtain ⟨d₀, hd₀, heq⟩ := hl.amount_eq (Bool.eq_false_iff.2 hwrites) hmove
      exact heq ▸ hr d₀ hd₀

/-- A step that updates an amount above the limit leaves it above. -/
theorem Step.ExceedsLimit.not_withinLimits (hkey : H.KeysInjective)
    (h : step.ExceedsLimit H σ) :
    ¬ WithinLimits H (next H σ step) (μs ++ microSteps H σ step) := by
  intro hwithin
  obtain ⟨s, m, amount, interval, hperforms, hlt⟩ := h
  have hsteps := hperforms.microSteps_eq trivial
  obtain ⟨-, reply, hr⟩ := hperforms
  simp only [Call.run, Tx.returns_bind_const, returns_updateSubscription] at hr
  obtain ⟨⟨-, d, hd, ⟨-, hmax⟩, -, hnext⟩, -⟩ := hr
  have hconfig : (next H σ step).adminConfig.isSome = true := by
    rw [← hnext]
    rcases hconfig : σ.adminConfig with _ | config
    · simp only [State.amountLimit, hconfig, Option.map_none, Option.getD_none] at hlt
      exact absurd hmax hlt.not_ge
    · simp [hconfig]
  have hrecord : H.record (next H σ step) s m = some (d.withTerms amount interval) := by
    rw [← hnext]
    simp [Host.record_setSubscription hkey]
  obtain ⟨limit, hlimit, hle⟩ := hwithin hconfig s m _ hrecord
  have hnote : lastLimit H (μs ++ microSteps H σ step) s m = some σ.amountLimit := by
    rw [hsteps, lastLimit, lastNote, List.foldl_append]
    simp [MicroStep.note, MicroStep.acts, Call.acts, Act.writesAmount]
  obtain rfl := Option.some.inj (hnote.symm.trans hlimit)
  exact absurd hle hlt.not_ge

/-- **When all amounts were within the limit.** In a run from deployment, in every state reached
after `initialize`, the amount of every record was at most the limit in force when it was last
written, exactly if no step of the run updates a subscription to an amount above the limit in
force. -/
theorem amount_limit_iff (hkey : H.KeysInjective) {w : World} :
    (∀ pre post, steps = pre ++ post →
      WithinLimits H (after (next H) (State.deployed Address Hash w) pre)
        (microHistory H (State.deployed Address Hash w) pre)) ↔
      Along (next H) (fun σ step => ¬ step.ExceedsLimit H σ) (State.deployed Address Hash w)
        steps := by
  have hstart : LimitInv H (State.deployed Address Hash w, []) :=
    ⟨sound_deployed w, fun s m d hd => by cases hd⟩
  have hiff : Throughout (logged (next H) (microSteps H)) (fun τ => WithinLimits H τ.1 τ.2)
      (State.deployed Address Hash w, []) steps ↔
      Along (logged (next H) (microSteps H)) (fun τ step => ¬ step.ExceedsLimit H τ.1)
        (State.deployed Address Hash w, []) steps :=
    throughout_iff_along (LimitInv H) (fun τ hτ => hτ.withinLimits)
      (fun τ step hτ hupdate => hτ.logged hkey hupdate)
      (fun τ step hτ hgood hupdate => hupdate.not_withinLimits hkey hgood) hstart
  refine Iff.trans ?_ (hiff.trans (along_logged (P := fun σ step => ¬ Step.ExceedsLimit H σ step)))
  simp only [Throughout, after_logged, List.nil_append]
  rfl

end Runs

/-- A limit of 200, and a subscription of 100 updated to an amount within the limit. -/
def sampleUpdate : List (Step UInt8 (List UInt8) (External UInt8)) :=
  [sampleStep 1 (.init 7), sampleStep 1 (.setMaxAmount 7 200),
    sampleStep 1 (.subscribe 1 2 9 100 86400 false none),
    sampleStep 2 (.updateSubscription 1 2 150 86400)]

/-- A second update goes above the limit. -/
theorem not_withinLimits_updated :
    ¬ WithinLimits sampleHost
      (after (next sampleHost) sampleStart
        (sampleUpdate ++ [sampleStep 3 (.updateSubscription 1 2 500 86400)]))
      (microHistory sampleHost sampleStart
        (sampleUpdate ++ [sampleStep 3 (.updateSubscription 1 2 500 86400)])) := by
  intro h
  obtain ⟨limit, hlimit, hle⟩ := h rfl 1 2 ⟨9, 500, 86400, 86401, false, 0, none, 0, none⟩ rfl
  obtain rfl : 200 = limit := Option.some.inj hlimit
  exact absurd hle (by decide)

theorem amount_limit_sample :
    (∀ pre post, sampleUpdate = pre ++ post →
      WithinLimits sampleHost (after (next sampleHost) sampleStart pre)
        (microHistory sampleHost sampleStart pre)) ↔
      Along (next sampleHost) (fun σ step => ¬ step.ExceedsLimit sampleHost σ) sampleStart
        sampleUpdate :=
  amount_limit_iff sampleHost_keysInjective

end SorobanPay
