import SorobanPay.Foundation.Listing
import SorobanPay.Lifecycle.Provenance
import SorobanPay.Listings.Changes
import SorobanPay.Tokens.Ledger

/-!
# What holds of every stored record

Beside the bounds on its terms, a record ties three things to the ledger time: only a paused record
has a time for the end of its pause, a record that is overdue is due or paused, and the next payment
is at least a day after the record was last subscribed, resumed or collected.

All entry points keep this except one. `execute_payment` and `batch_execute_payment` clear the
overdue mark whenever they move the next payment; `resume_subscription` moves it as well and leaves
the mark, so a subscription that was overdue when it was paused comes back overdue with nothing due.
`record_bounds_iff` says that this is the only way in which a run goes wrong.

## Main definitions

* `clock`, `lastScheduled`: the ledger time, and when a record was last scheduled.
* `RecordKept`, `RecordsKept`: what holds of a record.
* `Step.ResumesOverdue`: the steps that go wrong.

## Main results

* `Lifecycle.onSchedule`: every act keeps a record on schedule, unless it resumes an overdue one.
* `record_bounds_iff`: when all records of a run are right.
* `not_recordsKept_resumed`: a record that is not right.
-/

set_option autoImplicit false

namespace SorobanPay

open Foundation SubscriptionData

variable {Address Hash World Op : Type}

/-! ### Statement -/

/-- The ledger time of the last of some micro-steps. -/
def clock (μs : List (MicroStep Address Hash World Op)) : ℕ :=
  (μs.getLast?.map fun μ => μ.env.timestamp).getD 0

/-- The acts that set the next payment. -/
def Act.schedules : Act Address → Bool
  | .subscribe .. | .resume _ | .collect .. => true
  | _ => false

/-- The ledger time at which the record of a pair was last subscribed, resumed or collected, under
whatever merchant. -/
def lastScheduled [DecidableEq Address] (H : Host Address Hash World Op) :
    List (MicroStep Address Hash World Op) → Address → Address → Option ℕ :=
  lastNote H Act.schedules fun μ => μ.env.timestamp

/-- What a record says of its schedule: `now` is the ledger time, `scheduled` the time at which it
was last subscribed, resumed or collected. -/
structure OnSchedule (now : ℕ) (d : SubscriptionData Address) (scheduled : ℕ) : Prop where
  paused : ∀ u, d.pausedUntil = some u → d.isPaused = true
  overdue : ∀ t, d.overdueSince = some t → t ≤ now ∧ (d.nextPayment ≤ now ∨ d.isPaused = true)
  next : minInterval + scheduled ≤ d.nextPayment

/-- What holds of a stored record of `(s, m)`. -/
structure RecordKept (now : ℕ) (s m : Address) (d : SubscriptionData Address)
    (scheduled : Option ℕ) : Prop where
  terms : ValidTerms d.amount d.interval
  distinct : s ≠ m
  schedule : ∃ t, scheduled = some t ∧ OnSchedule now d t

/-- Every record is as it should be in the state in which some micro-steps have led. -/
def RecordsKept [DecidableEq Address] (H : Host Address Hash World Op)
    (σ : State Address Hash World) (μs : List (MicroStep Address Hash World Op)) : Prop :=
  ∀ s m d, H.record σ s m = some d → RecordKept (clock μs) s m d (lastScheduled H μs s m)

/-- The step resumes a subscription that is marked overdue. -/
def Step.ResumesOverdue [DecidableEq Address] [DecidableEq Hash] (H : Host Address Hash World Op)
    (σ : State Address Hash World) (step : Step Address Hash Op) : Prop :=
  ∃ s m token d, step.Performs H σ (.resumeSubscription s m token) ∧ H.record σ s m = some d ∧
    d.overdueSince ≠ none

/-! ### Acts -/

theorem OnSchedule.mono {now now' scheduled : ℕ} {d : SubscriptionData Address}
    (h : OnSchedule now d scheduled) (hle : now ≤ now') : OnSchedule now' d scheduled :=
  ⟨h.paused, fun t ht => ⟨(h.overdue t ht).1.trans hle, (h.overdue t ht).2.imp_left fun h =>
    h.trans hle⟩, h.next⟩

/-- **Acts and the schedule.** An act that happens now and is no transfer keeps a record on
schedule, unless it resumes a record that is overdue. -/
theorem Lifecycle.onSchedule {r : Option (SubscriptionData Address)} {a : Act Address}
    {d : SubscriptionData Address} {now : ℕ} {note : Option ℕ} (h : Lifecycle r a (some d))
    (htime : a.time = now) (hmove : ¬ a.IsMove)
    (hwf : ∀ d₀, r = some d₀ → d₀.WellFormed)
    (hresume : ∀ t d₀, a = .resume t → r = some d₀ → d₀.overdueSince = none)
    (hr : ∀ d₀, r = some d₀ → ∃ t, note = some t ∧ OnSchedule now d₀ t) :
    ∃ t, (if a.schedules = true then some now else note) = some t ∧ OnSchedule now d t := by
  obtain rfl := htime
  cases h with
  | subscribe hnow terms =>
    refine ⟨_, rfl, by simp, by simp, ?_⟩
    have := terms.interval_ge
    simp only [opened_nextPayment, Act.time]
    omega
  | @update d₀ =>
    obtain ⟨t, ht, h⟩ := hr d₀ rfl
    exact ⟨t, ht, h.paused, h.overdue, h.next⟩
  | @pause d₀ =>
    obtain ⟨t, ht, h⟩ := hr d₀ rfl
    exact ⟨t, ht, fun _ _ => rfl, fun t' ht' => ⟨(h.overdue t' ht').1, .inr rfl⟩, h.next⟩
  | @resume d₀ =>
    refine ⟨_, rfl, by simp, fun t ht => ?_, ?_⟩
    · rw [resumed_overdueSince, hresume _ d₀ rfl rfl] at ht
      cases ht
    · have := (hwf d₀ rfl).interval_ge
      simp only [resumed_nextPayment, Act.time]
      omega
  | @collect d₀ =>
    obtain ⟨t, ht, h⟩ := hr d₀ rfl
    refine ⟨_, rfl, h.paused, by simp, ?_⟩
    have := (hwf d₀ rfl).interval_ge
    simp only [collected_nextPayment, Act.time]
    omega
  | @markOverdue d₀ _ due =>
    obtain ⟨t, ht, h⟩ := hr d₀ rfl
    refine ⟨t, ht, h.paused, fun t' ht' => ?_, h.next⟩
    rw [overdue_overdueSince, Option.some.injEq] at ht'
    refine ⟨?_, .inl due⟩
    rcases hover : d₀.overdueSince with _ | t₀
    · rw [← ht', hover]
      rfl
    · rw [← ht', hover]
      exact (h.overdue t₀ hover).1
  | moveIn => exact (hmove trivial).elim

/-! ### Runs -/

section Runs

variable [DecidableEq Address] [DecidableEq Hash] {H : Host Address Hash World Op}
  {σ : State Address Hash World} {μs : List (MicroStep Address Hash World Op)}
  {step : Step Address Hash Op} {steps : List (Step Address Hash Op)}

theorem microSteps_ne_nil (σ : State Address Hash World) (step : Step Address Hash Op) :
    microSteps H σ step ≠ [] := by
  obtain ⟨env, action⟩ := step
  cases action with
  | invoke call =>
    rcases hr : invoke H env call σ with ⟨e | reply, τ⟩
    · simp [microSteps, hr]
    · simp only [microSteps, hr]
      cases call <;> simp [callSteps]
  | lapse | external => simp [microSteps]

/-- After a step the ledger time is that of the step. -/
theorem clock_append_microSteps :
    clock (μs ++ microSteps H σ step) = step.env.timestamp := by
  have hlast := List.getLast_mem (microSteps_ne_nil (H := H) σ step)
  rw [clock, List.getLast?_append_of_ne_nil _ (microSteps_ne_nil σ step),
    List.getLast?_eq_some_getLast (microSteps_ne_nil σ step), Option.map_some, Option.getD_some,
    env_of_mem_microSteps hlast]

/-- In a chronological run no step happens before the ledger time. -/
theorem Chronological.along_clock (h : Chronological steps)
    (hstart : ∀ step ∈ steps, clock μs ≤ step.env.timestamp) :
    Along (logged (next H) (microSteps H)) (fun τ step => clock τ.2 ≤ step.env.timestamp) (σ, μs)
      steps := by
  induction steps generalizing σ μs with
  | nil => trivial
  | cons step steps ih =>
    obtain ⟨hhead, htail⟩ := List.pairwise_cons.1 h
    refine ⟨hstart step List.mem_cons_self, ih htail fun step' hstep' => ?_⟩
    rw [clock_append_microSteps]
    exact hhead step' hstep'

/-- What a run keeps: records are sound and on schedule. -/
def OnScheduleInv (H : Host Address Hash World Op)
    (τ : State Address Hash World × List (MicroStep Address Hash World Op)) : Prop :=
  Sound H τ.1 ∧ Annotated H (OnSchedule (clock τ.2)) τ.1 (lastScheduled H τ.2)

omit [DecidableEq Hash] in
theorem OnScheduleInv.recordsKept (h : OnScheduleInv H (σ, μs)) : RecordsKept H σ μs := by
  intro s m d hd
  exact ⟨(h.1.wellFormed s m d hd).toValidTerms, h.1.distinct s m d hd, h.2 s m d hd⟩

/-- A step that resumes no overdue record keeps all records on schedule. -/
theorem OnScheduleInv.logged (hkey : H.KeysInjective) (h : OnScheduleInv H (σ, μs))
    (hnow : clock μs ≤ step.env.timestamp) (hresume : ¬ step.ResumesOverdue H σ) :
    OnScheduleInv H (Foundation.logged (next H) (microSteps H) (σ, μs) step) := by
  have hnotes : Annotated H (OnSchedule step.env.timestamp) σ (lastScheduled H μs) :=
    fun s m d hd => (h.2 s m d hd).imp fun t ht => ⟨ht.1, ht.2.mono hnow⟩
  rw [OnScheduleInv, Foundation.logged, clock_append_microSteps, lastScheduled, lastNote,
    List.foldl_append]
  refine annotated_microSteps hkey ?_ ?_ h.1 hnotes
  · intro a ha
    cases a <;> first | exact ha.elim | rfl
  · intro μ hμ hbefore _ notes s m a ha hmove d hl hr
    have henv : μ.env = step.env := env_of_mem_microSteps hμ
    rw [henv]
    refine hl.onSchedule ?_ hmove (hbefore.wellFormed s m) ?_ hr
    · rw [(MicroStep.reset_or_move_of_mem_acts ha).1, henv]
    · rintro t d₀ rfl hd₀
      obtain ⟨token, hdeed⟩ := MicroStep.doneBy_of_mem_acts ha
      obtain ⟨hσ, hperforms⟩ := performs_of_applied hμ hdeed
      rw [hσ] at hd₀
      by_contra hover
      exact hresume ⟨s, m, token, d₀, hperforms, hd₀, hover⟩

/-- A step that resumes an overdue record leaves it overdue with nothing due. -/
theorem Step.ResumesOverdue.not_recordsKept (hkey : H.KeysInjective) (hσ : Sound H σ)
    (h : step.ResumesOverdue H σ) :
    ¬ RecordsKept H (next H σ step) (μs ++ microSteps H σ step) := by
  intro hkept
  obtain ⟨s, m, token, d, ⟨-, reply, hr⟩, hd, hover⟩ := h
  simp only [Call.run, Tx.returns_bind_const, returns_resumeSubscription] at hr
  obtain ⟨⟨-, d₀, hd₀, -, -, hnext⟩, -⟩ := hr
  obtain rfl := Option.some.inj (hd.symm.trans hd₀)
  have hrecord : H.record (next H σ step) s m = some (d.resumed step.env.timestamp) := by
    rw [← hnext]
    simp [Host.record_setSubscription hkey]
  obtain ⟨t, -, hschedule⟩ := (hkept s m _ hrecord).schedule
  rw [clock_append_microSteps] at hschedule
  obtain ⟨t', ht'⟩ := Option.ne_none_iff_exists'.1 hover
  have hpos := (hσ.wellFormed s m d hd).interval_pos
  rcases (hschedule.overdue t' ht').2 with hdue | hpaused
  · rw [resumed_nextPayment] at hdue
    omega
  · cases hpaused

/-- **When all records are right.** In a chronological run from deployment every stored record has
terms within the bounds and two different parties, has a time for the end of its pause only when it
is paused, is overdue only since a time not in the future and while it is due or paused, and has its
next payment at least a day after it was last subscribed, resumed or collected, in every state
reached, exactly if no step of the run resumes a subscription that is marked overdue. -/
theorem record_bounds_iff (hkey : H.KeysInjective) {w : World} (hchron : Chronological steps) :
    (∀ pre post, steps = pre ++ post →
      RecordsKept H (after (next H) (State.deployed Address Hash w) pre)
        (microHistory H (State.deployed Address Hash w) pre)) ↔
      Along (next H) (fun σ step => ¬ step.ResumesOverdue H σ) (State.deployed Address Hash w)
        steps := by
  have hstart : OnScheduleInv H (State.deployed Address Hash w, []) :=
    ⟨sound_deployed w, fun s m d hd => by cases hd⟩
  have hiff : Throughout (logged (next H) (microSteps H)) (fun τ => RecordsKept H τ.1 τ.2)
      (State.deployed Address Hash w, []) steps ↔
      Along (logged (next H) (microSteps H)) (fun τ step => ¬ step.ResumesOverdue H τ.1)
        (State.deployed Address Hash w, []) steps :=
    throughout_iff_along_of_admitted (OnScheduleInv H)
      (fun τ step => clock τ.2 ≤ step.env.timestamp) (fun τ hτ => hτ.recordsKept)
      (fun τ step hτ hnow hresume => hτ.logged hkey hnow hresume)
      (fun τ step hτ _ hgood hresume => hresume.not_recordsKept hkey hτ.1 hgood) hstart
      (hchron.along_clock fun _ _ => Nat.zero_le _)
  refine Iff.trans ?_
    (hiff.trans (along_logged (P := fun σ step => ¬ Step.ResumesOverdue H σ step)))
  simp only [Throughout, after_logged, List.nil_append]
  rfl

end Runs

/-- Two subscriptions of 600 a day of a subscriber who holds 1000. The first is collected, the
second is found underfunded and paused. -/
def sampleUnderfunded : List (Step UInt8 (List UInt8) (External UInt8)) :=
  [sampleStep 1 (.subscribe 1 2 9 600 86400 false none),
    sampleStep 1 (.subscribe 1 3 9 600 86400 false none),
    sampleStep 86401 (.batchExecutePayment 2 9 [1]),
    sampleStep 86401 (.batchExecutePayment 3 9 [1]),
    sampleStep 86402 (.pauseSubscription 1 3 9 none)]

/-- Resumed, the second subscription is overdue with nothing due. -/
theorem not_recordsKept_resumed :
    ¬ RecordsKept sampleHost
      (after (next sampleHost) sampleStart
        (sampleUnderfunded ++ [sampleStep 86403 (.resumeSubscription 1 3 9)]))
      (microHistory sampleHost sampleStart
        (sampleUnderfunded ++ [sampleStep 86403 (.resumeSubscription 1 3 9)])) := by
  intro h
  obtain ⟨t, -, hschedule⟩ :=
    (h 1 3 ⟨9, 600, 86400, 172803, false, 0, some 86401, 0, none⟩ rfl).schedule
  exact absurd (hschedule.overdue 86401 rfl).2 (by decide)

theorem record_bounds_sample :
    (∀ pre post, sampleUnderfunded = pre ++ post →
      RecordsKept sampleHost (after (next sampleHost) sampleStart pre)
        (microHistory sampleHost sampleStart pre)) ↔
      Along (next sampleHost) (fun σ step => ¬ step.ResumesOverdue sampleHost σ) sampleStart
        sampleUnderfunded :=
  record_bounds_iff sampleHost_keysInjective (by
    simp [Chronological, sampleUnderfunded, sampleStep, sampleEnv])

end SorobanPay
