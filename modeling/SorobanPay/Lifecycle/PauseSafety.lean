import SorobanPay.Lifecycle.Refinement
import SorobanPay.Tokens.Ledger

/-!
# Pauses and the payment paths

A pause lasts from a successful `pause_subscription` of a pair until the subscriber resumes,
subscribes again, cancels or transfers the subscription, or until the ledger time given for its
end. While it lasts neither payment path should move tokens on account of the pair or advance its
schedule.

`execute_payment` has a guard for this and `batch_execute_payment` has none, so the batch path
charges a paused subscription like any other. `pause_safety_iff` says when a run is safe: exactly
when no entry of a batch meets the paused record while it is due and the allowance and the balance
of the subscriber cover its amount.

## Main definitions

* `DuringPause`: the micro-steps of a run at which a pause lasts.
* `PauseHonoured`, `PauseSafe`: what a pause promises.
* `Collectible`: an entry of a batch finds a record that the batch path charges.

## Main results

* `Lifecycle.IsPausedUntil.of_path`: a pause lasts on the life cycle of a pair.
* `pause_safety_iff`: when the pauses of a run are honoured.
* `not_pauseSafe_batch`: a batch charges a paused subscription.
-/

set_option autoImplicit false

namespace SorobanPay

open Foundation SubscriptionData

/-! ### One life cycle -/

namespace Lifecycle

variable {Address : Type} {r r' : Option (SubscriptionData Address)} {a : Act Address}

/-- The pair has a record, and it is paused until `u`. -/
def IsPausedUntil (u : Option ℕ) (r : Option (SubscriptionData Address)) : Prop :=
  ∃ d, r = some d ∧ d.isPaused = true ∧ d.pausedUntil = u

theorem IsPausedUntil.step {u : Option ℕ} (hr : IsPausedUntil u r) (h : Lifecycle r a r')
    (hreset : ¬ a.IsReset) (hmove : ¬ a.IsMove) : IsPausedUntil u r' := by
  obtain ⟨d, rfl, hpaused, huntil⟩ := hr
  cases h with
  | update | collect | markOverdue => exact ⟨_, rfl, hpaused, huntil⟩
  | pause active => simp [hpaused] at active
  | subscribe | resume | cancel => exact (hreset trivial).elim
  | moveOut => exact (hmove trivial).elim

/-- A pause lasts until an act that resets or moves the subscription. -/
theorem IsPausedUntil.of_path {u : Option ℕ} {as : List (Act Address)} (hr : IsPausedUntil u r)
    (h : Path Lifecycle r as r') (has : ∀ a ∈ as, ¬ a.IsReset ∧ ¬ a.IsMove) :
    IsPausedUntil u r' :=
  (h.guarded (IsPausedUntil u) (fun a => ¬ a.IsReset ∧ ¬ a.IsMove) (fun _ => True)
    (fun _ _ _ hr ha hl => ⟨trivial, hr.step hl ha.1 ha.2⟩) hr has).2

end Lifecycle

/-! ### Runs of the contract -/

section Runs

variable {Address Hash World Op : Type}

/-- The micro-steps of an invocation of a payment path. -/
def Deed.IsPayment : Deed Address Hash Op → Prop
  | .executed .. | .opened .. | .entry .. => True
  | .reverted (.executePayment ..) | .reverted (.batchExecutePayment ..) => True
  | _ => False

/-- A payment attempted on account of `(s, m)`. -/
def Deed.OnAccountOf (s m : Address) (deed : Deed Address Hash Op) : Prop :=
  deed = .executed s m ∨ ∃ charged, deed = .entry s m charged

/-- The part of a record a payment advances. -/
def SubscriptionData.schedule (d : SubscriptionData Address) : ℕ × ℕ :=
  (d.nextPayment, d.paymentNonce)

/-- What a pause of `(s, m)` promises of one micro-step: it moves no tokens on account of the pair
and does not advance the schedule of the pair. -/
structure PauseHonoured (H : Host Address Hash World Op) (s m : Address)
    (μ : MicroStep Address Hash World Op) : Prop where
  tokens : μ.deed.OnAccountOf s m → μ.after.tokens = μ.before.tokens
  schedule : (H.record μ.after s m).map schedule = (H.record μ.before s m).map schedule

/-- A pause of `(s, m)` lasts at a micro-step: a successful `pause_subscription` of the pair came
before it, no successful `subscribe`, `resume_subscription`, `cancel` or `transfer_subscription` of
the pair came in between, and the time given for the end of the pause is not reached. -/
def DuringPause (s m : Address) (μs : List (MicroStep Address Hash World Op))
    (μ : MicroStep Address Hash World Op) : Prop :=
  ∃ pre π mid post token resumeAt, μs = pre ++ π :: mid ++ μ :: post ∧
    π.deed = .applied (.pauseSubscription s m token resumeAt) ∧
    (∀ ν ∈ mid, ∀ call, ν.deed = .applied call → ¬ call.Resets s m ∧ ¬ call.Transfers s m) ∧
    ∀ u, resumeAt = some u → μ.env.timestamp < u

/-- An entry of a batch on `(s, m)` finds a record that is due, with allowance and balance of the
subscriber at least its amount. -/
def Collectible (H : Host Address Hash World Op) (s m : Address)
    (μ : MicroStep Address Hash World Op) : Prop :=
  (∃ charged, μ.deed = .entry s m charged) ∧ ∃ d, H.record μ.before s m = some d ∧
    d.nextPayment ≤ μ.env.timestamp ∧ Approved H μ.before s d ∧ Funded H μ.before s d

variable [DecidableEq Address] [DecidableEq Hash] {H : Host Address Hash World Op}
  {s m : Address} {μ : MicroStep Address Hash World Op}

/-- All pauses of `(s, m)` in a run from deployment are honoured by the payment paths. -/
def PauseSafe (H : Host Address Hash World Op) (w : World) (steps : List (Step Address Hash Op))
    (s m : Address) : Prop :=
  ∀ μ, DuringPause s m (microHistory H (State.deployed Address Hash w) steps) μ →
    μ.deed.IsPayment → PauseHonoured H s m μ

/-- The record of the pair is paused while a pause lasts. -/
theorem DuringPause.record_paused (hkey : H.KeysInjective) {w : World}
    {steps : List (Step Address Hash Op)}
    (h : DuringPause s m (microHistory H (State.deployed Address Hash w) steps) μ) :
    (μ.Genuine H ∧ Sound H μ.before) ∧ ∃ d, H.record μ.before s m = some d ∧
      d.isPaused = true ∧ ∀ u, d.pausedUntil = some u → μ.env.timestamp < u := by
  obtain ⟨pre, π, mid, post, token, resumeAt, hsplit, hpause, hmid, huntil⟩ := h
  obtain ⟨⟨hgen, hσ⟩, hpath, hgen', hσ'⟩ := between_of_split hkey hsplit
  have hstart : Lifecycle.IsPausedUntil resumeAt (H.record π.after s m) := by
    cases hgen with
    | applied plain h =>
      obtain rfl := Deed.applied.inj hpause
      simp only [Call.run, Tx.returns_bind_const, returns_pauseSubscription] at h
      obtain ⟨⟨-, d, hd, -, -, rfl⟩, -⟩ := h
      exact ⟨d.paused resumeAt, by simp [Host.record_setSubscription hkey], rfl, rfl⟩
    | _ => cases hpause
  obtain ⟨d, hd, hpaused, hu⟩ := hstart.of_path
    (path_lifecycle hkey hpath (hgen.sound hkey hσ) s m) fun a ha => by
      obtain ⟨ν, hν, ha⟩ := List.mem_flatMap.1 ha
      obtain ⟨-, hreset, hmove⟩ := MicroStep.reset_or_move_of_mem_acts ha
      refine ⟨fun hr => ?_, fun hm => ?_⟩
      · obtain ⟨call, hdeed, hcall⟩ := hreset hr
        exact (hmid ν hν call hdeed).1 hcall
      · obtain ⟨call, hdeed, hcall⟩ := hmove hm
        exact (hmid ν hν call hdeed).2 hcall
  exact ⟨⟨hgen', hσ'⟩, d, hd, hpaused, fun u hdu => huntil u (hu.symm.trans hdu)⟩

/-- A charge does not honour a pause. -/
theorem Collects.not_pauseHonoured {d : SubscriptionData Address} {fees : List (Event Address)}
    (h : Collects H μ s m d fees) : ¬ PauseHonoured H s m μ := by
  intro hp
  have hafter : H.record μ.after s m = some (d.collected μ.env.timestamp) := by
    simp [Host.record, h.left]
  have hschedule := hp.schedule
  rw [h.found, hafter] at hschedule
  simp [SubscriptionData.schedule] at hschedule

/-- The single path does not charge a paused subscription before the end of its pause. -/
theorem MicroStep.Genuine.ne_executed (hμ : μ.Genuine H) {d : SubscriptionData Address}
    (hd : H.record μ.before s m = some d) (hpaused : d.isPaused = true)
    (huntil : ∀ u, d.pausedUntil = some u → μ.env.timestamp < u) : μ.deed ≠ .executed s m := by
  intro hdeed
  cases hμ with
  | executed h =>
    obtain ⟨rfl, rfl⟩ := Deed.executed.inj hdeed
    obtain ⟨-, d₀, hr, -, d', hunpaused, -⟩ := returns_executePayment.1 h
    obtain rfl := Option.some.inj (hd.symm.trans hr)
    rcases hunpaused with ⟨hactive, -⟩ | ⟨-, ⟨u, hu, hle⟩, -⟩
    · simp [hpaused] at hactive
    · exact absurd (huntil u hu) hle.not_gt
  | _ => cases hdeed

/-- An entry of a batch charges a record exactly when it is collectible. -/
theorem MicroStep.Genuine.isCharge_entry_iff (hμ : μ.Genuine H) {charged : Bool}
    (hdeed : μ.deed = .entry s m charged) : charged = true ↔ Collectible H s m μ := by
  cases hμ with
  | entry auth hnow h =>
    obtain ⟨rfl, rfl, rfl⟩ := Deed.entry.inj hdeed
    constructor
    · rintro rfl
      cases h with
      | charged hr due charge =>
        exact ⟨⟨_, rfl⟩, _, hr, due, charge.approved, charge.funded⟩
    · rintro ⟨-, d, hd, due, ⟨a, ha, hle⟩, ⟨b, hb, hle'⟩⟩
      cases h with
      | absent hr => simp [hr] at hd
      | notDue hr early =>
        obtain rfl := Option.some.inj (hr.symm.trans hd)
        exact absurd due early.not_ge
      | lowAllowance hr _ ha' low =>
        obtain rfl := Option.some.inj (hr.symm.trans hd)
        obtain rfl := Option.some.inj (ha'.symm.trans ha)
        exact absurd hle low.not_ge
      | underfunded hr _ _ hb' low =>
        obtain rfl := Option.some.inj (hr.symm.trans hd)
        obtain rfl := Option.some.inj (hb'.symm.trans hb)
        exact absurd hle' low.not_ge
      | charged => rfl
  | _ => cases hdeed

/-- An entry of a batch that is not charged moves nothing and advances no schedule. -/
theorem MicroStep.Genuine.pauseHonoured_of_skip (hkey : H.KeysInjective) (hμ : μ.Genuine H)
    (hdeed : μ.deed = .entry s m false) : PauseHonoured H s m μ := by
  cases hμ with
  | entry auth hnow h =>
    obtain ⟨rfl, rfl, rfl⟩ := Deed.entry.inj hdeed
    cases h with
    | absent | notDue | lowAllowance => exact ⟨fun _ => rfl, rfl⟩
    | underfunded hr =>
      refine ⟨fun _ => rfl, ?_⟩
      simp [Host.record_setSubscription hkey, hr, SubscriptionData.schedule]
  | _ => cases hdeed

/-- A payment on account of another pair leaves the pair as it is. -/
theorem MicroStep.Genuine.pauseHonoured_of_other (hkey : H.KeysInjective) (hμ : μ.Genuine H)
    (hσ : Sound H μ.before) (hpay : μ.deed.IsPayment) (hother : ¬ μ.deed.OnAccountOf s m) :
    PauseHonoured H s m μ := by
  have hacts : μ.acts H s m = [] := by
    refine List.eq_nil_iff_forall_not_mem.2 fun a ha => ?_
    rcases MicroStep.mem_acts ha with ⟨call, hdeed, -⟩ | ⟨hdeed | hdeed, -⟩ | ⟨hdeed, -⟩
    · rw [hdeed] at hpay
      exact hpay
    · exact hother (.inl hdeed)
    · exact hother (.inr ⟨_, hdeed⟩)
    · exact hother (.inr ⟨_, hdeed⟩)
  have hpath := hμ.refines hkey hσ s m
  rw [hacts, Path.nil_iff] at hpath
  exact ⟨fun h => (hother h).elim, by rw [hpath]⟩

/-- **When pauses are honoured.** The payment paths honour every pause of `(s, m)` in a run exactly
when, while a pause lasts, no entry of a batch finds the record of the pair due with allowance and
balance covering its amount. -/
theorem pause_safety_iff (hkey : H.KeysInjective) {w : World}
    {steps : List (Step Address Hash Op)} :
    PauseSafe H w steps s m ↔
      ∀ μ, DuringPause s m (microHistory H (State.deployed Address Hash w) steps) μ →
        ¬ Collectible H s m μ := by
  refine forall_congr' fun μ => forall_congr' fun hduring => ?_
  obtain ⟨⟨hμ, hσ⟩, d, hd, hpaused, huntil⟩ := hduring.record_paused hkey
  constructor
  · rintro hsafe hcol
    obtain ⟨charged, hdeed⟩ := hcol.1
    obtain rfl := (hμ.isCharge_entry_iff hdeed).2 hcol
    obtain ⟨d, fees, hcollect⟩ := hμ.collects hσ (.inr hdeed)
    exact hcollect.not_pauseHonoured (hsafe (by rw [hdeed]; trivial))
  · intro hcol hpay
    by_cases haccount : μ.deed.OnAccountOf s m
    · rcases haccount with hdeed | ⟨charged, hdeed⟩
      · exact absurd hdeed (hμ.ne_executed hd hpaused huntil)
      · cases charged with
        | true => exact absurd ((hμ.isCharge_entry_iff hdeed).1 rfl) hcol
        | false => exact hμ.pauseHonoured_of_skip hkey hdeed
    · exact hμ.pauseHonoured_of_other hkey hσ hpay haccount

end Runs

/-- A subscription of 100 a day, paused by its subscriber and then listed in a batch when it is
due. -/
def samplePausedBatch : List (Step UInt8 (List UInt8) (External UInt8)) :=
  [sampleStep 1 (.subscribe 1 2 9 100 86400 false none),
    sampleStep 2 (.pauseSubscription 1 2 9 none),
    sampleStep 86401 (.batchExecutePayment 2 9 [1])]

/-- A batch charges the paused subscription. -/
theorem not_pauseSafe_batch : ¬ PauseSafe sampleHost sampleLedger samplePausedBatch 1 2 := by
  intro hsafe
  refine absurd (hsafe _ ⟨[_], _, [_], [], 9, none, rfl, rfl, fun ν hν call hcall => ?_, by simp⟩
    trivial).schedule (by decide)
  rw [List.mem_singleton.1 hν] at hcall
  cases hcall

theorem pause_safety_sample :
    PauseSafe sampleHost sampleLedger samplePausedBatch 1 2 ↔
      ∀ μ, DuringPause 1 2 (microHistory sampleHost sampleStart samplePausedBatch) μ →
        ¬ Collectible sampleHost 1 2 μ :=
  pause_safety_iff sampleHost_keysInjective

end SorobanPay
