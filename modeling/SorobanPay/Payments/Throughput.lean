import SorobanPay.Foundation.Cadence
import SorobanPay.Lifecycle.AutoResume

/-!
# How often a subscription is collected

A subscription is never collected ahead of its schedule. That it does not fall behind either takes a
merchant who comes regularly: one whose batches list the subscriber, with never more than some delay
in between. While the subscriber keeps the approval and the funds and makes no call, every batch
that finds the record due charges it, so that each collection comes at most that delay after it is
due. The next payment is reckoned from the collection and not from the time it was due, so the
delays add up: nothing is made up for, and nothing is collected twice.

## Main definitions

* `Deed.Visits`: a successful batch comes to the pair.
* `Attended`: batches come to the pair regularly.
* `chargeTimes`: when the pair is collected.

## Main results

* `Scheduled.charge`, `Scheduled.idle`: what a micro-step makes of the schedule.
* `batch_throughput`: how many collections there are, and when.
-/

set_option autoImplicit false

namespace SorobanPay

open Foundation

variable {Address Hash World Op : Type} [DecidableEq Address]

/-- An entry of a successful batch is for the pair. -/
def Deed.Visits (s m : Address) : Deed Address Hash Op → Prop
  | .entry s' m' _ => s' = s ∧ m' = m
  | _ => False

instance (s m : Address) : (deed : Deed Address Hash Op) → Decidable (deed.Visits s m)
  | .entry s' m' _ => inferInstanceAs (Decidable (s' = s ∧ m' = m))
  | .applied _ | .executed .. | .opened .. | .reverted _ | .lapsed _ | .external _ =>
    inferInstanceAs (Decidable False)

/-- No micro-step comes more than `delay` after the last entry of a batch for the pair, which was
at `last`. -/
def Attended (s m : Address) (delay : ℕ) : ℕ → List (MicroStep Address Hash World Op) → Prop
  | _, [] => True
  | last, μ :: μs => μ.env.timestamp ≤ last + delay ∧
    Attended s m delay (if μ.deed.Visits s m then μ.env.timestamp else last) μs

instance Attended.decidable (s m : Address) (delay : ℕ) :
    (last : ℕ) → (μs : List (MicroStep Address Hash World Op)) →
      Decidable (Attended s m delay last μs)
  | _, [] => inferInstanceAs (Decidable True)
  | last, μ :: μs =>
    have := decidable s m delay (if μ.deed.Visits s m then μ.env.timestamp else last) μs
    inferInstanceAs (Decidable (μ.env.timestamp ≤ last + delay ∧
      Attended s m delay (if μ.deed.Visits s m then μ.env.timestamp else last) μs))

/-- The times at which the pair is collected. -/
def chargeTimes (s m : Address) (μs : List (MicroStep Address Hash World Op)) : List ℕ :=
  (μs.filter fun μ => μ.deed.IsCharge s m).map fun μ => μ.env.timestamp

section Times

variable {s m : Address} {μ : MicroStep Address Hash World Op}
  {μs : List (MicroStep Address Hash World Op)}

theorem chargeTimes_cons_of_isCharge (h : μ.deed.IsCharge s m) :
    chargeTimes s m (μ :: μs) = μ.env.timestamp :: chargeTimes s m μs := by
  simp [chargeTimes, h]

theorem chargeTimes_cons_of_not_isCharge (h : ¬ μ.deed.IsCharge s m) :
    chargeTimes s m (μ :: μs) = chargeTimes s m μs := by
  simp [chargeTimes, h]

omit [DecidableEq Address] in
/-- An entry that is not a charge has reported so. -/
theorem Deed.eq_entry_of_visits {deed : Deed Address Hash Op} (h : deed.Visits s m)
    (hidle : ¬ deed.IsCharge s m) : deed = .entry s m false := by
  cases deed with
  | entry s' m' charged =>
    obtain ⟨rfl, rfl⟩ := h
    cases charged with
    | false => rfl
    | true => exact (hidle (.inr rfl)).elim
  | _ => exact h.elim

end Times

/-! ### The schedule -/

/-- The record of the pair has the terms of `d` and is due at `due`. -/
def Scheduled (H : Host Address Hash World Op) (s m : Address) (d : SubscriptionData Address)
    (due : ℕ) (σ : State Address Hash World) : Prop :=
  ∃ d', H.record σ s m = some d' ∧
    (d'.token = d.token ∧ d'.amount = d.amount ∧ d'.interval = d.interval) ∧ d'.nextPayment = due

/-- The contract may move the amount of the record, and the subscriber holds it. -/
def Ready (H : Host Address Hash World Op) (s m : Address) (σ : State Address Hash World) : Prop :=
  ∀ d, H.record σ s m = some d → Approved H σ s d ∧ Funded H σ s d

omit [DecidableEq Address] in
/-- Being found underfunded changes neither the terms nor the schedule. -/
theorem Lifecycle.keeps_of_path {r : Option (SubscriptionData Address)}
    {d : SubscriptionData Address} {as : List (Act Address)} {now : ℕ}
    (h : Path Lifecycle (some d) as r) (has : ∀ a ∈ as, a = .markOverdue now) :
    ∃ d', r = some d' ∧
      (d'.token = d.token ∧ d'.amount = d.amount ∧ d'.interval = d.interval) ∧
        d'.nextPayment = d.nextPayment := by
  refine (h.guarded (fun r => ∃ d', r = some d' ∧
    (d'.token = d.token ∧ d'.amount = d.amount ∧ d'.interval = d.interval) ∧
      d'.nextPayment = d.nextPayment) (· = .markOverdue now) (fun _ => True) ?_
      ⟨d, rfl, ⟨rfl, rfl, rfl⟩, rfl⟩ has).2
  rintro _ _ r' ⟨d', rfl, hterms, hnext⟩ rfl hl
  cases hl with
  | markOverdue => exact ⟨trivial, _, rfl, hterms, hnext⟩

variable [DecidableEq Hash] {H : Host Address Hash World Op} {σ σ' : State Address Hash World}
  {μ : MicroStep Address Hash World Op} {s m : Address} {d : SubscriptionData Address}
  {due delay last : ℕ}

omit [DecidableEq Hash] in
/-- A call of somebody else is no act on a subscription. -/
theorem Call.acts_of_not_madeBy {call : Call Address} {now : ℕ} (h : ¬ call.MadeBy s) :
    call.acts H now σ s m = [] := by
  cases call <;> simp_all [Call.MadeBy, Call.acts]

namespace Scheduled

/-- **A charge** comes when the record is due, and the next one is due one interval later. -/
theorem charge (hμ : μ.Genuine H) (hσ : Sound H μ.before) (h : Scheduled H s m d due μ.before)
    (hcharge : μ.deed.IsCharge s m) :
    due ≤ μ.env.timestamp ∧ Scheduled H s m d (μ.env.timestamp + d.interval) μ.after := by
  obtain ⟨d', hd', ⟨htoken, hamount, hinterval⟩, rfl⟩ := h
  obtain ⟨d'', fees, hcollects⟩ := hμ.collects hσ hcharge
  obtain rfl := Option.some.inj (hd'.symm.trans hcollects.found)
  refine ⟨hcollects.due, d'.collected μ.env.timestamp, ?_, ⟨htoken, hamount, hinterval⟩, ?_⟩
  · rw [Host.record, hcollects.left, Function.update_self]
  · rw [← hinterval, SubscriptionData.collected_nextPayment]

/-- **A micro-step that is no charge**, and no call of the subscriber, leaves the schedule as it is;
an entry of a batch is none only before the record is due. -/
theorem idle (hkey : H.KeysInjective) (hμ : μ.Genuine H) (hσ : Sound H μ.before)
    (h : Scheduled H s m d due μ.before) (hquiet : ∀ call, μ.deed = .applied call → ¬ call.MadeBy s)
    (hidle : ¬ μ.deed.IsCharge s m) :
    Scheduled H s m d due μ.after ∧
      (μ.deed.Visits s m → Ready H s m μ.before → μ.env.timestamp < due) := by
  obtain ⟨d', hd', ⟨htoken, hamount, hinterval⟩, rfl⟩ := h
  constructor
  · have hlife := hμ.refines hkey hσ s m
    rw [hd'] at hlife
    have hmarks : ∀ a ∈ μ.acts H s m, a = .markOverdue μ.env.timestamp := by
      intro a ha
      rcases MicroStep.mem_acts ha with ⟨call, hdeed, ha⟩ | ⟨hcharge, -⟩ | ⟨-, rfl⟩
      · rw [Call.acts_of_not_madeBy (hquiet call hdeed)] at ha
        simp at ha
      · exact absurd hcharge hidle
      · rfl
    obtain ⟨d'', hd'', ⟨htoken', hamount', hinterval'⟩, hnext⟩ :=
      Lifecycle.keeps_of_path hlife hmarks
    exact ⟨d'', hd'', ⟨htoken'.trans htoken, hamount'.trans hamount,
      hinterval'.trans hinterval⟩, hnext⟩
  · intro hvisits hready
    obtain ⟨⟨a, ha, happroved⟩, ⟨b, hb, hfunded⟩⟩ := hready d' hd'
    have hdeed := Deed.eq_entry_of_visits hvisits hidle
    cases hμ with
    | entry auth hnow hentry =>
      obtain ⟨rfl, rfl, rfl⟩ := Deed.entry.inj hdeed
      cases hentry with
      | absent hr => simp [hd'] at hr
      | notDue hr early =>
        obtain rfl := Option.some.inj (hd'.symm.trans hr)
        exact early
      | lowAllowance hr due ha' low =>
        obtain rfl := Option.some.inj (hd'.symm.trans hr)
        obtain rfl := Option.some.inj (ha.symm.trans ha')
        exact absurd happroved low.not_ge
      | underfunded hr due approved hb' low =>
        obtain rfl := Option.some.inj (hd'.symm.trans hr)
        obtain rfl := Option.some.inj (hb.symm.trans hb')
        exact absurd hfunded low.not_ge
    | _ => cases hdeed

end Scheduled

/-! ### Runs -/

/-- The collections of an attended pair keep their cadence, an entry of a batch finds that no more
of them are due, and each of them finds the terms of the subscription. -/
theorem cadence_of_path {μs : List (MicroStep Address Hash World Op)} (hkey : H.KeysInjective)
    (hpath : Path (Leads H) σ μs σ') (hσ : Sound H σ) (hscheduled : Scheduled H s m d due σ)
    (hquiet : ∀ μ ∈ μs, ∀ call, μ.deed = .applied call → ¬ call.MadeBy s)
    (hready : ∀ μ ∈ μs, μ.deed.Visits s m → Ready H s m μ.before)
    (hattended : Attended s m delay last μs) (hlast : last ≤ due) (hpos : 0 < d.interval) :
    Cadence d.interval delay due (chargeTimes s m μs) ∧
      (∀ μ ∈ μs, μ.deed.Visits s m → ∃ ts ts', chargeTimes s m μs = ts ++ ts' ∧
        μ.env.timestamp < dueAfter d.interval due ts) ∧
      ∀ μ ∈ μs, μ.deed.IsCharge s m → ∃ due', Scheduled H s m d due' μ.before := by
  induction hpath generalizing due last with
  | nil => exact ⟨trivial, by simp, by simp⟩
  | @cons σ τ σ'' μ μs hd _ ih =>
    obtain ⟨rfl, rfl, hμ⟩ := hd
    obtain ⟨hnow, hattended⟩ := hattended
    have hquiet' := fun μ' h => hquiet μ' (List.mem_cons_of_mem μ h)
    have hready' := fun μ' h => hready μ' (List.mem_cons_of_mem μ h)
    have hafter := hμ.sound hkey hσ
    by_cases hcharge : μ.deed.IsCharge s m
    · obtain ⟨hdue, hnext⟩ := hscheduled.charge hμ hσ hcharge
      have hlast' : (if μ.deed.Visits s m then μ.env.timestamp else last) ≤
          μ.env.timestamp + d.interval := by
        split_ifs <;> omega
      obtain ⟨hcadence, hvisits, hfound⟩ := ih hafter hnext hquiet' hready' hattended hlast'
      rw [chargeTimes_cons_of_isCharge hcharge]
      refine ⟨⟨hdue, by omega, hcadence⟩, ?_,
        List.forall_mem_cons.2 ⟨fun _ => ⟨due, hscheduled⟩, hfound⟩⟩
      refine List.forall_mem_cons.2 ⟨fun _ => ?_, fun μ' hμ' hvisit => ?_⟩
      · exact ⟨[μ.env.timestamp], _, rfl, Nat.lt_add_of_pos_right hpos⟩
      · obtain ⟨ts, ts', hts, hlt⟩ := hvisits μ' hμ' hvisit
        exact ⟨μ.env.timestamp :: ts, ts', by rw [hts, List.cons_append], hlt⟩
    · obtain ⟨hnext, hearly⟩ := hscheduled.idle hkey hμ hσ (hquiet μ List.mem_cons_self) hcharge
      have hearly := fun h => hearly h (hready μ List.mem_cons_self h)
      have hlast' : (if μ.deed.Visits s m then μ.env.timestamp else last) ≤ due := by
        split_ifs with hvisit
        · exact (hearly hvisit).le
        · exact hlast
      obtain ⟨hcadence, hvisits, hfound⟩ := ih hafter hnext hquiet' hready' hattended hlast'
      rw [chargeTimes_cons_of_not_isCharge hcharge]
      refine ⟨hcadence, ?_, List.forall_mem_cons.2 ⟨fun h => absurd h hcharge, hfound⟩⟩
      refine List.forall_mem_cons.2 ⟨fun hvisit => ?_, hvisits⟩
      exact ⟨[], _, rfl, hearly hvisit⟩

/-- **Throughput of the batches.** From a reachable state with a record that is next due at `n` and
has the interval `i`: over a run in which the subscriber makes no call and in which every entry of a
batch for the pair finds the amount approved and held, with never more than `delay` between two of
them, the `k`-th collection comes between `n + k * i` and `n + k * (i + delay) + delay`. Every
collection finds the token and the amount of the record, and once an entry of a batch comes as late
as `n + k * (i + delay)`, there are more than `k` of them. -/
theorem batch_throughput (hkey : H.KeysInjective) (hreach : Reachable H σ)
    (hd : H.record σ s m = some d) {steps : List (Step Address Hash Op)}
    (hquiet : ∀ step ∈ steps, step.IsNotBy s)
    (hready : ∀ μ ∈ microHistory H σ steps, μ.deed.Visits s m → Ready H s m μ.before)
    (hattended : Attended s m delay d.nextPayment (microHistory H σ steps)) :
    (∀ k, ∀ hk : k < (chargeTimes s m (microHistory H σ steps)).length,
      d.nextPayment + k * d.interval ≤ (chargeTimes s m (microHistory H σ steps))[k] ∧
        (chargeTimes s m (microHistory H σ steps))[k] ≤
          d.nextPayment + k * (d.interval + delay) + delay) ∧
      (∀ μ ∈ microHistory H σ steps, μ.deed.IsCharge s m →
        ∃ d', H.record μ.before s m = some d' ∧ d'.token = d.token ∧ d'.amount = d.amount) ∧
      ∀ μ ∈ microHistory H σ steps, μ.deed.Visits s m → ∀ k,
        d.nextPayment + k * (d.interval + delay) ≤ μ.env.timestamp →
          k < (chargeTimes s m (microHistory H σ steps)).length := by
  have hσ := hreach.sound hkey
  have hcalls : ∀ μ ∈ microHistory H σ steps, ∀ call, μ.deed = .applied call →
      ¬ call.MadeBy s := by
    intro μ hμ call hdeed
    obtain ⟨step, hstep, τ, hμ⟩ := exists_of_mem_history hμ
    exact hquiet step hstep call (action_of_applied hμ hdeed)
  obtain ⟨hcadence, hvisits, hfound⟩ := cadence_of_path hkey (path_microHistory σ steps) hσ
    ⟨d, hd, ⟨rfl, rfl, rfl⟩, rfl⟩ hcalls hready hattended le_rfl
    (hσ.wellFormed s m d hd).interval_pos
  refine ⟨fun k hk => hcadence.getElem_bounds hk, fun μ hμ hcharge => ?_,
    fun μ hμ hvisit k hlate => ?_⟩
  · obtain ⟨due, d', hd', ⟨htoken, hamount, -⟩, -⟩ := hfound μ hμ hcharge
    exact ⟨d', hd', htoken, hamount⟩
  · obtain ⟨ts, ts', hts, hlt⟩ := hvisits μ hμ hvisit
    rw [hts] at hcadence ⊢
    have hbound := (Cadence.append_iff.1 hcadence).1.dueAfter_bounds.2
    have hk : k < ts.length := by
      refine Nat.lt_of_mul_lt_mul_right (a := d.interval + delay) ?_
      omega
    rw [List.length_append]
    omega

/-- Two batches of a merchant, the first one four seconds late and the second one another four. -/
def sampleBatches : List (Step UInt8 (List UInt8) (External UInt8)) :=
  [sampleStep 86405 (.batchExecutePayment 2 9 [1]),
    sampleStep 172809 (.batchExecutePayment 2 9 [1])]

example : chargeTimes 1 2 (microHistory sampleHost sampleSubscribed sampleBatches) =
    [86405, 172809] := by decide

theorem batch_throughput_sample :
    ∃ t, (chargeTimes 1 2 (microHistory sampleHost sampleSubscribed sampleBatches))[1]? = some t ∧
      86401 + 1 * 86400 ≤ t ∧ t ≤ 86401 + 1 * (86400 + 86404) + 86404 := by
  have hquiet : ∀ step ∈ sampleBatches, step.IsNotBy 1 := by
    simp [sampleBatches, Step.IsNotBy, sampleStep, Call.MadeBy]
  have hheld : ∀ μ ∈ microHistory sampleHost sampleSubscribed sampleBatches,
      ∀ d ∈ sampleHost.record μ.before 1 2, d.amount ≤ μ.before.tokens.allowance d.token 1 0 ∧
        d.amount ≤ μ.before.tokens.balance d.token 1 := by decide
  have htimes : chargeTimes 1 2 (microHistory sampleHost sampleSubscribed sampleBatches) =
      [86405, 172809] := by decide
  have hsecond : 1 < (chargeTimes 1 2
      (microHistory sampleHost sampleSubscribed sampleBatches)).length := by
    rw [htimes]
    decide
  have hattended : Attended 1 2 86404 86401
      (microHistory sampleHost sampleSubscribed sampleBatches) := by decide
  obtain ⟨hfirst, hlast⟩ := (batch_throughput (d := ⟨9, 100, 86400, 86401, false, 0, none, 0, none⟩)
    sampleHost_keysInjective ⟨_, _, rfl⟩ rfl hquiet
    (fun μ hμ _ d hd => ⟨⟨_, rfl, (hheld μ hμ d hd).1⟩, ⟨_, rfl, (hheld μ hμ d hd).2⟩⟩)
    hattended).1 1 hsecond
  exact ⟨_, List.getElem?_eq_getElem hsecond, hfirst, hlast⟩

end SorobanPay
