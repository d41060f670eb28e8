import SorobanPay.Lifecycle.Refinement

/-!
# Where acts and records come from

An act on a pair names the deed it belongs to (`MicroStep.doneBy_of_mem_acts`), and the record of a
pair after a micro-step was there before, is the work of an act, or has been transferred from
another pair of the same subscriber (`MicroStep.Genuine.origin`).

What a run has last done to a record is not stored in it. A note on the records is kept beside the
ledger state instead: certain acts on a pair write a new note for it, and a transfer takes the note
of a record along to the pair it moves to. `lastNote` is the note at the end of a list of
micro-steps.

A property of records and their notes holds in all states of a run if every act on a pair keeps it;
a transfer keeps it of itself (`MicroStep.Genuine.annotated`).

## Main definitions

* `Act.DoneBy`: the deed to which an act on a pair belongs.
* `MicroStep.note`, `lastNote`: notes and how micro-steps change them.
* `Annotated`: every record has a note and stands in a relation to it.

## Main results

* `MicroStep.doneBy_of_mem_acts`, `MicroStep.Genuine.origin`: where acts and records come from.
* `MicroStep.Genuine.annotated`: a relation of records to notes is kept by a micro-step if its acts
  keep it.
-/

set_option autoImplicit false

namespace SorobanPay

open Foundation

variable {Address Hash World Op α : Type}

/-! ### Acts -/

/-- The deed to which an act on the pair `(s, m)` belongs. -/
def Act.DoneBy (deed : Deed Address Hash Op) (s m : Address) : Act Address → Prop
  | .subscribe now d => ∃ token amount interval strict gracePeriod,
    deed = .applied (.subscribe s m token amount interval strict gracePeriod) ∧
      d = .opened now token amount interval (gracePeriod.getD 0)
  | .update _ amount interval => deed = .applied (.updateSubscription s m amount interval)
  | .pause _ resumeAt => ∃ token, deed = .applied (.pauseSubscription s m token resumeAt)
  | .resume _ => ∃ token, deed = .applied (.resumeSubscription s m token)
  | .collect .. => deed.IsCharge s m
  | .markOverdue _ => deed = .entry s m false
  | .cancel _ => ∃ token, deed = .applied (.cancel s m token)
  | .moveOut _ => ∃ new, deed = .applied (.transferSubscription s m new)
  | .moveIn .. => ∃ old, deed = .applied (.transferSubscription s old m)

theorem MicroStep.doneBy_of_mem_acts [DecidableEq Address] {H : Host Address Hash World Op}
    {μ : MicroStep Address Hash World Op} {s m : Address} {a : Act Address}
    (ha : a ∈ μ.acts H s m) : a.DoneBy μ.deed s m := by
  rcases MicroStep.mem_acts ha with ⟨call, hdeed, ha⟩ | ⟨hdeed, d, rfl⟩ | ⟨hdeed, rfl⟩
  · rw [hdeed]
    cases call with
    | subscribe s' m' token amount interval strict gracePeriod =>
      obtain ⟨⟨rfl, rfl⟩, rfl⟩ := by simpa [Call.acts] using ha
      exact ⟨token, amount, interval, strict, gracePeriod, rfl, rfl⟩
    | updateSubscription s' m' amount interval =>
      obtain ⟨⟨rfl, rfl⟩, rfl⟩ := by simpa [Call.acts] using ha
      rfl
    | pauseSubscription s' m' token resumeAt =>
      obtain ⟨⟨rfl, rfl⟩, rfl⟩ := by simpa [Call.acts] using ha
      exact ⟨token, rfl⟩
    | resumeSubscription s' m' token | cancel s' m' token =>
      obtain ⟨⟨rfl, rfl⟩, rfl⟩ := by simpa [Call.acts] using ha
      exact ⟨token, rfl⟩
    | transferSubscription s' old new =>
      simp only [Call.acts] at ha
      split_ifs at ha with hout hin
      · obtain rfl := List.mem_singleton.1 ha
        obtain ⟨rfl, rfl⟩ := hout
        exact ⟨new, rfl⟩
      · obtain ⟨d, -, rfl⟩ := List.mem_map.1 ha
        obtain ⟨rfl, rfl⟩ := hin
        exact ⟨old, rfl⟩
      · simp at ha
    | _ => simp [Call.acts] at ha
  · exact hdeed
  · exact hdeed

/-! ### Notes -/

section Notes

variable [DecidableEq Address] (H : Host Address Hash World Op) (writes : Act Address → Bool)
  (value : MicroStep Address Hash World Op → α)

/-- The notes after a micro-step: an act that writes one gives the pair a new note, and a transfer
takes the note of the old pair to the new one. -/
def MicroStep.note (notes : Address → Address → Option α) (μ : MicroStep Address Hash World Op)
    (s m : Address) : Option α :=
  if (μ.acts H s m).any writes then some (value μ)
  else match μ.deed with
    | .applied (.transferSubscription s' old new) =>
      if s' = s ∧ new = m then notes s old else notes s m
    | _ => notes s m

/-- The notes at the end of a list of micro-steps. -/
def lastNote (μs : List (MicroStep Address Hash World Op)) : Address → Address → Option α :=
  μs.foldl (MicroStep.note H writes value) fun _ _ => none

omit [DecidableEq Address] in
/-- Every record has a note to which it stands in the relation `Good`. -/
def Annotated (Good : SubscriptionData Address → α → Prop) (σ : State Address Hash World)
    (notes : Address → Address → Option α) : Prop :=
  ∀ s m d, H.record σ s m = some d → ∃ x, notes s m = some x ∧ Good d x

end Notes

section Steps

variable [DecidableEq Address] [DecidableEq Hash] {H : Host Address Hash World Op}
  {writes : Act Address → Bool} {value : MicroStep Address Hash World Op → α}
  {notes : Address → Address → Option α} {μ : MicroStep Address Hash World Op} {s m : Address}

omit [DecidableEq Hash] in
theorem Call.acts_eq_nil_or_singleton (call : Call Address) (now : ℕ)
    (σ : State Address Hash World) (s m : Address) :
    call.acts H now σ s m = [] ∨ ∃ a, call.acts H now σ s m = [a] := by
  cases call with
  | transferSubscription s' old new =>
    simp only [Call.acts]
    split_ifs
    · exact .inr ⟨_, rfl⟩
    · rcases H.record σ s old with _ | d
      · exact .inl rfl
      · exact .inr ⟨_, rfl⟩
    · exact .inl rfl
  | subscribe | updateSubscription | pauseSubscription | resumeSubscription | cancel =>
    simp only [Call.acts]
    split_ifs
    · exact .inr ⟨_, rfl⟩
    · exact .inl rfl
  | _ => exact .inl rfl

omit [DecidableEq Hash] in
/-- A micro-step is at most one act on a pair. -/
theorem MicroStep.acts_eq_nil_or_singleton (μ : MicroStep Address Hash World Op) (s m : Address) :
    μ.acts H s m = [] ∨ ∃ a, μ.acts H s m = [a] := by
  obtain ⟨env, σ, deed, σ'⟩ := μ
  have hcollect : ∀ s' m' : Address,
      (if s' = s ∧ m' = m then (H.record σ s m).toList.map (Act.collect env.timestamp) else []) = []
        ∨ ∃ a, (if s' = s ∧ m' = m then
          (H.record σ s m).toList.map (Act.collect env.timestamp) else []) = [a] := by
    intro s' m'
    split_ifs
    · rcases H.record σ s m with _ | d
      · exact .inl rfl
      · exact .inr ⟨_, rfl⟩
    · exact .inl rfl
  cases deed with
  | applied call => exact call.acts_eq_nil_or_singleton env.timestamp σ s m
  | executed s' m' => exact hcollect s' m'
  | entry s' m' charged =>
    cases charged with
    | true => exact hcollect s' m'
    | false =>
      simp only [MicroStep.acts]
      split_ifs
      · exact .inr ⟨_, rfl⟩
      · exact .inl rfl
  | _ => exact .inl rfl

omit [DecidableEq Hash] in
theorem MicroStep.note_of_not_moved
    (h : ∀ old, μ.deed ≠ .applied (.transferSubscription s old m)) :
    μ.note H writes value notes s m =
      if (μ.acts H s m).any writes then some (value μ) else notes s m := by
  unfold MicroStep.note
  split_ifs with hany
  · rfl
  · split
    · rename_i s' old new hdeed
      exact if_neg fun hpair => h old (by rw [hdeed, hpair.1, hpair.2])
    · rfl

/-- A transfer that succeeds finds a record and a pair without one. -/
theorem MicroStep.Genuine.transferred (hμ : μ.Genuine H) {old new : Address}
    (hdeed : μ.deed = .applied (.transferSubscription s old new)) :
    old ≠ new ∧ H.record μ.before s new = none ∧ ∃ d, H.record μ.before s old = some d := by
  cases hμ with
  | applied plain h =>
    obtain rfl := Deed.applied.inj hdeed
    simp only [Call.run, Tx.returns_bind_const, returns_transferSubscription] at h
    obtain ⟨⟨-, -, hne, -, d, hold, hnew, -⟩, -⟩ := h
    exact ⟨hne, hnew, d, hold⟩
  | _ => cases hdeed

/-- **Where a record comes from.** The record of a pair was there before, or an act other than a
transfer has made it what it is, or it has come from another pair of the same subscriber. -/
theorem MicroStep.Genuine.origin (hkey : H.KeysInjective) (hσ : Sound H μ.before)
    (hμ : μ.Genuine H) (hwrites : ∀ a : Act Address, a.IsMove → writes a = false)
    {d : SubscriptionData Address} (hd : H.record μ.after s m = some d) :
    (H.record μ.before s m = some d ∧ μ.note H writes value notes s m = notes s m) ∨
      (∃ a ∈ μ.acts H s m, ¬ a.IsMove ∧ Lifecycle (H.record μ.before s m) a (some d) ∧
        μ.note H writes value notes s m =
          if writes a = true then some (value μ) else notes s m) ∨
      ∃ old, H.record μ.before s old = some d ∧
        μ.note H writes value notes s m = notes s old := by
  have hpath := hμ.refines hkey hσ s m
  rw [hd] at hpath
  by_cases hmoved : ∃ old, μ.deed = .applied (.transferSubscription s old m)
  · obtain ⟨old, hdeed⟩ := hmoved
    obtain ⟨hne, -, d₀, hold⟩ := hμ.transferred hdeed
    have hacts : μ.acts H s m = [.moveIn μ.env.timestamp d₀] := by
      simp [MicroStep.acts, Call.acts, hdeed, hne, hold]
    rw [hacts] at hpath
    obtain ⟨_, hact, hnil⟩ := Path.cons_iff.1 hpath
    obtain rfl := Path.nil_iff.1 hnil
    refine .inr (.inr ⟨old, ?_, ?_⟩)
    · rcases hr : H.record μ.before s m with _ | d₁ <;> rw [hr] at hact <;> cases hact
      exact hold
    · simp [MicroStep.note, hacts, hdeed, hwrites (.moveIn μ.env.timestamp d₀) trivial]
  · rw [MicroStep.note_of_not_moved fun old hdeed => hmoved ⟨old, hdeed⟩]
    rcases μ.acts_eq_nil_or_singleton (H := H) s m with hacts | ⟨a, hacts⟩ <;> rw [hacts] at hpath
    · exact .inl ⟨Path.nil_iff.1 hpath, by simp [hacts]⟩
    · obtain ⟨_, hact, hnil⟩ := Path.cons_iff.1 hpath
      obtain rfl := Path.nil_iff.1 hnil
      refine .inr (.inl ⟨a, by simp [hacts], fun hmove => hmoved ?_, hact, by simp [hacts]⟩)
      have hdone := MicroStep.doneBy_of_mem_acts (hacts ▸ List.mem_singleton_self a)
      generalize H.record μ.before s m = r at hact
      cases hact with
      | moveIn => exact hdone
      | subscribe | update | pause | resume | collect | markOverdue => exact hmove.elim

/-- **Notes on records.** A relation of records to their notes that every act on a pair keeps, the
transfers apart, is kept by a micro-step. -/
theorem MicroStep.Genuine.annotated (hkey : H.KeysInjective) (hσ : Sound H μ.before)
    (hμ : μ.Genuine H) (hwrites : ∀ a : Act Address, a.IsMove → writes a = false)
    {Good : SubscriptionData Address → α → Prop}
    (hact : ∀ s m, ∀ a ∈ μ.acts H s m, ¬ a.IsMove → ∀ d,
      Lifecycle (H.record μ.before s m) a (some d) →
      (∀ d₀, H.record μ.before s m = some d₀ → ∃ x, notes s m = some x ∧ Good d₀ x) →
      ∃ x, (if writes a = true then some (value μ) else notes s m) = some x ∧ Good d x)
    (h : Annotated H Good μ.before notes) :
    Annotated H Good μ.after (μ.note H writes value notes) := by
  intro s m d hd
  rcases hμ.origin hkey hσ hwrites hd with ⟨hbefore, hnote⟩ | ⟨a, ha, hmove, hl, hnote⟩ |
    ⟨old, hold, hnote⟩
  · rw [hnote]
    exact h s m d hbefore
  · rw [hnote]
    exact hact s m a ha hmove d hl (h s m)
  · rw [hnote]
    exact h s old d hold

/-- **Notes on records, step by step.** A relation of records to their notes that the acts of a step
keep is kept by the step. -/
theorem annotated_microSteps (hkey : H.KeysInjective) {σ : State Address Hash World}
    {step : Step Address Hash Op} (hwrites : ∀ a : Act Address, a.IsMove → writes a = false)
    {Good : SubscriptionData Address → α → Prop}
    (hact : ∀ μ ∈ microSteps H σ step, Sound H μ.before → μ.Genuine H →
      ∀ (notes : Address → Address → Option α) s m, ∀ a ∈ μ.acts H s m, ¬ a.IsMove → ∀ d,
      Lifecycle (H.record μ.before s m) a (some d) →
      (∀ d₀, H.record μ.before s m = some d₀ → ∃ x, notes s m = some x ∧ Good d₀ x) →
      ∃ x, (if writes a = true then some (value μ) else notes s m) = some x ∧ Good d x)
    (hσ : Sound H σ) (h : Annotated H Good σ notes) :
    Sound H (next H σ step) ∧
      Annotated H Good (next H σ step)
        ((microSteps H σ step).foldl (MicroStep.note H writes value) notes) :=
  (path_microSteps (H := H) σ step).fold (MicroStep.note H writes value)
    (fun τ notes => Sound H τ ∧ Annotated H Good τ notes) (fun μ => μ ∈ microSteps H σ step)
    (fun _ notes μ _ hτ hμ hl => by
      obtain ⟨rfl, rfl, hgen⟩ := hl
      exact ⟨hgen.sound hkey hτ.1,
        hgen.annotated hkey hτ.1 hwrites (hact μ hμ hτ.1 hgen notes) hτ.2⟩) ⟨hσ, h⟩ fun _ h => h

end Steps

end SorobanPay
