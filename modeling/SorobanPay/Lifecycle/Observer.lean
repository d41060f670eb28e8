import SorobanPay.Foundation.Listing
import SorobanPay.Lifecycle.Announcements
import SorobanPay.Lifecycle.Provenance
import SorobanPay.Listings.Changes

/-!
# Observers of the life cycles

Off-chain services follow the subscriptions by the events of the contract. What such a service
knows about a pair changes with the acts on the pair, and it is to be right about the record of the
pair. An `Observer` is a service that stays right under all acts but those it misses, and goes
wrong under these.

`Observer.throughout_iff` says that an observer is right in all states of a run exactly if no step
of the run is an act it misses. What is known may be read off the announcements among the events
(`Observer.Reads.follows`).

## Main definitions

* `Act.IsPlain`: the acts that are whole steps of a run.
* `Observer`: what is known about a pair, and which acts are missed.
* `Observer.Misses`: a step is an act that is missed.
* `Observer.Follows`, `Observer.Reads`: what is known changes with the acts of a run, and it is read
  off the announcements.

## Main results

* `Observer.Reads.follows`: the announcements of a run tell what the acts are that they belong to.
* `Observer.throughout_iff`: when an observer is right in all states of a run.
-/

set_option autoImplicit false

namespace SorobanPay

open Foundation

variable {Address Hash World Op V : Type}

/-- The acts that are whole steps of a run: all but those of a batch. -/
def Act.IsPlain : Act Address → Prop
  | .collect .. | .markOverdue _ => False
  | _ => True

/-- The acts that are announced. -/
def Act.announced : Act Address → Bool
  | .subscribe .. | .collect .. | .cancel _ => true
  | _ => false

/-- What is known about a pair, beginning with `init`; when it is right about the record of the pair
(`Good`), which follows from an invariant (`Inv`); and the acts on the pair that are missed. -/
structure Observer (Address V : Type) where
  init : V
  note : V → Act Address → V
  Good : V → Option (SubscriptionData Address) → Prop
  Inv : V → Option (SubscriptionData Address) → Prop
  Missed : Option (SubscriptionData Address) → Act Address → Prop
  plain : ∀ r a, Missed r a → a.IsPlain
  good : ∀ v r, Inv v r → Good v r
  start : Inv init none
  keep : ∀ v r a r', Lifecycle r a r' → ¬ Missed r a → Inv v r → Inv (note v a) r'
  lose : ∀ v r a r', Lifecycle r a r' → (∀ d, r = some d → d.WellFormed) → Missed r a →
    Inv v r → ¬ Good (note v a) r'

namespace Observer

variable [DecidableEq Address] [DecidableEq Hash] (O : Observer Address V)
  {H : Host Address Hash World Op} {σ : State Address Hash World}
  {step : Step Address Hash Op} {steps : List (Step Address Hash Op)}
  {μ : MicroStep Address Hash World Op} {seen : State Address Hash World → Address → Address → V}

/-- The step has an act that is missed. -/
def Misses (H : Host Address Hash World Op) (σ : State Address Hash World)
    (step : Step Address Hash Op) : Prop :=
  ∃ μ ∈ microSteps H σ step, ∃ s m, ∃ a ∈ μ.acts H s m, O.Missed (H.record μ.before s m) a

variable (H seen) in
/-- What is seen of the states changes with every micro-step as its acts say. -/
def Follows : Prop :=
  ∀ μ : MicroStep Address Hash World Op, Sound H μ.before → μ.Genuine H → ∀ s m,
    seen μ.after s m = (μ.acts H s m).foldl O.note (seen μ.before s m)

omit [DecidableEq Hash] in
/-- What is known about the pair `(s, m)` is changed by the announcements of its acts as the acts
change it, and by nothing else. -/
structure Reads (read : Address → Address → V → Event Address → V) : Prop where
  skip : ∀ s m v event, event.announces = false → read s m v event = v
  silent : ∀ v a, a.announced = false → O.note v a = v
  subscribe : ∀ s m v s' m' token amount now interval gracePeriod,
    read s m v (.subscribe s' m' token amount) =
      if s' = s ∧ m' = m then
        O.note v (.subscribe now (.opened now token amount interval gracePeriod)) else v
  executed : ∀ s m v s' m' now d,
    read s m v (.executed s' m' d.token d.amount (d.paymentNonce + 1)) =
      if s' = s ∧ m' = m then O.note v (.collect now d) else v
  cancel : ∀ s m v s' m' now,
    read s m v (.cancel s' m' 1) = if s' = s ∧ m' = m then O.note v (.cancel now) else v

namespace Reads

variable {O} {read : Address → Address → V → Event Address → V}

omit [DecidableEq Hash] in
theorem foldl_silent (h : O.Reads read) {as : List (Act Address)}
    (has : ∀ a ∈ as, a.announced = false) (v : V) : as.foldl O.note v = v := by
  induction as with
  | nil => rfl
  | cons a as ih =>
    rw [List.foldl_cons, h.silent v a (has a List.mem_cons_self)]
    exact ih fun b hb => has b (List.mem_cons_of_mem _ hb)

omit [DecidableEq Hash] in
/-- What the announcements of a micro-step change is what its acts change. -/
theorem foldl_announcements (h : O.Reads read) (μ : MicroStep Address Hash World Op)
    (s m : Address) (v : V) :
    (μ.announcements H).foldl (read s m) v = (μ.acts H s m).foldl O.note v := by
  obtain ⟨env, σ, deed, σ'⟩ := μ
  have hcharge : ∀ s' m' : Address,
      ((H.record σ s' m').toList.map fun d =>
          Event.executed s' m' d.token d.amount (d.paymentNonce + 1)).foldl (read s m) v =
        (if s' = s ∧ m' = m then (H.record σ s m).toList.map (Act.collect env.timestamp)
          else []).foldl O.note v := by
    intro s' m'
    by_cases hpair : s' = s ∧ m' = m
    · obtain ⟨rfl, rfl⟩ := hpair
      cases H.record σ s' m' <;> simp [h.executed s' m' v s' m' env.timestamp]
    · cases H.record σ s' m' <;> simp [h.executed s m v s' m' env.timestamp, hpair]
  cases deed with
  | applied call =>
    cases call with
    | subscribe s' m' token amount interval strict gracePeriod =>
      have hread := h.subscribe s m v s' m' token amount env.timestamp interval
        (gracePeriod.getD 0)
      simp only [MicroStep.announcements, MicroStep.acts, Call.acts, List.foldl_cons,
        List.foldl_nil, hread]
      split_ifs <;> rfl
    | cancel s' m' token =>
      have hread := h.cancel s m v s' m' env.timestamp
      simp only [MicroStep.announcements, MicroStep.acts, Call.acts, List.foldl_cons,
        List.foldl_nil, hread]
      split_ifs <;> rfl
    | _ =>
      refine (h.foldl_silent (fun a ha => ?_) v).symm
      have hdone := MicroStep.doneBy_of_mem_acts ha
      cases a <;> first | rfl | simp [Act.DoneBy, Deed.IsCharge] at hdone
  | executed s' m' => exact hcharge s' m'
  | entry s' m' charged =>
    cases charged with
    | true => exact hcharge s' m'
    | false =>
      refine (h.foldl_silent (fun a ha => ?_) v).symm
      have hdone := MicroStep.doneBy_of_mem_acts ha
      cases a <;> first | rfl | simp [Act.DoneBy, Deed.IsCharge] at hdone
  | _ => rfl

omit [DecidableEq Hash] in
theorem foldl_filter (h : O.Reads read) (s m : Address) (events : List (Event Address)) (v : V) :
    (events.filter Event.announces).foldl (read s m) v = events.foldl (read s m) v := by
  rw [List.foldl_filter]
  congr 1
  funext v event
  split_ifs with hevent
  · rfl
  · exact (h.skip s m v event (Bool.eq_false_iff.2 hevent)).symm

/-- What is read off the events of the ledger state follows the acts. -/
theorem follows (h : O.Reads read) :
    O.Follows H fun σ s m => σ.events.foldl (read s m) O.init := by
  intro μ hσ hμ s m
  obtain ⟨events, hevents, hannounced⟩ := hμ.announced hσ
  rw [← h.foldl_announcements, ← hannounced, h.foldl_filter, ← List.foldl_append, ← hevents]

end Reads

variable (H seen) in
/-- The invariant holds of all that is known. -/
structure Right (σ : State Address Hash World) : Prop where
  sound : Sound H σ
  inv : ∀ s m, O.Inv (seen σ s m) (H.record σ s m)

variable {O}

theorem Right.microStep (hkey : H.KeysInjective) (hfollows : O.Follows H seen)
    (hμ : μ.Genuine H)
    (hseen : ∀ s m, ∀ a ∈ μ.acts H s m, ¬ O.Missed (H.record μ.before s m) a)
    (h : O.Right H seen μ.before) : O.Right H seen μ.after := by
  refine ⟨hμ.sound hkey h.sound, fun s m => ?_⟩
  have hpath := hμ.refines hkey h.sound s m
  rw [hfollows μ h.sound hμ]
  rcases μ.acts_eq_nil_or_singleton (H := H) s m with hacts | ⟨a, hacts⟩ <;> rw [hacts] at hpath ⊢
  · rw [← Path.nil_iff.1 hpath]
    exact h.inv s m
  · obtain ⟨_, hact, hnil⟩ := Path.cons_iff.1 hpath
    obtain rfl := Path.nil_iff.1 hnil
    exact O.keep _ _ _ _ hact (hseen s m a (by simp [hacts])) (h.inv s m)

theorem Right.next (hkey : H.KeysInjective) (hfollows : O.Follows H seen)
    (h : O.Right H seen σ) (hstep : ¬ O.Misses H σ step) :
    O.Right H seen (SorobanPay.next H σ step) :=
  ((path_microSteps (H := H) σ step).guarded (O.Right H seen)
    (fun μ => ∀ s m, ∀ a ∈ μ.acts H s m, ¬ O.Missed (H.record μ.before s m) a) (fun _ => True)
    (fun _ μ _ hτ hseen hl => by
      obtain ⟨rfl, rfl, hgen⟩ := hl
      exact ⟨trivial, hτ.microStep hkey hfollows hgen hseen⟩) h
    fun μ hμ s m a ha hmissed => hstep ⟨μ, hμ, s, m, a, ha, hmissed⟩).2

/-- An act that is a whole step belongs to a plain call that succeeds. -/
theorem exists_performs_of_plain (hμ : μ ∈ microSteps H σ step) {s m : Address} {a : Act Address}
    (ha : a ∈ μ.acts H s m) (plain : a.IsPlain) :
    ∃ call : Call Address, call.IsPlain ∧ μ.deed = .applied call ∧ μ.before = σ ∧
      step.Performs H σ call := by
  have hdone := MicroStep.doneBy_of_mem_acts ha
  have hcall : ∃ call : Call Address, call.IsPlain ∧ μ.deed = .applied call := by
    cases a with
    | subscribe =>
      obtain ⟨token, amount, interval, strict, gracePeriod, hdeed, -⟩ := hdone
      refine ⟨_, ?_, hdeed⟩
      trivial
    | update =>
      refine ⟨_, ?_, hdone⟩
      trivial
    | pause | resume | cancel | moveOut | moveIn =>
      obtain ⟨_, hdeed⟩ := hdone
      refine ⟨_, ?_, hdeed⟩
      trivial
    | collect | markOverdue => exact plain.elim
  obtain ⟨call, hplain, hdeed⟩ := hcall
  obtain ⟨hbefore, hperforms⟩ := performs_of_applied hμ hdeed
  exact ⟨call, hplain, hdeed, hbefore, hperforms⟩

theorem Misses.not_good (hkey : H.KeysInjective) (hfollows : O.Follows H seen)
    (h : O.Misses H σ step) (hσ : O.Right H seen σ) :
    ¬ ∀ s m, O.Good (seen (SorobanPay.next H σ step) s m)
      (H.record (SorobanPay.next H σ step) s m) := by
  intro hgood
  obtain ⟨μ, hμ, s, m, a, ha, hmissed⟩ := h
  obtain ⟨call, plain, hdeed, hbefore, hperforms⟩ :=
    exists_performs_of_plain hμ ha (O.plain _ _ hmissed)
  have hwhole := hperforms.microSteps_eq plain
  obtain rfl := List.mem_singleton.1 (hwhole ▸ hμ)
  obtain ⟨-, reply, hr⟩ := hperforms
  have hgen := MicroStep.Genuine.applied plain hr
  have hpath := hgen.refines hkey hσ.sound s m
  have hfold := hfollows _ hσ.sound hgen s m
  rcases MicroStep.acts_eq_nil_or_singleton (H := H) _ s m with hacts | ⟨b, hacts⟩ <;>
    rw [hacts] at ha hpath hfold
  · simp at ha
  · obtain rfl := List.mem_singleton.1 ha
    obtain ⟨_, hact, hnil⟩ := Path.cons_iff.1 hpath
    obtain rfl := Path.nil_iff.1 hnil
    refine O.lose _ _ _ _ hact (hσ.sound.wellFormed s m) hmissed (hσ.inv s m) ?_
    have hnext := hgood s m
    rw [hfold] at hnext
    exact hnext

/-- **Observers of runs.** Let `Good` say that all that is known is right, and `Bad` that a step
has an act that is missed. Then `Good` holds in all states of a run from deployment exactly if no
step of the run is `Bad`. -/
theorem throughout_iff (hkey : H.KeysInjective) (hfollows : O.Follows H seen)
    {Good : State Address Hash World → Prop}
    {Bad : State Address Hash World → Step Address Hash Op → Prop}
    (hgood : ∀ σ, Good σ ↔ ∀ s m, O.Good (seen σ s m) (H.record σ s m))
    (hbad : ∀ σ step, Bad σ step ↔ O.Misses H σ step) {w : World}
    (hstart : ∀ s m, seen (State.deployed Address Hash w) s m = O.init) :
    Throughout (SorobanPay.next H) Good (State.deployed Address Hash w) steps ↔
      Along (SorobanPay.next H) (fun σ step => ¬ Bad σ step) (State.deployed Address Hash w)
        steps := by
  have hdeployed : O.Right H seen (State.deployed Address Hash w) :=
    ⟨sound_deployed w, fun s m => by
      rw [hstart]
      exact O.start⟩
  refine throughout_iff_along (O.Right H seen)
    (fun σ hσ => (hgood σ).2 fun s m => O.good _ _ (hσ.inv s m)) ?_ ?_ hdeployed
  · intro σ step hσ hstep
    exact hσ.next hkey hfollows fun hmisses => hstep ((hbad σ step).2 hmisses)
  · intro σ step hσ hnext hstep
    exact ((hbad σ step).1 hstep).not_good hkey hfollows hσ ((hgood _).1 hnext)

end Observer

end SorobanPay
