import SorobanPay.Lifecycle.Announcements

/-!
# One charge of a pair in a transaction

A batch may list a subscriber more than once, and an `executed` event does not say which entry it
comes from. No pair is charged twice all the same: the first charge puts the next payment after the
time of the batch, and every later entry of the subscriber finds the record not due.

## Main definitions

* `Event.executedPair`: the pair of an `executed` event.
* `NotDue`: the record of a pair, if there is one, is not due.
* `charges`: the subscribers that a batch has charged.
* `publishedBy`: the events that a step publishes.

## Main results

* `nodup_charges`: no subscriber is charged twice by the entries of a batch.
* `nodup_executedPairs`: the `executed` events of a step are of different pairs.
-/

set_option autoImplicit false

namespace SorobanPay

open Foundation

variable {Address Hash World Op : Type}

/-- The pair of an `executed` event. -/
def Event.executedPair : Event Address → Option (Address × Address)
  | .executed s m _ _ _ => some (s, m)
  | _ => none

/-- The pairs of the `executed` events among some events. -/
def executedPairs (events : List (Event Address)) : List (Address × Address) :=
  events.filterMap Event.executedPair

theorem executedPairs_filter_announces (events : List (Event Address)) :
    executedPairs (events.filter Event.announces) = executedPairs events := by
  rw [executedPairs, executedPairs, List.filterMap_filter]
  congr 1
  funext event
  cases event <;> rfl

section Steps

variable [DecidableEq Address] {H : Host Address Hash World Op} {env : Env Address}
  {config : Option (ProtocolFeeConfig Address)} {σ σ' : State Address Hash World} {s s' m : Address}
  {charged : Bool}

/-! ### Entries of a batch -/

/-- The record of a pair, if there is one, is not due. -/
def NotDue (H : Host Address Hash World Op) (now : ℕ) (σ : State Address Hash World)
    (s m : Address) : Prop :=
  ∀ d, H.record σ s m = some d → now < d.nextPayment

variable [DecidableEq Hash]

/-- A charge finds a record that is due and leaves one that is not. -/
theorem EntryStep.due (hkey : H.KeysInjective) (h : EntryStep H env config s m σ true σ')
    (hσ : Sound H σ) :
    ¬ NotDue H env.timestamp σ s m ∧ NotDue H env.timestamp σ' s m := by
  cases h with
  | @charged d w fees hr due charge =>
    refine ⟨fun hnot => (hnot d hr).not_ge due, fun d' hd' => ?_⟩
    have hd' : H.record (σ.settle (H.subscriptionKey s m) d env.timestamp w fees) s m = some d' :=
      hd'
    rw [State.settle, Host.record_setSubscription hkey, if_pos ⟨rfl, rfl⟩] at hd'
    rw [← Option.some.inj hd']
    exact Nat.lt_add_of_pos_right (hσ.wellFormed s m d hr).interval_pos

/-- An entry leaves a record that is not due so. -/
theorem EntryStep.keeps_notDue (hkey : H.KeysInjective)
    (h : EntryStep H env config s m σ charged σ') (hs' : NotDue H env.timestamp σ s' m) :
    NotDue H env.timestamp σ' s' m := by
  cases h with
  | absent | notDue | lowAllowance => exact hs'
  | @underfunded d b hr due approved hb low =>
    intro d' hd'
    have hne : ¬ (s' = s ∧ m = m) := fun heq => (hs' d (heq.1 ▸ hr)).not_ge due
    have hd' : H.record (σ.setSubscription (H.subscriptionKey s m) (d.overdue env.timestamp)) s' m =
      some d' := hd'
    rw [Host.record_setSubscription hkey, if_neg hne] at hd'
    exact hs' d' hd'
  | @charged d w fees hr due charge =>
    intro d' hd'
    have hne : ¬ (s' = s ∧ m = m) := fun heq => (hs' d (heq.1 ▸ hr)).not_ge due
    have hd' : H.record (σ.settle (H.subscriptionKey s m) d env.timestamp w fees) s' m = some d' :=
      hd'
    rw [State.settle, Host.record_setSubscription hkey, if_neg hne] at hd'
    exact hs' d' hd'

/-- The subscribers that the reports of a batch say have been charged. -/
def charges (results : List (Address × Bool)) : List Address :=
  results.filterMap fun report => if report.2 then some report.1 else none

/-- **No subscriber is charged twice** by the entries of a batch, and none whose record is not due.
-/
theorem nodup_charges (hkey : H.KeysInjective) {subscribers : List Address}
    {results : List (Address × Bool)} (auth : H.authorizes env m = true) (hnow : 0 < env.timestamp)
    (hconfig : σ.protocolFee = config)
    (h : (batchLoop H env config env.timestamp m subscribers).Returns σ results σ')
    (hσ : Sound H σ) :
    (charges results).Nodup ∧ ∀ s, NotDue H env.timestamp σ s m → s ∉ charges results := by
  induction subscribers generalizing σ results with
  | nil =>
    obtain ⟨rfl, -⟩ := returns_batchLoop_nil.1 h
    exact ⟨List.nodup_nil, fun s _ => by simp [charges]⟩
  | cons s subscribers ih =>
    obtain ⟨charged, τ, hentry, rest, hrest, rfl⟩ := returns_batchLoop_cons.1 h
    have hgen : MicroStep.Genuine H ⟨env, σ, .entry s m charged, τ⟩ :=
      .entry auth hnow (hconfig ▸ hentry)
    obtain ⟨hnodup, hnone⟩ := ih (hentry.protocolFee_eq.trans hconfig) hrest (hgen.sound hkey hσ)
    cases charged with
    | false => exact ⟨hnodup, fun s' hs' => hnone s' (hentry.keeps_notDue hkey hs')⟩
    | true =>
      obtain ⟨hdue, hnotDue⟩ := hentry.due hkey hσ
      have hcons : charges ((s, true) :: rest) = s :: charges rest := rfl
      rw [hcons, List.nodup_cons]
      refine ⟨⟨hnone s hnotDue, hnodup⟩, fun s' hs' hmem => ?_⟩
      rcases List.mem_cons.1 hmem with rfl | hmem
      · exact hdue hs'
      · exact hnone s' (hentry.keeps_notDue hkey hs') hmem

/-- What the entries of a batch announce is whom they have charged. -/
theorem executedPairs_entrySteps {subscribers : List Address} {results : List (Address × Bool)}
    (h : (batchLoop H env config env.timestamp m subscribers).Returns σ results σ') :
    executedPairs ((entrySteps H env config m σ subscribers).flatMap
        (MicroStep.announcements H)) = (charges results).map fun s => (s, m) := by
  induction subscribers generalizing σ results with
  | nil =>
    obtain ⟨rfl, -⟩ := returns_batchLoop_nil.1 h
    rfl
  | cons s subscribers ih =>
    obtain ⟨charged, τ, hentry, rest, hrest, rfl⟩ := returns_batchLoop_cons.1 h
    have hrun : (batchEntry H env config env.timestamp m s).run σ = (.ok charged, τ) :=
      returns_batchEntry.2 hentry
    simp only [entrySteps, hrun, List.flatMap_cons]
    rw [executedPairs, List.filterMap_append, ← executedPairs, ← executedPairs, ih hrest]
    cases charged with
    | false => rfl
    | true =>
      cases hentry with
      | charged hr => simp [MicroStep.announcements, hr, executedPairs, Event.executedPair, charges]

/-- No subscriber is charged twice by a batch. -/
theorem nodup_charges_batch (hkey : H.KeysInjective) (hσ : Sound H σ) {token : Address}
    {subscribers : List Address} {results : List (Address × Bool)}
    (h : (batchExecutePayment H env m token subscribers).Returns σ results σ') :
    (charges results).Nodup := by
  obtain ⟨auth, -, -, hnow, hloop⟩ := returns_batchExecutePayment.1 h
  have hgen : MicroStep.Genuine H ⟨env, σ, .opened m subscribers.length,
      σ.publish (.batchExecuteInitiated m subscribers.length)⟩ := .opened
  exact (nodup_charges hkey auth hnow rfl hloop (hgen.sound hkey hσ)).1

/-! ### Steps -/

/-- The micro steps of a batch announce whom it has charged. -/
theorem executedPairs_microSteps_batch {token : Address} {subscribers : List Address}
    {results : List (Address × Bool)}
    (h : (batchExecutePayment H env m token subscribers).Returns σ results σ') :
    executedPairs ((microSteps H σ (batchStep Op Hash env m token subscribers)).flatMap
        (MicroStep.announcements H)) = (charges results).map fun s => (s, m) := by
  have hrun := returns_run_batch.2 ⟨results, h, rfl⟩
  obtain ⟨-, -, -, -, hloop⟩ := returns_batchExecutePayment.1 h
  simp only [microSteps_of_returns hrun, callSteps, List.flatMap_cons]
  rw [executedPairs, List.filterMap_append, ← executedPairs, ← executedPairs,
    executedPairs_entrySteps hloop]
  rfl

/-- **At most one charge of a pair in a step.** -/
theorem nodup_executedPairs_microSteps (hkey : H.KeysInjective) (hσ : Sound H σ)
    (step : Step Address Hash Op) :
    (executedPairs ((microSteps H σ step).flatMap (MicroStep.announcements H))).Nodup := by
  obtain ⟨env, action⟩ := step
  cases action with
  | lapse | external => exact List.nodup_nil
  | invoke call =>
    rcases (call.run H env).returns_or_fails σ with ⟨reply, τ, hr⟩ | ⟨e, hf⟩
    · cases call with
      | executePayment s m token =>
        simp only [microSteps_of_returns hr, callSteps, List.flatMap_singleton,
          MicroStep.announcements]
        cases H.record σ s m <;> simp [executedPairs, Event.executedPair]
      | batchExecutePayment m token subscribers =>
        obtain ⟨results, hbatch, -⟩ := returns_run_batch.1 hr
        rw [executedPairs_microSteps_batch hbatch]
        exact (nodup_charges_batch hkey hσ hbatch).map fun s s' h => (Prod.mk.inj h).1
      | _ =>
        rw [microSteps_of_returns hr]
        exact List.nodup_nil
    · rw [microSteps_of_fails hf]
      exact List.nodup_nil

/-- The events that a step publishes. -/
def publishedBy (H : Host Address Hash World Op) (σ : State Address Hash World)
    (step : Step Address Hash Op) : List (Event Address) :=
  (next H σ step).events.drop σ.events.length

theorem exists_events_of_path {μs : List (MicroStep Address Hash World Op)}
    (hkey : H.KeysInjective) (h : Path (Leads H) σ μs σ') (hσ : Sound H σ) :
    ∃ events, σ'.events = σ.events ++ events := by
  induction h with
  | nil => exact ⟨[], (List.append_nil _).symm⟩
  | cons hd _ ih =>
    obtain ⟨rfl, rfl, hgen⟩ := hd
    obtain ⟨events, hevents, -⟩ := hgen.announced hσ
    obtain ⟨events', hevents'⟩ := ih (hgen.sound hkey hσ)
    exact ⟨events ++ events', by rw [hevents', hevents, List.append_assoc]⟩

/-- A step leaves the events that have been published. -/
theorem events_next (hkey : H.KeysInjective) (hσ : Sound H σ) (step : Step Address Hash Op) :
    (next H σ step).events = σ.events ++ publishedBy H σ step := by
  obtain ⟨events, hevents⟩ := exists_events_of_path hkey (path_microSteps (H := H) σ step) hσ
  rw [publishedBy, hevents, List.drop_left]

/-- The `executed` events of a step are those that its micro steps announce. -/
theorem executedPairs_publishedBy (hkey : H.KeysInjective) (hσ : Sound H σ)
    (step : Step Address Hash Op) : executedPairs (publishedBy H σ step) =
      executedPairs ((microSteps H σ step).flatMap (MicroStep.announcements H)) := by
  have hannounced := filter_announces_of_path hkey (path_microSteps (H := H) σ step) hσ
  rw [events_next hkey hσ, List.filter_append, List.append_cancel_left_eq] at hannounced
  rw [← executedPairs_filter_announces, hannounced]

/-- **The `executed` events of a step are of different pairs.** -/
theorem nodup_executedPairs (hkey : H.KeysInjective) (hσ : Sound H σ)
    (step : Step Address Hash Op) : (executedPairs (publishedBy H σ step)).Nodup := by
  rw [executedPairs_publishedBy hkey hσ]
  exact nodup_executedPairs_microSteps hkey hσ step

end Steps

end SorobanPay
