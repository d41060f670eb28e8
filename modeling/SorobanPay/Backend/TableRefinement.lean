import Mathlib.Data.List.Forall2
import SorobanPay.Backend.Decoding
import SorobanPay.Lifecycle.Announcements
import SorobanPay.Lifecycle.Observer
import SorobanPay.Tokens.Ledger

/-!
# The table of subscriptions against the records of the contract

The indexer service keeps a row for every pair it has seen. The row shows a status and an amount,
and among the events of the contract only the announcements of the pair change what it shows. These
are fewer than the changes of a record: nothing is announced of an update, which has an event of
its own that the service does not decode, or of a transfer.

`tables_mirror_iff` says that this is all that goes wrong. In a run, the rows with status `active`
are those of the live pairs, with their amounts, as long as no subscription is transferred or
updated to a different amount.

## Main definitions

* `Tables.shown`: what the row of a pair shows.
* `Act.show`, `tableObserver`: how the acts on a pair change what its row shows, and which of them
  it does not follow.
* `Mirrors`: the active rows are those of the live pairs.
* `Step.Diverges`: the steps that the service does not follow.

## Main results

* `shown_index`: what the rows show after some events.
* `mirrors_iff`: the rows in terms of the events of the ledger state.
* `tables_mirror_iff`: when the rows of a run are those of the live pairs.
* `not_mirrors_transferred`: when they are not.
-/

set_option autoImplicit false

namespace SorobanPay

open Foundation SubscriptionData

variable {Address Hash World Op : Type}

/-! ### Rows -/

/-- The status and the amount of the row of a pair. -/
def Tables.shown (t : Tables) (s m : String) : Option (RowStatus × String) :=
  (t.subscriptions s m).map fun row => (row.status, row.amount)

/-- How an event changes what the row of the pair `(s, m)` shows. -/
def Event.show [DecidableEq Address] (s m : Address) (shown : Option (RowStatus × String)) :
    Event Address → Option (RowStatus × String)
  | .subscribe s' m' _ amount =>
    if s' = s ∧ m' = m then some (.active, scValToAmount (.ofI128 amount)) else shown
  | .executed s' m' .. => if s' = s ∧ m' = m then shown.map fun v => (.active, v.2) else shown
  | .cancel s' m' _ => if s' = s ∧ m' = m then shown.map fun v => (.cancelled, v.2) else shown
  | _ => shown

/-- The events of the contract as the service receives them, each with the time of its arrival. -/
def Delivers (W : Wire Address) (deliveries : List (ℕ × EventResponse))
    (events : List (Event Address)) : Prop :=
  List.Forall₂ (fun delivery event => Carries W delivery.2 event) deliveries events

theorem exists_delivers (W : Wire Address) (events : List (Event Address)) :
    ∃ deliveries, Delivers W deliveries events := by
  induction events with
  | nil => exact ⟨[], .nil⟩
  | cons event events ih =>
    obtain ⟨deliveries, h⟩ := ih
    exact ⟨(0, ⟨"", 0, none, none, event.topics W, some event.value⟩) :: deliveries,
      .cons ⟨rfl, rfl⟩ h⟩

section Rows

variable [DecidableEq Address] {W : Wire Address} {sdk : Sdk} {t : Tables} {now : ℕ}
  {raw : EventResponse} {event : Event Address} {deliveries : List (ℕ × EventResponse)}
  {events : List (Event Address)}

theorem index_cons (delivery : ℕ × EventResponse) :
    index sdk t (delivery :: deliveries) =
      index sdk ((decodeEvent sdk delivery.1 delivery.2).elim t (persistEvent t)) deliveries := by
  unfold index
  cases h : decodeEvent sdk delivery.1 delivery.2 <;> simp [h]

omit [DecidableEq Address] in
/-- An event that is persisted changes the row of its own pair only. -/
theorem shown_persistEvent (decoded : DecodedEvent) (S M : String) :
    (persistEvent t decoded).shown S M =
      if S = decoded.subscriber ∧ M = decoded.merchant then
        ((decoded.apply (t.subscriptions S M)).map fun row => (row.status, row.amount))
      else t.shown S M := by
  rw [Tables.shown, persistEvent_subscriptions]
  split_ifs <;> rfl

/-- One event, seen at the row of a pair. -/
theorem shown_of_carries (h : Carries W raw event) (s m : Address) :
    ((decodeEvent sdk now raw).elim t (persistEvent t)).shown (W.text s) (W.text m) =
      event.show s m (t.shown (W.text s) (W.text m)) := by
  rw [decodeEvent_of_carries h]
  cases event with
  | subscribe s' m' | executed s' m' | cancel s' m' | paymentTransferFailure s' m' =>
    simp only [Event.report, Option.map_some, Option.elim_some, shown_persistEvent,
      W.text_injective.eq_iff, Event.show]
    by_cases hpair : s' = s ∧ m' = m
    · obtain ⟨rfl, rfl⟩ := hpair
      cases hrow : t.subscriptions (W.text s') (W.text m') <;>
        simp [DecodedEvent.apply, EventType.status, Tables.shown, hrow, Event.value]
    · have hpair' : ¬ (s = s' ∧ m = m') := fun hp => hpair ⟨hp.1.symm, hp.2.symm⟩
      simp [hpair, hpair']
  | _ => rfl

theorem shown_index (h : Delivers W deliveries events) (s m : Address) :
    (index sdk t deliveries).shown (W.text s) (W.text m) =
      events.foldl (Event.show s m) (t.shown (W.text s) (W.text m)) := by
  induction h generalizing t with
  | nil => rfl
  | cons hd _ ih => rw [index_cons, ih, shown_of_carries hd, List.foldl_cons]

omit [DecidableEq Address] in
/-- Only pairs of the contract have rows. -/
theorem shown_index_eq_none (h : Delivers W deliveries events) {S M : String}
    (hpair : ∀ s m : Address, ¬ (W.text s = S ∧ W.text m = M)) (ht : t.shown S M = none) :
    (index sdk t deliveries).shown S M = none := by
  induction h generalizing t with
  | nil => exact ht
  | @cons delivery event _ _ hd _ ih =>
    rw [index_cons]
    refine ih ?_
    rw [decodeEvent_of_carries hd]
    rcases event.report with _ | ⟨type, s, m⟩
    · exact ht
    · rw [Option.map_some, Option.elim_some, shown_persistEvent,
        if_neg fun hp => hpair s m ⟨hp.1.symm, hp.2.symm⟩]
      exact ht

end Rows

/-! ### Acts -/

/-- How an act on a pair changes what its row shows. -/
def Act.show (shown : Option (RowStatus × String)) : Act Address → Option (RowStatus × String)
  | .subscribe _ d => some (.active, scValToAmount (.ofI128 d.amount))
  | .collect .. => shown.map fun v => (.active, v.2)
  | .cancel _ => shown.map fun v => (.cancelled, v.2)
  | _ => shown

/-- The row of a pair is active with the amount of its record, or not active if there is none. -/
def Shows (shown : Option (RowStatus × String)) (r : Option (SubscriptionData Address)) : Prop :=
  ∀ A, shown = some (.active, A) ↔ ∃ d, r = some d ∧ toString d.amount = A

/-- The acts that the row of a pair does not follow: transfers, and updates of the amount. -/
def Act.Unseen (r : Option (SubscriptionData Address)) : Act Address → Prop
  | .update _ amount _ => ∃ d, r = some d ∧ d.amount ≠ amount
  | .moveOut _ | .moveIn .. => True
  | _ => False

theorem scValToAmount_of_valid {amount : ℤ} {interval : ℕ} (h : ValidTerms amount interval) :
    scValToAmount (.ofI128 amount) = toString amount := by
  have hmax := h.amount_le
  have hpos := h.amount_pos
  rw [maxAmount] at hmax
  exact scValToAmount_ofI128 (by omega) (by omega)

theorem shows_some {shown : Option (RowStatus × String)} {d : SubscriptionData Address} :
    Shows shown (some d) ↔ shown = some (.active, toString d.amount) := by
  constructor
  · intro h
    exact (h _).2 ⟨d, rfl, rfl⟩
  · rintro rfl A
    simp

/-- The row follows the other acts. -/
theorem Lifecycle.shows {r r' : Option (SubscriptionData Address)} {a : Act Address}
    {shown : Option (RowStatus × String)} (h : Lifecycle r a r') (hseen : ¬ a.Unseen r)
    (hshows : Shows shown r) : Shows (a.show shown) r' := by
  cases h with
  | subscribe _ terms =>
    rw [shows_some, Act.show, opened_amount, scValToAmount_of_valid terms]
  | @update d now amount interval terms =>
    have hsame : d.amount = amount := not_not.1 fun hne => hseen ⟨d, rfl, hne⟩
    rw [shows_some] at hshows ⊢
    rw [withTerms_amount, ← hsame]
    exact hshows
  | pause | resume | markOverdue =>
    rw [shows_some] at hshows ⊢
    exact hshows
  | collect =>
    rw [shows_some] at hshows ⊢
    rw [Act.show, hshows]
    rfl
  | @cancel d =>
    rw [shows_some] at hshows
    rw [Act.show, hshows]
    intro A
    simp
  | moveOut | moveIn => exact (hseen trivial).elim

theorem Act.show_of_unseen {r : Option (SubscriptionData Address)} {a : Act Address}
    (h : a.Unseen r) (shown : Option (RowStatus × String)) : a.show shown = shown := by
  cases a <;> first | rfl | exact h.elim

/-- After one of these acts a row that was right is wrong. -/
theorem Lifecycle.not_shows {r r' : Option (SubscriptionData Address)} {a : Act Address}
    {shown : Option (RowStatus × String)} (h : Lifecycle r a r')
    (wf : ∀ d, r = some d → d.WellFormed) (hunseen : a.Unseen r) (hshows : Shows shown r) :
    ¬ Shows (a.show shown) r' := by
  rw [Act.show_of_unseen hunseen]
  intro hafter
  cases h with
  | @update d _ amount _ terms =>
    obtain ⟨_, hsame, hne⟩ := hunseen
    obtain rfl := Option.some.inj hsame
    rw [shows_some] at hshows hafter
    have htext := (Prod.mk.inj (Option.some.inj (hshows.symm.trans hafter))).2
    rw [withTerms_amount] at htext
    exact hne (toString_int_injective htext)
  | moveOut =>
    obtain ⟨d, hd, -⟩ := (hafter _).1 (shows_some.1 hshows)
    cases hd
  | moveIn =>
    obtain ⟨d, hd, -⟩ := (hshows _).1 (shows_some.1 hafter)
    cases hd
  | subscribe | pause | resume | collect | markOverdue | cancel => exact hunseen

/-- The row of a pair as an observer of the pair. -/
def tableObserver : Observer Address (Option (RowStatus × String)) where
  init := none
  note := Act.show
  Good := Shows
  Inv := Shows
  Missed r a := a.Unseen r
  plain r a h := by cases a <;> first | exact h.elim | trivial
  good _ _ h := h
  start A := by simp
  keep _ _ _ _ h hseen hshows := h.shows hseen hshows
  lose _ _ _ _ h wf hunseen hshows := h.not_shows wf hunseen hshows

/-- What a row shows is read off the announcements. -/
theorem reads_show [DecidableEq Address] :
    Observer.Reads (tableObserver : Observer Address (Option (RowStatus × String))) Event.show where
  skip s m v event h := by cases event <;> first | rfl | cases h
  silent v a h := by cases a <;> first | rfl | cases h
  subscribe _ _ _ _ _ _ _ _ _ _ := rfl
  executed _ _ _ _ _ _ _ := rfl
  cancel _ _ _ _ _ _ := rfl

/-! ### Runs -/

section Runs

variable [DecidableEq Address] {H : Host Address Hash World Op} {W : Wire Address} {sdk : Sdk}
  {σ : State Address Hash World}

/-- However the events reach the service, the rows with status `active` are those of the live pairs,
each with the amount of the record. -/
def Mirrors (H : Host Address Hash World Op) (W : Wire Address) (sdk : Sdk)
    (σ : State Address Hash World) : Prop :=
  ∀ deliveries, Delivers W deliveries σ.events → ∀ S M A,
    (index sdk .empty deliveries).shown S M = some (.active, A) ↔
      ∃ s m d, W.text s = S ∧ W.text m = M ∧ H.record σ s m = some d ∧ toString d.amount = A

/-- The rows in terms of the events of the ledger state. -/
theorem mirrors_iff :
    Mirrors H W sdk σ ↔
      ∀ s m, Shows (σ.events.foldl (Event.show s m) none) (H.record σ s m) := by
  constructor
  · intro h s m A
    obtain ⟨deliveries, hdeliveries⟩ := exists_delivers W σ.events
    have hshown := h deliveries hdeliveries (W.text s) (W.text m) A
    rw [shown_index hdeliveries] at hshown
    refine hshown.trans ⟨?_, fun ⟨d, hd, hA⟩ => ⟨s, m, d, rfl, rfl, hd, hA⟩⟩
    rintro ⟨s', m', d, hs, hm, hd, hA⟩
    rw [W.text_injective hs, W.text_injective hm] at hd
    exact ⟨d, hd, hA⟩
  · intro h deliveries hdeliveries S M A
    by_cases hpair : ∃ s m : Address, W.text s = S ∧ W.text m = M
    · obtain ⟨s, m, rfl, rfl⟩ := hpair
      rw [shown_index hdeliveries]
      refine (h s m A).trans ⟨fun ⟨d, hd, hA⟩ => ⟨s, m, d, rfl, rfl, hd, hA⟩, ?_⟩
      rintro ⟨s', m', d, hs, hm, hd, hA⟩
      rw [W.text_injective hs, W.text_injective hm] at hd
      exact ⟨d, hd, hA⟩
    · rw [shown_index_eq_none hdeliveries (fun s m hp => hpair ⟨s, m, hp⟩) rfl]
      constructor
      · intro hnone
        cases hnone
      · rintro ⟨s, m, d, hs, hm, -⟩
        exact (hpair ⟨s, m, hs, hm⟩).elim

variable [DecidableEq Hash] {step : Step Address Hash Op} {steps : List (Step Address Hash Op)}

/-- The step transfers a subscription, or updates one to a different amount. -/
def Step.Diverges (H : Host Address Hash World Op) (σ : State Address Hash World)
    (step : Step Address Hash Op) : Prop :=
  (∃ s old new, step.Performs H σ (.transferSubscription s old new)) ∨
    ∃ s m amount interval d, step.Performs H σ (.updateSubscription s m amount interval) ∧
      H.record σ s m = some d ∧ d.amount ≠ amount

/-- The acts that the rows do not follow are those of a transfer or of an update. -/
theorem misses_tableObserver_iff :
    tableObserver.Misses H σ step ↔ step.Diverges H σ := by
  constructor
  · rintro ⟨μ, hμ, s, m, a, ha, hunseen⟩
    have hdone := MicroStep.doneBy_of_mem_acts ha
    cases a with
    | update now amount interval =>
      obtain ⟨hbefore, hperforms⟩ := performs_of_applied hμ hdone
      rw [hbefore] at hunseen
      obtain ⟨d, hd, hne⟩ := hunseen
      exact .inr ⟨s, m, amount, interval, d, hperforms, hd, hne⟩
    | moveOut =>
      obtain ⟨new, hdeed⟩ := hdone
      exact .inl ⟨s, m, new, (performs_of_applied hμ hdeed).2⟩
    | moveIn =>
      obtain ⟨old, hdeed⟩ := hdone
      exact .inl ⟨s, old, m, (performs_of_applied hμ hdeed).2⟩
    | subscribe | pause | resume | collect | markOverdue | cancel => exact hunseen.elim
  · rintro (⟨s, old, new, hperforms⟩ | ⟨s, m, amount, interval, d, hperforms, hd, hne⟩)
    · refine ⟨_, hperforms.mem_microSteps trivial, s, old, .moveOut step.env.timestamp, ?_, trivial⟩
      simp [MicroStep.acts, Call.acts]
    · refine ⟨_, hperforms.mem_microSteps trivial, s, m, .update step.env.timestamp amount interval,
        ?_, d, hd, hne⟩
      simp [MicroStep.acts, Call.acts]

/-- **When the rows are those of the live pairs.** In a run from deployment the rows with status
`active` are those of the live pairs with their amounts, in every state, exactly if no step of the
run transfers a subscription or updates one to a different amount. -/
theorem tables_mirror_iff (hkey : H.KeysInjective) {w : World} :
    Throughout (next H) (Mirrors H W sdk) (State.deployed Address Hash w) steps ↔
      Along (next H) (fun σ step => ¬ step.Diverges H σ) (State.deployed Address Hash w) steps :=
  Observer.throughout_iff hkey reads_show.follows (fun _ => mirrors_iff)
    (fun _ _ => misses_tableObserver_iff.symm) fun _ _ => rfl

end Runs

/-- A subscription that is collected, and updated without changing its amount. -/
def sampleFollowed : List (Step UInt8 (List UInt8) (External UInt8)) :=
  [sampleStep 1 (.subscribe 1 2 9 100 86400 false none),
    sampleStep 86401 (.batchExecutePayment 2 9 [1]),
    sampleStep 86402 (.updateSubscription 1 2 100 172800)]

/-- After a transfer the row of the old merchant is still active. -/
theorem not_mirrors_transferred :
    ¬ Mirrors sampleHost sampleWire sampleSdk (after (next sampleHost) sampleStart
      [sampleStep 1 (.subscribe 1 2 9 100 86400 false none),
        sampleStep 2 (.transferSubscription 1 2 3)]) := by
  intro h
  obtain ⟨s, m, d, hs, hm, hd, -⟩ := (h
    [(0, sampleResponse "1" 1 (.subscribe 1 2 9 100)),
      (0, sampleResponse "2" 2 (.subscriptionTransferred 1 2 3))]
    (.cons ⟨rfl, rfl⟩ (.cons ⟨rfl, rfl⟩ .nil)) (sampleWire.text 1) (sampleWire.text 2) "100").1 rfl
  obtain rfl := sampleWire.text_injective hs
  obtain rfl := sampleWire.text_injective hm
  cases hd

theorem tables_mirror_sample :
    Throughout (next sampleHost) (Mirrors sampleHost sampleWire sampleSdk) sampleStart
        sampleFollowed ↔
      Along (next sampleHost) (fun σ step => ¬ step.Diverges sampleHost σ) sampleStart
        sampleFollowed :=
  tables_mirror_iff sampleHost_keysInjective

end SorobanPay
