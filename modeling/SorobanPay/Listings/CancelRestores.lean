import SorobanPay.Listings.Roster

/-!
# Cancellation restores the storage before the subscription

A subscriber may subscribe to a merchant several times, and the hash of the pair is then several
times in the index of the merchant, and the subscriber once in its roster. `cancel` removes all of
them, and a list that becomes empty is not stored any more. What is stored without the pair is
therefore kept by whatever happens to the pair, and it is all that is stored after `cancel`.

## Main definitions

* `Compact`: no empty list is stored.
* `Call.OfPair`, `Step.OfPair`: steps that are about one pair.
* `SameWithout`: two states that agree, but for a pair.

## Main results

* `Reachable.compact`: in reachable states no empty list is stored.
* `sameWithout_next`: what the steps of a pair keep.
* `cancel_restores`: the records, indexes and rosters after `cancel`.
-/

set_option autoImplicit false

namespace SorobanPay

open Foundation

variable {Address Hash World Op : Type} {H : Host Address Hash World Op} {env : Env Address}
  {σ σ' σ₀ : State Address Hash World}

/-! ### Lists that are stored -/

/-- No empty list is stored. -/
structure Compact (σ : State Address Hash World) : Prop where
  index : ∀ m, σ.merchantIndex m ≠ some []
  roster : ∀ m, σ.merchantSubscribers m ≠ some []

theorem compact_deployed (w : World) : Compact (State.deployed Address Hash w) where
  index _ h := by cases h
  roster _ h := by cases h

theorem State.stored_ne {α : Type} (l : List α) : State.stored l ≠ some [] := by
  cases l <;> simp [State.stored]

/-- A list that is not an empty one is stored as it is. -/
theorem State.stored_getD_nil {α : Type} {l : Option (List α)} (h : l ≠ some []) :
    State.stored (l.getD []) = l := by
  rcases l with _ | _ | ⟨a, l⟩
  · rfl
  · exact (h rfl).elim
  · rfl

section Lists

variable [DecidableEq Address] {s m : Address} {hash : Hash}

theorem Compact.setMerchantIndex (hσ : Compact σ) {index : Option (List Hash)}
    (h : index ≠ some []) : Compact (σ.setMerchantIndex m index) where
  index m' := by
    rw [State.setMerchantIndex_merchantIndex, Function.update_apply]
    split_ifs
    · exact h
    · exact hσ.index m'
  roster := hσ.roster

theorem Compact.setMerchantSubscribers (hσ : Compact σ) {roster : Option (List Address)}
    (h : roster ≠ some []) : Compact (σ.setMerchantSubscribers m roster) where
  index := hσ.index
  roster m' := by
    rw [State.setMerchantSubscribers_merchantSubscribers, Function.update_apply]
    split_ifs
    · exact h
    · exact hσ.roster m'

theorem Compact.indexAdd (hσ : Compact σ) : Compact (σ.indexAdd m hash) :=
  hσ.setMerchantIndex (by simp)

theorem Compact.indexRemove [DecidableEq Hash] (hσ : Compact σ) :
    Compact (σ.indexRemove m hash) := by
  rw [State.indexRemove_eq]
  exact hσ.setMerchantIndex (State.stored_ne _)

theorem Compact.rosterAdd (hσ : Compact σ) : Compact (σ.rosterAdd m s) := by
  rw [State.rosterAdd_eq]
  refine hσ.setMerchantSubscribers ?_
  split_ifs
  · exact hσ.roster m
  · simp

theorem Compact.rosterRemove (hσ : Compact σ) : Compact (σ.rosterRemove m s) := by
  rw [State.rosterRemove_eq]
  exact hσ.setMerchantSubscribers (State.stored_ne _)

end Lists

/-- What changes neither an index nor a roster. -/
theorem Compact.congr (hσ : Compact σ) (hindex : σ'.merchantIndex = σ.merchantIndex)
    (hroster : σ'.merchantSubscribers = σ.merchantSubscribers) : Compact σ' where
  index m := by rw [hindex]; exact hσ.index m
  roster m := by rw [hroster]; exact hσ.roster m

theorem Compact.publish (hσ : Compact σ) {event : Event Address} : Compact (σ.publish event) :=
  hσ.congr rfl rfl

section Runs

variable [DecidableEq Address] [DecidableEq Hash]

theorem compact_next (hσ : Compact σ) (step : Step Address Hash Op) :
    Compact (next H σ step) := by
  by_cases hlists : ∃ call, step.Performs H σ call ∧ call.Lists
  · obtain ⟨call, ⟨-, reply, h⟩, hl⟩ := hlists
    generalize next H σ step = σ' at h
    cases call with
    | subscribe s m token amount interval strict gracePeriod =>
      obtain ⟨-, -, -, -, -, -, allowance, -, -, -, rfl⟩ :=
        returns_subscribe.1 (Tx.returns_bind_const.1 h).1
      rw [State.noteAllowance_eq]
      refine .publish (.rosterAdd (.indexAdd ?_))
      exact hσ.congr rfl rfl
    | cancel s m token =>
      obtain ⟨-, -, rfl⟩ := returns_cancel.1 (Tx.returns_bind_const.1 h).1
      refine .publish (.rosterRemove (.indexRemove ?_))
      exact hσ.congr rfl rfl
    | transferSubscription s m m' =>
      obtain ⟨-, -, -, -, d, -, -, rfl⟩ :=
        returns_transferSubscription.1 (Tx.returns_bind_const.1 h).1
      refine .publish (.indexAdd (.indexRemove ?_))
      exact hσ.congr rfl rfl
    | _ => exact False.elim hl
  · have hsame := sameListing_next hlists
    exact hσ.congr hsame.index hsame.roster

theorem Reachable.compact (h : Reachable H σ) : Compact σ := by
  obtain ⟨w, steps, rfl⟩ := h
  have hstep : ∀ (σ : State Address Hash World) (step : Step Address Hash Op),
      Compact σ → Compact (next H σ step) := fun _ step hσ => compact_next hσ step
  exact after_invariant hstep (compact_deployed w) steps

end Runs

/-! ### What the steps of a pair keep -/

/-- The entry points that are about a pair, but for the one that transfers it and the one that
cancels it. -/
def Call.OfPair (s m : Address) : Call Address → Prop
  | .subscribe s' m' .. | .updateSubscription s' m' .. | .pauseSubscription s' m' ..
  | .resumeSubscription s' m' .. | .executePayment s' m' _ => s' = s ∧ m' = m
  | .batchExecutePayment m' _ subscribers => m' = m ∧ ∀ s' ∈ subscribers, s' = s
  | _ => False

/-- The steps that are about a pair, and those that are about no subscription. -/
def Step.OfPair (s m : Address) (step : Step Address Hash Op) : Prop :=
  match step.action with
  | .invoke call => call.OfPair s m
  | .lapse _ | .external _ => True

section Window

variable [DecidableEq Address] [DecidableEq Hash] {s m : Address}

/-- The states agree, but for the record of a pair and its places in the lists of the merchant. -/
structure SameWithout (H : Host Address Hash World Op) (s m : Address)
    (σ₀ σ : State Address Hash World) : Prop where
  records : ∀ hash ≠ H.subscriptionKey s m, σ.subscriptions hash = σ₀.subscriptions hash
  index : ∀ m' ≠ m, σ.merchantIndex m' = σ₀.merchantIndex m'
  roster : ∀ m' ≠ m, σ.merchantSubscribers m' = σ₀.merchantSubscribers m'
  keys : ((σ.merchantIndex m).getD []).filter (· ≠ H.subscriptionKey s m) =
    ((σ₀.merchantIndex m).getD []).filter (· ≠ H.subscriptionKey s m)
  subscribers : ((σ.merchantSubscribers m).getD []).filter (· ≠ s) =
    ((σ₀.merchantSubscribers m).getD []).filter (· ≠ s)

theorem SameWithout.refl (σ : State Address Hash World) : SameWithout H s m σ σ :=
  ⟨fun _ _ => rfl, fun _ _ => rfl, fun _ _ => rfl, rfl, rfl⟩

/-- What writes no other record and changes neither an index nor a roster. -/
theorem SameWithout.congr (h : SameWithout H s m σ₀ σ)
    (hrecords : ∀ hash ≠ H.subscriptionKey s m, σ'.subscriptions hash = σ.subscriptions hash)
    (hindex : σ'.merchantIndex = σ.merchantIndex)
    (hroster : σ'.merchantSubscribers = σ.merchantSubscribers) : SameWithout H s m σ₀ σ' where
  records hash hne := (hrecords hash hne).trans (h.records hash hne)
  index := by rw [hindex]; exact h.index
  roster := by rw [hroster]; exact h.roster
  keys := by rw [hindex]; exact h.keys
  subscribers := by rw [hroster]; exact h.subscribers

theorem SameWithout.indexAdd (h : SameWithout H s m σ₀ σ) :
    SameWithout H s m σ₀ (σ.indexAdd m (H.subscriptionKey s m)) where
  records := h.records
  index m' hne := by
    rw [State.indexAdd, State.setMerchantIndex_merchantIndex, Function.update_of_ne hne]
    exact h.index m' hne
  roster := h.roster
  keys := by
    rw [State.indexAdd, State.setMerchantIndex_merchantIndex, Function.update_self,
      Option.getD_some, List.filter_append, h.keys]
    simp
  subscribers := h.subscribers

theorem SameWithout.rosterAdd (h : SameWithout H s m σ₀ σ) :
    SameWithout H s m σ₀ (σ.rosterAdd m s) := by
  rw [State.rosterAdd]
  split_ifs
  · exact h
  · refine ⟨h.records, h.index, fun m' hne => ?_, h.keys, ?_⟩
    · rw [State.setMerchantSubscribers_merchantSubscribers, Function.update_of_ne hne]
      exact h.roster m' hne
    · rw [State.setMerchantSubscribers_merchantSubscribers, Function.update_self,
        Option.getD_some, List.filter_append, h.subscribers]
      simp

/-- **Subscribing** keeps what is stored without the pair. -/
theorem SameWithout.subscribe (h : SameWithout H s m σ₀ σ) {token : Address} {amount : ℤ}
    {interval : ℕ} {strict : Bool} {gracePeriod : Option ℕ} {u : Unit}
    (hr : (SorobanPay.subscribe H env s m token amount interval strict gracePeriod).Returns σ u
      σ') :
    SameWithout H s m σ₀ σ' := by
  obtain ⟨-, -, -, -, -, -, allowance, -, -, -, rfl⟩ := returns_subscribe.1 hr
  rw [State.noteAllowance_eq]
  have hstored : SameWithout H s m σ₀ ((σ.publishAll
      (if allowance < amount then [.lowAllowance s m token allowance amount]
        else [])).setSubscription
        (H.subscriptionKey s m)
        (.opened env.timestamp token amount interval (gracePeriod.getD 0))) :=
    h.congr (fun hash hne => Function.update_of_ne hne _ _) rfl rfl
  exact hstored.indexAdd.rosterAdd.congr (fun _ _ => rfl) rfl rfl

/-- The record of the pair is rewritten. -/
theorem SameWithout.of_update (h : SameWithout H s m σ₀ σ)
    {record : Option (SubscriptionData Address)}
    (hrecords : σ'.subscriptions =
      Function.update σ.subscriptions (H.subscriptionKey s m) record)
    (hindex : σ'.merchantIndex = σ.merchantIndex)
    (hroster : σ'.merchantSubscribers = σ.merchantSubscribers) : SameWithout H s m σ₀ σ' :=
  h.congr (fun hash hne => by rw [hrecords, Function.update_of_ne hne]) hindex hroster

/-- The deeds that are about a pair, and those that are about no subscription. -/
def Deed.OfPair (s m : Address) : Deed Address Hash Op → Prop
  | .applied call => call.OfPair s m
  | .executed s' m' | .entry s' m' _ => s' = s ∧ m' = m
  | .opened .. | .reverted _ | .lapsed _ | .external _ => True

theorem ofPair_of_mem {μ : MicroStep Address Hash World Op} {step : Step Address Hash Op}
    (hstep : step.OfPair s m) (hμ : μ ∈ microSteps H σ step) : μ.deed.OfPair s m := by
  obtain ⟨env, action⟩ := step
  cases action with
  | invoke call =>
    have hcall : call.OfPair s m := hstep
    rcases hr : invoke H env call σ with ⟨e | reply, τ⟩
    · simp only [microSteps, hr, List.mem_singleton] at hμ
      rw [hμ]
      trivial
    cases call with
    | batchExecutePayment m' token subscribers =>
      have hbatch := ofBatch_of_mem hμ
      rcases hdeed : μ.deed with call | ⟨s', m''⟩ | ⟨m'', size⟩ | ⟨s', m'', charged⟩ | call |
        expired | op <;> rw [hdeed] at hbatch
      · exact hbatch.elim
      · exact hbatch.elim
      · trivial
      · obtain rfl : m'' = m' := hbatch
        exact ⟨hcall.2 s' (report_of_mem hμ hdeed).1, hcall.1⟩
      all_goals trivial
    | _ =>
      simp only [microSteps, hr] at hμ
      rw [List.mem_singleton.1 hμ]
      exact hcall
  | lapse expired =>
    rw [List.mem_singleton.1 hμ]
    trivial
  | external op =>
    rw [List.mem_singleton.1 hμ]
    trivial

/-- What happens to a pair keeps what is stored without it. -/
theorem SameWithout.microStep {μ : MicroStep Address Hash World Op} (hμ : μ.Genuine H)
    (hpair : μ.deed.OfPair s m) (h : SameWithout H s m σ₀ μ.before) :
    SameWithout H s m σ₀ μ.after := by
  cases hμ with
  | @applied env σ σ' call reply plain hr =>
    cases call with
    | subscribe =>
      obtain ⟨rfl, rfl⟩ := hpair
      exact h.subscribe (Tx.returns_bind_const.1 hr).1
    | updateSubscription =>
      obtain ⟨rfl, rfl⟩ := hpair
      obtain ⟨-, d, -, -, -, rfl⟩ := returns_updateSubscription.1 (Tx.returns_bind_const.1 hr).1
      exact h.of_update rfl rfl rfl
    | pauseSubscription =>
      obtain ⟨rfl, rfl⟩ := hpair
      obtain ⟨-, d, -, -, -, rfl⟩ := returns_pauseSubscription.1 (Tx.returns_bind_const.1 hr).1
      exact h.of_update rfl rfl rfl
    | resumeSubscription =>
      obtain ⟨rfl, rfl⟩ := hpair
      obtain ⟨-, d, -, -, -, rfl⟩ := returns_resumeSubscription.1 (Tx.returns_bind_const.1 hr).1
      exact h.of_update rfl rfl rfl
    | executePayment | batchExecutePayment => exact plain.elim
    | _ => exact False.elim hpair
  | executed hr =>
    obtain ⟨rfl, rfl⟩ := hpair
    obtain ⟨-, d₀, -, -, d, -, -, -, w, fees, -, rfl⟩ := returns_executePayment.1 hr
    exact h.of_update rfl rfl rfl
  | entry auth hnow he =>
    obtain ⟨rfl, rfl⟩ := hpair
    cases he with
    | absent | notDue => exact h
    | lowAllowance => exact h.congr (fun _ _ => rfl) rfl rfl
    | underfunded | charged => exact h.of_update rfl rfl rfl
  | reverted => exact h
  | opened | lapsed | external => exact h.congr (fun _ _ => rfl) rfl rfl

/-- **What the steps of a pair keep.** -/
theorem sameWithout_next {step : Step Address Hash Op} (hstep : step.OfPair s m)
    (h : SameWithout H s m σ₀ σ) : SameWithout H s m σ₀ (next H σ step) :=
  ((path_microSteps (H := H) σ step).guarded (SameWithout H s m σ₀)
    (fun μ => μ.deed.OfPair s m) (fun _ => True)
    (fun τ μ τ' hτ hμ hl => by
      obtain ⟨rfl, rfl, hgen⟩ := hl
      exact ⟨trivial, hτ.microStep hgen hμ⟩) h
    fun μ hμ => ofPair_of_mem hstep hμ).2

theorem sameWithout_after {steps : List (Step Address Hash Op)}
    (hsteps : ∀ step ∈ steps, step.OfPair s m) :
    SameWithout H s m σ (after (next H) σ steps) := by
  have hall : Along (next H) (fun _ step => step.OfPair s m) σ steps :=
    along_of_forall_mem fun step hmem _ => hsteps step hmem
  have hstep : ∀ (τ : State Address Hash World) (step : Step Address Hash Op),
      SameWithout H s m σ τ → step.OfPair s m → SameWithout H s m σ (next H τ step) :=
    fun _ _ hτ hstep => sameWithout_next hstep hτ
  exact hall.invariant hstep (.refl σ)

/-- An invocation performs a call if it has a reply. -/
theorem performs_of_reply {step : Step Address Hash Op} {call : Call Address}
    (reply : Reply Address) (haction : step.action = .invoke call)
    (h : (invoke H step.env call σ).1 = .ok reply) : step.Performs H σ call := by
  obtain ⟨env, action⟩ := step
  obtain rfl : action = .invoke call := haction
  exact ⟨rfl, reply, returns_of_invoke h⟩

/-! ### Cancellation -/

/-- `cancel` leaves what was stored without the pair, if it was stored without the pair before. -/
theorem SameWithout.cancel (h : SameWithout H s m σ₀ σ) (hcompact : Compact σ₀)
    (hrecord : H.record σ₀ s m = none)
    (hkey : H.subscriptionKey s m ∉ (σ₀.merchantIndex m).getD [])
    (hsubscriber : s ∉ (σ₀.merchantSubscribers m).getD []) {token : Address} {u : Unit}
    (hr : (SorobanPay.cancel H env s m token).Returns σ u σ') :
    σ'.subscriptions = σ₀.subscriptions ∧ σ'.merchantIndex = σ₀.merchantIndex ∧
      σ'.merchantSubscribers = σ₀.merchantSubscribers := by
  obtain ⟨-, -, rfl⟩ := returns_cancel.1 hr
  have hkeys : ((σ₀.merchantIndex m).getD []).filter (· ≠ H.subscriptionKey s m) =
      (σ₀.merchantIndex m).getD [] :=
    List.filter_eq_self.2 fun hash hmem => by simpa using ne_of_mem_of_not_mem hmem hkey
  have hsubscribers : ((σ₀.merchantSubscribers m).getD []).filter (· ≠ s) =
      (σ₀.merchantSubscribers m).getD [] :=
    List.filter_eq_self.2 fun s' hmem => by simpa using ne_of_mem_of_not_mem hmem hsubscriber
  rw [State.indexRemove_eq, State.rosterRemove_eq]
  refine ⟨funext fun hash => ?_, funext fun m' => ?_, funext fun m' => ?_⟩
  · change Function.update σ.subscriptions _ none hash = _
    rw [Function.update_apply]
    split_ifs with hhash
    · rw [hhash]
      exact hrecord.symm
    · exact h.records hash hhash
  · change Function.update σ.merchantIndex m _ m' = _
    rw [Function.update_apply]
    split_ifs with hm
    · rw [hm]
      change State.stored (((σ.merchantIndex m).getD []).filter _) = _
      rw [h.keys, hkeys, State.stored_getD_nil (hcompact.index m)]
    · exact h.index m' hm
  · change Function.update σ.merchantSubscribers m _ m' = _
    rw [Function.update_apply]
    split_ifs with hm
    · rw [hm]
      change State.stored (((σ.merchantSubscribers m).getD []).filter _) = _
      rw [h.subscribers, hsubscribers, State.stored_getD_nil (hcompact.roster m)]
    · exact h.roster m' hm

/-- **Cancellation undoes subscription.** Where a pair has no record, no place in the index and none
in the roster, steps that are about it and a successful `cancel` leave all records, indexes and
rosters as they are, and a list that becomes empty is not stored. -/
theorem cancel_restores (hσ : Reachable H σ) (hrecord : H.record σ s m = none)
    (hkey : H.subscriptionKey s m ∉ (σ.merchantIndex m).getD [])
    (hsubscriber : s ∉ (σ.merchantSubscribers m).getD [])
    {steps : List (Step Address Hash Op)} (hsteps : ∀ step ∈ steps, step.OfPair s m)
    {last : Step Address Hash Op} {token : Address}
    (hcancel : last.Performs H (after (next H) σ steps) (.cancel s m token)) :
    (after (next H) σ (steps ++ [last])).subscriptions = σ.subscriptions ∧
      (after (next H) σ (steps ++ [last])).merchantIndex = σ.merchantIndex ∧
      (after (next H) σ (steps ++ [last])).merchantSubscribers = σ.merchantSubscribers := by
  obtain ⟨-, reply, hr⟩ := hcancel
  rw [after_append, after_cons, after_nil]
  exact (sameWithout_after hsteps).cancel hσ.compact hrecord hkey hsubscriber
    (Tx.returns_bind_const.1 hr).1

end Window

/-- Two subscriptions of one pair, a new amount, a pause, its end, and a payment. -/
def sampleTerms : List (Step UInt8 (List UInt8) (External UInt8)) :=
  [sampleStep 1 (.subscribe 1 2 9 100 86400 false none),
    sampleStep 2 (.subscribe 1 2 9 200 86400 false (some 60)),
    sampleStep 3 (.updateSubscription 1 2 300 86400),
    sampleStep 4 (.pauseSubscription 1 2 9 (some 90000)),
    sampleStep 5 (.resumeSubscription 1 2 9),
    sampleStep 86405 (.batchExecutePayment 2 9 [1, 1])]

/-- The merchant has another subscriber. -/
abbrev sampleOther : State UInt8 (List UInt8) (TokenLedger UInt8) :=
  after (next sampleHost) sampleStart [sampleStep 1 (.subscribe 3 2 9 100 86400 false none)]

theorem cancel_restores_sample :
    let τ := after (next sampleHost) sampleOther (sampleTerms ++ [sampleStep 86406 (.cancel 1 2 9)])
    τ.subscriptions = sampleOther.subscriptions ∧ τ.merchantIndex = sampleOther.merchantIndex ∧
      τ.merchantSubscribers = sampleOther.merchantSubscribers := by
  have hreachable : Reachable sampleHost sampleOther := ⟨_, _, rfl⟩
  have hsteps : ∀ step ∈ sampleTerms, step.OfPair 1 2 := by
    simp [sampleTerms, sampleStep, Step.OfPair, Call.OfPair]
  have hcancel : (sampleStep 86406 (.cancel 1 2 9)).Performs sampleHost
      (after (next sampleHost) sampleOther sampleTerms) (.cancel 1 2 9) :=
    performs_of_reply .done rfl (by decide)
  exact cancel_restores hreachable rfl (by decide) (by decide) hsteps hcancel

end SorobanPay
