import SorobanPay.Foundation.Listing
import SorobanPay.Listings.Changes
import SorobanPay.Tokens.Ledger

/-!
# The subscriber roster

`get_merchant_subscriptions` walks through the roster of a merchant and returns an entry for each
member that has a record. So it should return one entry for each live pair of the merchant, with the
subscriber and the current record, and nothing else.

The rosters never list a subscriber twice, and members without a record are skipped; hence the
answer is exact precisely when every subscriber with a record is on the roster
(`rosterExact_iff`). `subscribe` and `cancel` take care of this. `transfer_subscription` moves the
record and the index and does not touch the rosters, so the subscriber is missing from the roster of
the new merchant. `roster_exact_iff` says that this is the only way in which a run goes wrong.

## Main definitions

* `RosterExact`: the answers of `get_merchant_subscriptions` are right.
* `RosterLive`: the rosters list the live pairs.
* `Call.IsTransfer`: the calls that go wrong.

## Main results

* `RosterLive.subscribe`, `RosterLive.cancel`, `RosterLive.not_rosterExact_transfer`: the three
  entry points.
* `roster_exact_iff`: the answers are right throughout a run exactly if nothing is transferred.
* `not_rosterExact_transferred`: an answer that is wrong.
-/

set_option autoImplicit false

namespace SorobanPay

open Foundation

variable {Address Hash World Op : Type} {H : Host Address Hash World Op}
  {σ σ' : State Address Hash World}

/-! ### Exact answers -/

/-- The roster of a merchant. -/
def State.roster (σ : State Address Hash World) (m : Address) : List Address :=
  (σ.merchantSubscribers m).getD []

/-- `get_merchant_subscriptions` returns the live pairs of every merchant with their records, each
of them once. -/
def RosterExact (H : Host Address Hash World Op) (σ : State Address Hash World) : Prop :=
  ∀ m, Enumerates (getMerchantSubscriptions H σ m) {e | H.record σ e.subscriber m = some e.data}

/-- The roster of every merchant lists the subscribers with a record, each of them once. -/
def RosterLive (H : Host Address Hash World Op) (σ : State Address Hash World) : Prop :=
  ∀ m, Enumerates (σ.roster m) (H.liveSubscribers σ m)

theorem mem_getMerchantSubscriptions {m : Address} {e : SubscriptionEntry Address} :
    e ∈ getMerchantSubscriptions H σ m ↔
      e.subscriber ∈ σ.roster m ∧ H.record σ e.subscriber m = some e.data := by
  obtain ⟨s, d⟩ := e
  rw [getMerchantSubscriptions, List.mem_filterMap, State.roster]
  constructor
  · rintro ⟨s', hs', h⟩
    obtain ⟨d', hd', hentry⟩ := Option.map_eq_some_iff.1 h
    obtain ⟨rfl, rfl⟩ := SubscriptionEntry.mk.inj hentry
    exact ⟨hs', hd'⟩
  · rintro ⟨hs, hd⟩
    exact ⟨s, hs, Option.map_eq_some_iff.2 ⟨d, hd, rfl⟩⟩

/-- Members of a roster without repetition give entries without repetition. -/
theorem nodup_getMerchantSubscriptions {m : Address} (h : (σ.roster m).Nodup) :
    (getMerchantSubscriptions H σ m).Nodup := by
  refine h.filterMap fun s s' e he he' => ?_
  obtain ⟨d, -, rfl⟩ := Option.map_eq_some_iff.1 (Option.mem_def.1 he)
  obtain ⟨d', -, hentry⟩ := Option.map_eq_some_iff.1 (Option.mem_def.1 he')
  exact (SubscriptionEntry.mk.inj hentry).1.symm

/-- The answers are right when the rosters have no repetition and miss no subscriber. -/
theorem rosterExact_iff (hnodup : ∀ m, (σ.roster m).Nodup) :
    RosterExact H σ ↔ ∀ m, ∀ s ∈ H.liveSubscribers σ m, s ∈ σ.roster m := by
  constructor
  · intro h m s hs
    obtain ⟨d, hd⟩ := Host.mem_liveSubscribers_iff_exists.1 hs
    exact (mem_getMerchantSubscriptions.1 (((h m).mem_iff ⟨s, d⟩).2 hd)).1
  · intro h m
    refine ⟨nodup_getMerchantSubscriptions (hnodup m), fun e => ?_⟩
    rw [mem_getMerchantSubscriptions, Set.mem_ofPred_eq, and_iff_right_iff_imp]
    exact fun he => h m _ (Host.mem_liveSubscribers_iff_exists.2 ⟨_, he⟩)

theorem RosterLive.rosterExact (h : RosterLive H σ) : RosterExact H σ :=
  (rosterExact_iff fun m => (h m).nodup).2 fun m s hs => ((h m).mem_iff s).2 hs

theorem rosterLive_deployed (w : World) : RosterLive H (State.deployed Address Hash w) := by
  intro m
  rw [Host.liveSubscribers_deployed]
  exact .nil

theorem SameListing.rosterLive (h : SameListing H σ σ') (hσ : RosterLive H σ) :
    RosterLive H σ' := by
  intro m
  rw [State.roster, h.roster, h.live]
  exact hσ m

/-! ### The three entry points -/

section EntryPoints

variable [DecidableEq Address] [DecidableEq Hash] {env : Env Address} {s m m' token : Address}

omit [DecidableEq Hash] in
theorem State.roster_rosterAdd (s m m' : Address) :
    (σ.rosterAdd m s).roster m' =
      if m' = m ∧ s ∉ σ.roster m then σ.roster m ++ [s] else σ.roster m' := by
  simp only [roster, rosterAdd_eq, setMerchantSubscribers_merchantSubscribers,
    Function.update_apply]
  split_ifs <;> simp_all

omit [DecidableEq Hash] in
theorem State.roster_rosterRemove (s m m' : Address) :
    (σ.rosterRemove m s).roster m' =
      if m' = m then (σ.roster m).filter (· ≠ s) else σ.roster m' := by
  simp only [roster, rosterRemove_eq, setMerchantSubscribers_merchantSubscribers,
    Function.update_apply]
  split_ifs with hm
  · exact getD_stored _
  · rfl

omit [DecidableEq Address] [DecidableEq Hash] in
theorem State.roster_congr (h : σ'.merchantSubscribers = σ.merchantSubscribers) :
    σ'.roster = σ.roster := by
  unfold roster
  rw [h]

/-- A new record with the subscriber added to the roster, unless he is on it. -/
theorem RosterLive.add (hkey : H.KeysInjective) (hσ : RosterLive H σ)
    {d : SubscriptionData Address}
    (hroster : σ'.merchantSubscribers = (σ.rosterAdd m s).merchantSubscribers)
    (hrecord : H.record σ' = H.record (σ.setSubscription (H.subscriptionKey s m) d)) :
    RosterLive H σ' := by
  intro m'
  rw [State.roster_congr hroster, State.roster_rosterAdd, Host.liveSubscribers_congr hrecord,
    Host.liveSubscribers_setSubscription hkey]
  by_cases hm : m' = m
  · subst hm
    rw [if_pos rfl]
    by_cases hs : s ∈ σ.roster m'
    · rw [if_neg (not_and_not_right.2 fun _ => hs),
        Set.insert_eq_of_mem (((hσ m').mem_iff s).1 hs)]
      exact hσ m'
    · rw [if_pos ⟨rfl, hs⟩]
      exact (hσ m').append_singleton_iff.2 fun hlive => hs (((hσ m').mem_iff s).2 hlive)
  · rw [if_neg fun h => hm h.1, if_neg hm]
    exact hσ m'

theorem RosterLive.remove (hkey : H.KeysInjective) (hσ : RosterLive H σ)
    (hroster : σ'.merchantSubscribers = (σ.rosterRemove m s).merchantSubscribers)
    (hrecord : H.record σ' = H.record (σ.removeSubscription (H.subscriptionKey s m))) :
    RosterLive H σ' := by
  intro m'
  rw [State.roster_congr hroster, State.roster_rosterRemove, Host.liveSubscribers_congr hrecord,
    Host.liveSubscribers_removeSubscription hkey]
  split_ifs
  · exact (hσ m).filter_ne
  · exact hσ m'

theorem RosterLive.subscribe (hkey : H.KeysInjective) (hσ : RosterLive H σ) {amount : ℤ}
    {interval : ℕ} {strict : Bool} {gracePeriod : Option ℕ}
    (h : (subscribe H env s m token amount interval strict gracePeriod).Returns σ () σ') :
    RosterLive H σ' := by
  refine hσ.add hkey ?_ (record_subscribe h)
  obtain ⟨-, -, -, -, -, -, allowance, -, -, -, rfl⟩ := returns_subscribe.1 h
  rw [State.rosterAdd_eq, State.rosterAdd_eq, State.noteAllowance_eq]
  rfl

theorem RosterLive.cancel (hkey : H.KeysInjective) (hσ : RosterLive H σ)
    (h : (cancel H env s m token).Returns σ () σ') : RosterLive H σ' := by
  refine hσ.remove hkey ?_ (record_cancel h)
  obtain ⟨-, -, rfl⟩ := returns_cancel.1 h
  rw [State.rosterRemove_eq, State.rosterRemove_eq, State.indexRemove_eq]
  rfl

/-- After `transfer_subscription` the subscriber has a record with the new merchant and is not on
the roster. -/
theorem RosterLive.not_rosterExact_transfer (hkey : H.KeysInjective) (hσ : RosterLive H σ)
    (h : (transferSubscription H env s m m').Returns σ () σ') : ¬ RosterExact H σ' := by
  obtain ⟨-, -, hne, -, d, -, hfree, rfl⟩ := returns_transferSubscription.1 h
  set τ : State Address Hash World := State.publish _ _ with hτ
  have hroster : τ.roster = σ.roster := State.roster_congr (by
    rw [hτ, State.indexRemove_eq]
    rfl)
  have hlive : s ∈ H.liveSubscribers τ m' := by
    rw [Host.mem_liveSubscribers_iff_exists]
    refine ⟨d, ?_⟩
    rw [hτ, Host.record_publish, Host.record_indexAdd, Host.record_indexRemove,
      Host.record_removeSubscription hkey, if_neg fun heq => hne heq.2.symm,
      Host.record_setSubscription hkey, if_pos ⟨rfl, rfl⟩]
  have hoff : s ∉ σ.roster m' := by
    rw [(hσ m').mem_iff, Host.mem_liveSubscribers, hfree]
    exact Bool.false_ne_true
  rw [rosterExact_iff fun m => hroster ▸ (hσ m).nodup, hroster]
  exact fun hexact => hoff (hexact m' s hlive)

end EntryPoints

/-! ### Runs -/

section Runs

variable [DecidableEq Address] [DecidableEq Hash]

/-- The call transfers a subscription. -/
def Call.IsTransfer : Call Address → Prop
  | .transferSubscription .. => True
  | _ => False

theorem rosterLive_next (hkey : H.KeysInjective) (hσ : RosterLive H σ)
    {step : Step Address Hash Op} (hstep : ∀ call, step.Performs H σ call → ¬ call.IsTransfer) :
    RosterLive H (next H σ step) := by
  by_cases hlists : ∃ call, step.Performs H σ call ∧ call.Lists
  · obtain ⟨call, hperforms, hl⟩ := hlists
    have hcall := hstep call hperforms
    obtain ⟨-, reply, h⟩ := hperforms
    cases call with
    | subscribe => exact hσ.subscribe hkey (Tx.returns_bind_const.1 h).1
    | cancel => exact hσ.cancel hkey (Tx.returns_bind_const.1 h).1
    | transferSubscription => exact (hcall trivial).elim
    | _ => exact False.elim hl
  · exact (sameListing_next hlists).rosterLive hσ

/-- **When the rosters are right.** In a run from deployment `get_merchant_subscriptions` is right
for every merchant in every state reached exactly if no step of the run is a successful
`transfer_subscription`. -/
theorem roster_exact_iff (hkey : H.KeysInjective) {w : World}
    {steps : List (Step Address Hash Op)} :
    Throughout (next H) (RosterExact H) (State.deployed Address Hash w) steps ↔
      Along (next H) (fun σ step => ∀ call, step.Performs H σ call → ¬ call.IsTransfer)
        (State.deployed Address Hash w) steps := by
  refine throughout_iff_along (RosterLive H) (fun _ hσ => hσ.rosterExact)
    (fun _ _ hσ => rosterLive_next hkey hσ) (fun _ _ hσ hexact call hperforms htransfer => ?_)
    (rosterLive_deployed w)
  obtain ⟨-, reply, h⟩ := hperforms
  cases call with
  | transferSubscription =>
    exact hσ.not_rosterExact_transfer hkey (Tx.returns_bind_const.1 h).1 hexact
  | _ => exact htransfer

end Runs

/-- A subscription that moves from the merchant 2 to the merchant 3 is not among the subscriptions
of the merchant 3. -/
theorem not_rosterExact_transferred :
    ¬ RosterExact sampleHost (after (next sampleHost) sampleStart
      [sampleStep 1 (.subscribe 1 2 9 100 86400 false none),
        sampleStep 2 (.transferSubscription 1 2 3)]) := by
  intro h
  exact absurd (((h 3).mem_iff ⟨1, ⟨9, 100, 86400, 86401, false, 0, none, 0, none⟩⟩).2 rfl)
    (by decide)

/-- A subscription that is made twice, ended, and made again. -/
def sampleReturns : List (Step UInt8 (List UInt8) (External UInt8)) :=
  [sampleStep 1 (.subscribe 1 2 9 100 86400 false none),
    sampleStep 2 (.subscribe 1 2 9 200 86400 false none),
    sampleStep 3 (.cancel 1 2 9),
    sampleStep 4 (.subscribe 1 2 9 100 86400 false none)]

theorem roster_exact_sample :
    Throughout (next sampleHost) (RosterExact sampleHost) sampleStart sampleReturns := by
  refine (roster_exact_iff sampleHost_keysInjective).2 ⟨?_, ?_, ?_, ?_, trivial⟩
  all_goals
    rintro call ⟨haction, -⟩ htransfer
    obtain rfl := Action.invoke.inj haction
    exact htransfer

end SorobanPay
