import SorobanPay.Foundation.Listing
import SorobanPay.Listings.Changes
import SorobanPay.Tokens.Ledger

/-!
# The merchant index

The index of a merchant should list the storage hash of each live pair of the merchant once, so that
`get_merchant_subscription_keys` enumerates the live pairs and `get_subscription_count` counts them.

`cancel` and `transfer_subscription` keep the index exact. `subscribe` appends the hash without
looking whether it is there, unlike `roster_add`, which does; so it keeps the index exact for a new
pair and lists the hash of a live pair a second time. `index_exact_iff` says this of whole runs.

## Main definitions

* `Host.liveKeys`, `IndexExact`: the hashes of the live pairs, and exact indexes.
* `Call.Resubscribes`: a subscription to a merchant with whom the subscriber has one.

## Main results

* `IndexExact.subscribe_iff`, `IndexExact.cancel`, `IndexExact.transfer`: the three entry points.
* `index_exact_iff`: the indexes are exact throughout a run exactly if nobody subscribes again.
* `not_indexExact_resubscribed`: an index that is not exact.
-/

set_option autoImplicit false

namespace SorobanPay

open Foundation

variable {Address Hash World Op : Type}

/-! ### Exact indexes -/

theorem Host.KeysInjective.injective {H : Host Address Hash World Op} (hkey : H.KeysInjective)
    (m : Address) : Function.Injective fun s => H.subscriptionKey s m :=
  fun _ _ h => (hkey.eq_iff.1 h).1

/-- The storage hashes of the live pairs of a merchant. -/
def Host.liveKeys (H : Host Address Hash World Op) (σ : State Address Hash World) (m : Address) :
    Set Hash :=
  (fun s => H.subscriptionKey s m) '' H.liveSubscribers σ m

/-- The index of every merchant lists the hashes of the live pairs, each of them once, and its
length is their number. -/
structure IndexExact (H : Host Address Hash World Op) (σ : State Address Hash World) : Prop where
  keys : ∀ m, Enumerates (getMerchantSubscriptionKeys σ m) (H.liveKeys σ m)
  count : ∀ m, getSubscriptionCount σ m = (H.liveSubscribers σ m).ncard

variable {H : Host Address Hash World Op} {σ σ' : State Address Hash World}

/-- The count follows from the enumeration. -/
theorem indexExact_iff (hkey : H.KeysInjective) :
    IndexExact H σ ↔ ∀ m, Enumerates (getMerchantSubscriptionKeys σ m) (H.liveKeys σ m) := by
  refine ⟨IndexExact.keys, fun h => ⟨h, fun m => ?_⟩⟩
  rw [← Set.ncard_image_of_injective (H.liveSubscribers σ m) (hkey.injective m)]
  exact (h m).ncard_eq.symm

theorem indexExact_deployed (hkey : H.KeysInjective) (w : World) :
    IndexExact H (State.deployed Address Hash w) := by
  rw [indexExact_iff hkey]
  intro m
  rw [Host.liveKeys, Host.liveSubscribers_deployed, Set.image_empty]
  exact .nil

theorem SameListing.indexExact (h : SameListing H σ σ') (hσ : IndexExact H σ) :
    IndexExact H σ' := by
  have hkeys : ∀ m, getMerchantSubscriptionKeys σ' m = getMerchantSubscriptionKeys σ m := by
    intro m
    rw [getMerchantSubscriptionKeys, h.index, getMerchantSubscriptionKeys]
  refine ⟨fun m => ?_, fun m => ?_⟩
  · rw [hkeys, Host.liveKeys, h.live]
    exact hσ.keys m
  · rw [h.live, ← hσ.count m, getSubscriptionCount, h.index, getSubscriptionCount]

/-! ### The index after a change -/

section Changes

variable [DecidableEq Address]

theorem getMerchantSubscriptionKeys_indexAdd (m m' : Address) (hash : Hash) :
    getMerchantSubscriptionKeys (σ.indexAdd m hash) m' =
      if m' = m then getMerchantSubscriptionKeys σ m ++ [hash]
      else getMerchantSubscriptionKeys σ m' := by
  simp only [getMerchantSubscriptionKeys, State.indexAdd, State.setMerchantIndex_merchantIndex,
    Function.update_apply]
  split_ifs <;> rfl

theorem getMerchantSubscriptionKeys_indexRemove [DecidableEq Hash] (m m' : Address) (hash : Hash) :
    getMerchantSubscriptionKeys (σ.indexRemove m hash) m' =
      if m' = m then (getMerchantSubscriptionKeys σ m).filter (· ≠ hash)
      else getMerchantSubscriptionKeys σ m' := by
  simp only [getMerchantSubscriptionKeys, State.indexRemove_eq,
    State.setMerchantIndex_merchantIndex, Function.update_apply]
  split_ifs with hm
  · exact State.getD_stored _
  · rfl

variable [DecidableEq Hash]

theorem Host.liveKeys_setSubscription (hkey : H.KeysInjective) (s m m' : Address)
    (data : SubscriptionData Address) :
    H.liveKeys (σ.setSubscription (H.subscriptionKey s m) data) m' =
      if m' = m then insert (H.subscriptionKey s m) (H.liveKeys σ m) else H.liveKeys σ m' := by
  rw [liveKeys, liveSubscribers_setSubscription hkey]
  split_ifs with hm
  · rw [hm, Set.image_insert_eq, liveKeys]
  · rfl

theorem Host.liveKeys_removeSubscription (hkey : H.KeysInjective) (s m m' : Address) :
    H.liveKeys (σ.removeSubscription (H.subscriptionKey s m)) m' =
      if m' = m then H.liveKeys σ m \ {H.subscriptionKey s m} else H.liveKeys σ m' := by
  rw [liveKeys, liveSubscribers_removeSubscription hkey]
  split_ifs with hm
  · rw [hm, Set.image_sdiff (hkey.injective m), Set.image_singleton, liveKeys]
  · rfl

omit [DecidableEq Address] [DecidableEq Hash] in
theorem Host.subscriptionKey_mem_liveKeys (hkey : H.KeysInjective) {s m : Address} :
    H.subscriptionKey s m ∈ H.liveKeys σ m ↔ s ∈ H.liveSubscribers σ m :=
  (hkey.injective m).mem_set_image

omit [DecidableEq Address] [DecidableEq Hash] in
theorem Host.liveKeys_congr (h : H.record σ' = H.record σ) : H.liveKeys σ' = H.liveKeys σ := by
  unfold liveKeys
  rw [liveSubscribers_congr h]

/-- A new record whose hash is appended: the indexes stay exact exactly if the pair was not live. -/
theorem IndexExact.add_iff (hkey : H.KeysInjective) (hσ : IndexExact H σ) {s m : Address}
    {d : SubscriptionData Address}
    (hindex : σ'.merchantIndex = (σ.indexAdd m (H.subscriptionKey s m)).merchantIndex)
    (hrecord : H.record σ' = H.record (σ.setSubscription (H.subscriptionKey s m) d)) :
    IndexExact H σ' ↔ s ∉ H.liveSubscribers σ m := by
  have hkeys : ∀ m', getMerchantSubscriptionKeys σ' m' = if m' = m then
      getMerchantSubscriptionKeys σ m ++ [H.subscriptionKey s m]
      else getMerchantSubscriptionKeys σ m' := fun m' => by
    rw [← getMerchantSubscriptionKeys_indexAdd, getMerchantSubscriptionKeys, hindex]
    rfl
  have hlive : ∀ m', H.liveKeys σ' m' = if m' = m then
      insert (H.subscriptionKey s m) (H.liveKeys σ m) else H.liveKeys σ m' := fun m' => by
    rw [Host.liveKeys_congr hrecord, Host.liveKeys_setSubscription hkey]
  have hadd := (hσ.keys m).append_singleton_iff (a := H.subscriptionKey s m)
  rw [Host.subscriptionKey_mem_liveKeys hkey] at hadd
  rw [indexExact_iff hkey]
  constructor
  · intro h
    have hm := h m
    rw [hkeys, hlive, if_pos rfl, if_pos rfl] at hm
    exact hadd.1 hm
  · intro hnew m'
    rw [hkeys, hlive]
    split_ifs
    · exact hadd.2 hnew
    · exact hσ.keys m'

/-- A record that is removed and whose hash is filtered out. -/
theorem IndexExact.remove (hkey : H.KeysInjective) (hσ : IndexExact H σ) {s m : Address}
    (hindex : σ'.merchantIndex = (σ.indexRemove m (H.subscriptionKey s m)).merchantIndex)
    (hrecord : H.record σ' = H.record (σ.removeSubscription (H.subscriptionKey s m))) :
    IndexExact H σ' := by
  rw [indexExact_iff hkey]
  intro m'
  rw [Host.liveKeys_congr hrecord, Host.liveKeys_removeSubscription hkey,
    getMerchantSubscriptionKeys, hindex, ← getMerchantSubscriptionKeys,
    getMerchantSubscriptionKeys_indexRemove]
  split_ifs
  · exact (hσ.keys m).filter_ne
  · exact hσ.keys m'

end Changes

/-! ### The three entry points -/

section EntryPoints

variable [DecidableEq Address] [DecidableEq Hash] {env : Env Address} {s m m' token : Address}

/-- `subscribe` keeps the indexes exact exactly if the pair was not live. -/
theorem IndexExact.subscribe_iff (hkey : H.KeysInjective) (hσ : IndexExact H σ) {amount : ℤ}
    {interval : ℕ} {strict : Bool} {gracePeriod : Option ℕ}
    (h : (subscribe H env s m token amount interval strict gracePeriod).Returns σ () σ') :
    IndexExact H σ' ↔ s ∉ H.liveSubscribers σ m := by
  refine hσ.add_iff hkey ?_ (record_subscribe h)
  obtain ⟨-, -, -, -, -, -, allowance, -, -, -, rfl⟩ := returns_subscribe.1 h
  rw [State.rosterAdd_eq, State.noteAllowance_eq]
  rfl

theorem IndexExact.cancel (hkey : H.KeysInjective) (hσ : IndexExact H σ)
    (h : (cancel H env s m token).Returns σ () σ') : IndexExact H σ' := by
  refine hσ.remove hkey ?_ (record_cancel h)
  obtain ⟨-, -, rfl⟩ := returns_cancel.1 h
  rw [State.rosterRemove_eq, State.indexRemove_eq, State.indexRemove_eq]
  rfl

/-- `transfer_subscription` removes the old pair and adds a new one that was not live. -/
theorem IndexExact.transfer (hkey : H.KeysInjective) (hσ : IndexExact H σ)
    (h : (transferSubscription H env s m m').Returns σ () σ') : IndexExact H σ' := by
  obtain ⟨-, -, hne, -, d, -, hfree, rfl⟩ := returns_transferSubscription.1 h
  have hkeys : H.subscriptionKey s m' ≠ H.subscriptionKey s m := fun heq =>
    hne (hkey.eq_iff.1 heq).2.symm
  have hremoved : IndexExact H ((σ.removeSubscription (H.subscriptionKey s m)).indexRemove m
      (H.subscriptionKey s m)) := hσ.remove hkey (s := s) (m := m)
    (by rw [State.indexRemove_eq, State.indexRemove_eq]; rfl) (by simp)
  refine (hremoved.add_iff hkey (s := s) (m := m') (d := d) ?_ ?_).2 ?_
  · rw [State.indexRemove_eq, State.indexRemove_eq]
    rfl
  · funext s' m''
    simp only [Host.record_publish, Host.record_indexAdd, Host.record_indexRemove,
      Host.record_setSubscription hkey, Host.record_removeSubscription hkey]
    split_ifs with hold hnew
    · exact absurd (hold.2.symm.trans hnew.2) hne
    all_goals rfl
  · rw [Host.mem_liveSubscribers, Host.record_indexRemove, Host.record_removeSubscription hkey,
      if_neg fun heq => hne heq.2.symm, hfree]
    exact Bool.false_ne_true

end EntryPoints

/-! ### Runs -/

section Runs

variable [DecidableEq Address] [DecidableEq Hash]

/-- `subscribe` to a merchant with whom the subscriber has a subscription. -/
def Call.Resubscribes (H : Host Address Hash World Op) (σ : State Address Hash World) :
    Call Address → Prop
  | .subscribe s m .. => s ∈ H.liveSubscribers σ m
  | _ => False

theorem indexExact_next_iff (hkey : H.KeysInjective) (hσ : IndexExact H σ)
    (step : Step Address Hash Op) :
    IndexExact H (next H σ step) ↔ ∀ call, step.Performs H σ call → ¬ call.Resubscribes H σ := by
  by_cases hlists : ∃ call, step.Performs H σ call ∧ call.Lists
  · obtain ⟨call, hperforms, hl⟩ := hlists
    have hiff : (∀ c, step.Performs H σ c → ¬ c.Resubscribes H σ) ↔ ¬ call.Resubscribes H σ :=
      ⟨fun h => h call hperforms, fun h c hc => hc.eq hperforms ▸ h⟩
    rw [hiff]
    obtain ⟨-, reply, h⟩ := hperforms
    cases call with
    | subscribe s m token amount interval strict gracePeriod =>
      exact hσ.subscribe_iff hkey (Tx.returns_bind_const.1 h).1
    | cancel s m token =>
      exact iff_of_true (hσ.cancel hkey (Tx.returns_bind_const.1 h).1) not_false
    | transferSubscription s m m' =>
      exact iff_of_true (hσ.transfer hkey (Tx.returns_bind_const.1 h).1) not_false
    | _ => exact False.elim hl
  · refine iff_of_true ((sameListing_next hlists).indexExact hσ) fun call hperforms hresub => ?_
    cases call with
    | subscribe => exact hlists ⟨_, hperforms, trivial⟩
    | _ => exact hresub

/-- **When the indexes are exact.** In a run from deployment the index of every merchant is exact in
every state reached exactly if no step of the run is a successful `subscribe` of a pair that has a
subscription. -/
theorem index_exact_iff (hkey : H.KeysInjective) {w : World} {steps : List (Step Address Hash Op)} :
    Throughout (next H) (IndexExact H) (State.deployed Address Hash w) steps ↔
      Along (next H)
        (fun σ step => ∀ call, step.Performs H σ call → ¬ call.Resubscribes H σ)
        (State.deployed Address Hash w) steps :=
  throughout_iff_along (IndexExact H) (fun _ hσ => hσ)
    (fun _ step hσ => (indexExact_next_iff hkey hσ step).2)
    (fun _ step hσ => (indexExact_next_iff hkey hσ step).1) (indexExact_deployed hkey w)

end Runs

/-- A subscription with the merchant 2 that moves to the merchant 3, a new one with the merchant 2,
and the end of it. -/
def sampleMoves : List (Step UInt8 (List UInt8) (External UInt8)) :=
  [sampleStep 1 (.subscribe 1 2 9 100 86400 false none),
    sampleStep 2 (.transferSubscription 1 2 3),
    sampleStep 3 (.subscribe 1 2 9 100 86400 false none),
    sampleStep 4 (.cancel 1 2 9)]

/-- A subscriber who subscribes twice is listed twice. -/
theorem not_indexExact_resubscribed :
    ¬ IndexExact sampleHost (after (next sampleHost) sampleStart
      [sampleStep 1 (.subscribe 1 2 9 100 86400 false none),
        sampleStep 2 (.subscribe 1 2 9 100 86400 false none)]) := by
  intro h
  exact absurd (h.keys 2).nodup (by decide)

theorem index_exact_sample :
    Throughout (next sampleHost) (IndexExact sampleHost) sampleStart sampleMoves := by
  refine (index_exact_iff sampleHost_keysInjective).2 ⟨?_, ?_, ?_, ?_, trivial⟩
  all_goals
    rintro call ⟨haction, -⟩ hresub
    obtain rfl := Action.invoke.inj haction
    first | exact hresub | exact Bool.false_ne_true hresub

end SorobanPay
