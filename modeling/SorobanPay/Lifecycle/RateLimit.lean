import SorobanPay.Lifecycle.Refinement
import SorobanPay.Tokens.Ledger

/-!
# The collection rate limit

Two collections for the same pair are at least one day apart, and at least the interval stored at
the first of them unless the subscriber opened the schedule anew in between.

The argument is about the life cycle of the pair alone. A collection at time `t` puts the next
payment at `t` plus the interval; this barrier is kept by every later act, because the acts that
move the next payment put it at their own time plus an interval, and a collection requires that
the next payment has been reached. The barrier on the life cycle is carried to the runs of the
contract by the refinement.

## Main results

* `Lifecycle.rate_limit`: the rate limit of one life cycle.
* `collection_rate_limit`: the rate limit of the contract.
-/

set_option autoImplicit false

namespace SorobanPay

open Foundation SubscriptionData

/-! ### One life cycle -/

namespace Lifecycle

variable {Address : Type} {r r' : Option (SubscriptionData Address)} {a : Act Address}

/-- The record of a pair, if there is one, is well formed and not due before `b`. -/
def Barrier (b : ℕ) (r : Option (SubscriptionData Address)) : Prop :=
  ∀ d, r = some d → d.WellFormed ∧ b ≤ d.nextPayment

/-- An act keeps a barrier, and no collection happens before it, unless the act belongs to a
transfer or opens the schedule anew less than a day before the barrier. -/
theorem barrier {b : ℕ} (h : Lifecycle r a r') (hr : Barrier b r) (hmove : ¬ a.IsMove)
    (hreset : a.IsReset → b ≤ a.time + minInterval) :
    (∀ now d, a = .collect now d → b ≤ now) ∧ Barrier b r' := by
  have hwf : ∀ d, r' = some d → d.WellFormed := h.wellFormed fun d hd => (hr d hd).1
  refine ⟨?_, fun d' hd' => ⟨hwf d' hd', ?_⟩⟩
  · rintro now d rfl
    cases h with
    | collect due hnow => exact (hr d rfl).2.trans due
  · cases h with
    | subscribe hnow terms =>
      obtain rfl := Option.some.inj hd'
      exact (hreset trivial).trans (Nat.add_le_add_left terms.interval_ge _)
    | resume =>
      obtain rfl := Option.some.inj hd'
      exact (hreset trivial).trans (Nat.add_le_add_left (hr _ rfl).1.interval_ge _)
    | collect due hnow =>
      obtain rfl := Option.some.inj hd'
      exact (hr _ rfl).2.trans (due.trans (Nat.le_add_right _ _))
    | update | pause | markOverdue =>
      obtain rfl := Option.some.inj hd'
      exact (hr _ rfl).2
    | moveIn => exact (hmove trivial).elim
    | cancel | moveOut => cases hd'

/-- A barrier put up by a collection holds until the next one. -/
theorem barrier_of_path {b t' : ℕ} {d' : SubscriptionData Address} {as : List (Act Address)}
    (h : Path Lifecycle r (as ++ [.collect t' d']) r') (hr : Barrier b r)
    (hmove : ∀ a ∈ as, ¬ a.IsMove) (hreset : ∀ a ∈ as, a.IsReset → b ≤ a.time + minInterval) :
    b ≤ t' := by
  have hguarded := h.guarded (Barrier b)
    (fun a => ¬ a.IsMove ∧ (a.IsReset → b ≤ a.time + minInterval))
    (fun a => ∀ now d, a = .collect now d → b ≤ now)
    (fun _ _ _ hr ha hl => hl.barrier hr ha.1 ha.2) hr fun a ha => by
      rcases List.mem_append.1 ha with ha | ha
      · exact ⟨hmove a ha, hreset a ha⟩
      · obtain rfl := List.mem_singleton.1 ha
        exact ⟨not_false, False.elim⟩
  exact hguarded.1 (.collect t' d') (by simp) t' d' rfl

/-- **The rate limit of one life cycle.** -/
theorem rate_limit {t t' : ℕ} {d d' : SubscriptionData Address} {as : List (Act Address)}
    (h : Path Lifecycle r (.collect t d :: (as ++ [.collect t' d'])) r')
    (hr : ∀ d, r = some d → d.WellFormed) (hmove : ∀ a ∈ as, ¬ a.IsMove)
    (htime : ∀ a ∈ as, t ≤ a.time) :
    t + minInterval ≤ t' ∧ ((∀ a ∈ as, ¬ a.IsReset) → t + d.interval ≤ t') := by
  obtain ⟨r₁, hcollect, hrest⟩ := Path.cons_iff.1 h
  have hwf := hcollect.wellFormed hr
  cases hcollect with
  | collect due hnow =>
    have hnext : ∀ b ≤ t + d.interval, Barrier b (some (d.collected t)) := by
      rintro b hb _ ⟨⟩
      exact ⟨hwf _ rfl, hb⟩
    refine ⟨barrier_of_path hrest (hnext _ ?_) hmove ?_, fun hreset => ?_⟩
    · exact Nat.add_le_add_left (hr d rfl).interval_ge t
    · exact fun a ha _ => Nat.add_le_add_right (htime a ha) _
    · exact barrier_of_path hrest (hnext _ le_rfl) hmove fun a ha hreset' =>
        absurd hreset' (hreset a ha)

end Lifecycle

/-! ### Runs of the contract -/

variable {Address Hash World Op : Type} [DecidableEq Address] [DecidableEq Hash]
  {H : Host Address Hash World Op}

/-- **The rate limit of the contract.** In a run no transfer of which names `(s, m)`, any two
collections for the pair are at least 86400 seconds apart; and if the subscriber does not
subscribe, resume or cancel in between, they are at least the interval apart that was stored at the
first. -/
theorem collection_rate_limit (hkey : H.KeysInjective) {w : World}
    {steps : List (Step Address Hash Op)} (hchron : Chronological steps) {s m : Address}
    (hmove : ∀ ν ∈ microHistory H (State.deployed Address Hash w) steps, ∀ call,
      ν.deed = .applied call → ¬ call.Transfers s m)
    {pre mid post : List (MicroStep Address Hash World Op)} {μ μ' : MicroStep Address Hash World Op}
    (hsplit : microHistory H (State.deployed Address Hash w) steps = pre ++ μ :: mid ++ μ' :: post)
    (hμ : μ.deed.IsCharge s m) (hμ' : μ'.deed.IsCharge s m) :
    μ.env.timestamp + 86400 ≤ μ'.env.timestamp ∧
      ∃ d, H.record μ.before s m = some d ∧
        ((∀ ν ∈ mid, ∀ call, ν.deed = .applied call → ¬ call.Resets s m) →
          μ.env.timestamp + d.interval ≤ μ'.env.timestamp) := by
  obtain ⟨⟨hgen, hσ⟩, hmid, hgen', hσ'⟩ := between_of_split hkey hsplit
  obtain ⟨d, fees, hcollect⟩ := hgen.collects hσ hμ
  obtain ⟨d', fees', hcollect'⟩ := hgen'.collects hσ' hμ'
  -- the acts from the first collection to the second
  have hpart : Path (Leads H) μ.before (μ :: (mid ++ [μ'])) μ'.after :=
    .cons ⟨rfl, rfl, hgen⟩ (hmid.append (.single ⟨rfl, rfl, hgen'⟩))
  have hacts := path_lifecycle hkey hpart hσ s m
  simp only [List.flatMap_cons, List.flatMap_append, List.flatMap_nil, List.append_nil,
    hcollect.acts_eq hμ, hcollect'.acts_eq hμ', List.singleton_append] at hacts
  have hsorted := pairwise_microHistory (H := H) (σ := State.deployed Address Hash w) hchron
  rw [hsplit] at hsorted hmove
  have hmem : ∀ a ∈ mid.flatMap (·.acts H s m), ∃ ν ∈ mid, a ∈ ν.acts H s m :=
    fun a ha => List.mem_flatMap.1 ha
  obtain ⟨hday, hinterval⟩ := Lifecycle.rate_limit hacts (hσ.wellFormed s m)
    (fun a ha hm => by
      obtain ⟨ν, hν, ha⟩ := hmem a ha
      obtain ⟨call, hdeed, htransfers⟩ := (MicroStep.reset_or_move_of_mem_acts ha).2.2 hm
      exact hmove ν (by simp [hν]) call hdeed htransfers)
    (fun a ha => by
      obtain ⟨ν, hν, ha⟩ := hmem a ha
      rw [(MicroStep.reset_or_move_of_mem_acts ha).1]
      rw [List.append_assoc, List.cons_append] at hsorted
      have hlater := (List.pairwise_append.1 hsorted).2.1
      exact (List.pairwise_cons.1 hlater).1 ν (by simp [hν]))
  refine ⟨hday, d, hcollect.found, fun hreset => hinterval fun a ha hr => ?_⟩
  obtain ⟨ν, hν, ha⟩ := hmem a ha
  obtain ⟨call, hdeed, hresets⟩ := (MicroStep.reset_or_move_of_mem_acts ha).2.1 hr
  exact hreset ν hν call hdeed hresets

/-- A subscription of 100 a day, collected after one day by the single path and after another day
in a batch. -/
def sampleCollections : List (Step UInt8 (List UInt8) (External UInt8)) :=
  [sampleStep 1 (.subscribe 1 2 9 100 86400 false none),
    sampleStep 86401 (.executePayment 1 2 9),
    sampleStep 172801 (.batchExecutePayment 2 9 [1])]

theorem collection_rate_limit_sample :
    ∃ pre μ mid μ' post,
      microHistory sampleHost sampleStart sampleCollections =
        pre ++ μ :: mid ++ μ' :: post ∧
      μ.env.timestamp + 86400 ≤ μ'.env.timestamp ∧
        ∃ d, sampleHost.record μ.before 1 2 = some d ∧
          ((∀ ν ∈ mid, ∀ call, ν.deed = .applied call → ¬ call.Resets 1 2) →
            μ.env.timestamp + d.interval ≤ μ'.env.timestamp) := by
  have hdeeds : (microHistory sampleHost sampleStart sampleCollections).map MicroStep.deed =
        [.applied (.subscribe 1 2 9 100 86400 false none), .executed 1 2, .opened 2 1,
          .entry 1 2 true] := rfl
  have hmove : ∀ ν ∈ microHistory sampleHost sampleStart sampleCollections, ∀ call,
      ν.deed = .applied call → ¬ call.Transfers 1 2 := by
    intro ν hν call hcall
    have hdeed := hdeeds ▸ List.mem_map_of_mem hν
    rw [hcall] at hdeed
    obtain rfl := by simpa using hdeed
    exact not_false
  refine ⟨[_], _, [_], _, [], rfl, ?_⟩
  exact collection_rate_limit sampleHost_keysInjective
    (by simp [Chronological, sampleCollections, sampleStep, sampleEnv]) hmove
    (show _ = [_] ++ _ :: [_] ++ _ :: [] from rfl) (.inl rfl) (.inr rfl)

end SorobanPay
