import SorobanPay.Foundation.SlidingWindow
import SorobanPay.Lifecycle.RateLimit

/-!
# The collection rate limit of a subscription that moves

A subscription is made for one merchant and may be transferred to others. The rate limit of
`SorobanPay.Lifecycle.RateLimit` is about one pair, and leaves transfers out: a pair that a
subscription leaves may be subscribed to again, and a pair that one arrives at may have been
collected for just before. Here the subscription is followed instead: a transfer takes it to its
next merchant, a cancellation ends it. Wherever it is, two collections of it are at least one day
apart, also when its subscriber subscribes again, changes its terms, or pauses and resumes it in
between.

The barrier that a collection puts up is kept with the record, and a transfer takes the record as it
is.

## Main definitions

* `follow`: where a subscription is after a micro-step.
* `collectedAt`: the times at which it is collected.

## Main results

* `NotBefore.follow`: a micro-step keeps a barrier on the subscription that is followed.
* `followed_rate_limit`: no more than one collection a day, wherever the subscription is.
-/

set_option autoImplicit false

namespace SorobanPay

open Foundation SubscriptionData

variable {Address Hash World Op : Type} [DecidableEq Address]

/-! ### Following a subscription -/

/-- The merchant of a subscription of `s` after a micro-step: a transfer takes the subscription to
the new merchant, and it ends with its cancellation. -/
def follow (s : Address) (place : Option Address) (μ : MicroStep Address Hash World Op) :
    Option Address :=
  match μ.deed with
  | .applied (.transferSubscription s' old new) =>
    if s' = s ∧ place = some old then some new else place
  | .applied (.cancel s' m' _) => if s' = s ∧ place = some m' then none else place
  | _ => place

/-- The times at which the subscription is collected. -/
def collectedAt (s : Address) : Option Address → List (MicroStep Address Hash World Op) → List ℕ
  | _, [] => []
  | place, μ :: μs =>
    if ∃ m ∈ place, μ.deed.IsCharge s m then
      μ.env.timestamp :: collectedAt s (follow s place μ) μs
    else collectedAt s (follow s place μ) μs

section Place

variable {s m : Address} {place : Option Address} {μ : MicroStep Address Hash World Op}

theorem follow_none : follow s none μ = none := by
  unfold follow
  split <;> simp

/-- A subscription is collected where it stays. -/
theorem follow_of_isCharge {m' : Address} (h : μ.deed.IsCharge s m') :
    follow s place μ = place := by
  unfold follow
  rcases h with h | h <;> rw [h]

end Place

/-! ### The barrier -/

namespace Lifecycle

variable {r : Option (SubscriptionData Address)} {d : SubscriptionData Address}

omit [DecidableEq Address] in
/-- A record that is not moved or cancelled keeps a barrier, unless its schedule is opened anew less
than a day before it. -/
theorem notBefore_of_path {b : ℕ} {as : List (Act Address)} (h : Path Lifecycle (some d) as r)
    (hwf : d.WellFormed) (hb : b ≤ d.nextPayment)
    (has : ∀ a ∈ as, (∀ now, a ≠ .cancel now) ∧ ¬ a.IsMove ∧
      (a.IsReset → b ≤ a.time + minInterval)) :
    ∃ d', r = some d' ∧ b ≤ d'.nextPayment := by
  have hguarded := h.guarded
    (fun r => r.isSome = true ∧ Barrier b r)
    (fun a => (∀ now, a ≠ .cancel now) ∧ ¬ a.IsMove ∧ (a.IsReset → b ≤ a.time + minInterval))
    (fun _ => True) ?_ ⟨rfl, by rintro _ ⟨⟩; exact ⟨hwf, hb⟩⟩ has
  · obtain ⟨d', rfl⟩ := Option.isSome_iff_exists.1 hguarded.2.1
    exact ⟨d', rfl, (hguarded.2.2 d' rfl).2⟩
  · rintro r a r' ⟨-, hbarrier⟩ ⟨hcancel, hmove, hreset⟩ hl
    refine ⟨trivial, ?_, (hl.barrier hbarrier hmove hreset).2⟩
    cases hl with
    | cancel => exact absurd rfl (hcancel _)
    | moveOut => exact (hmove trivial).elim
    | _ => rfl

end Lifecycle

variable [DecidableEq Hash] {H : Host Address Hash World Op} {σ σ' : State Address Hash World}
  {μ : MicroStep Address Hash World Op} {env : Env Address} {s m : Address}
  {place : Option Address} {b : ℕ}

omit [DecidableEq Address] [DecidableEq Hash] in
/-- The subscription that is followed has a record, which is not due before `b`. -/
def NotBefore (H : Host Address Hash World Op) (s : Address) (b : ℕ) (place : Option Address)
    (σ : State Address Hash World) : Prop :=
  ∀ m, place = some m → ∃ d, H.record σ s m = some d ∧ b ≤ d.nextPayment

/-- A transfer takes the record to a pair that has none. -/
theorem record_transferSubscription (hkey : H.KeysInjective) {old new : Address} {u : Unit}
    (h : (transferSubscription H env s old new).Returns σ u σ') :
    H.record σ' s new = H.record σ s old ∧ H.record σ s new = none := by
  obtain ⟨-, -, hne, -, d, hd, hnone, rfl⟩ := returns_transferSubscription.1 h
  simp [Host.record_removeSubscription hkey, Host.record_setSubscription hkey, hne.symm, hd, hnone]

/-- Where a subscription is after a micro-step that is neither its transfer nor its cancellation,
its acts are of other kinds. -/
theorem acts_of_stays (hμ : μ.Genuine H) (hrecord : (H.record μ.before s m).isSome = true)
    (hstays : follow s (some m) μ = some m) {a : Act Address} (ha : a ∈ μ.acts H s m) :
    (∀ now, a ≠ .cancel now) ∧ ¬ a.IsMove := by
  rcases MicroStep.mem_acts ha with ⟨call, hdeed, ha⟩ | ⟨-, d, rfl⟩ | ⟨-, rfl⟩
  · cases hμ with
    | @applied env σ σ' call' reply plain h =>
      obtain rfl : call' = call := Deed.applied.inj hdeed
      cases call' with
      | transferSubscription s' old new =>
        simp only [Call.run, Tx.returns_bind_const, returns_transferSubscription] at h
        obtain ⟨⟨-, -, hne, -, d, -, hnone, -⟩, -⟩ := h
        simp only [Call.acts] at ha
        split_ifs at ha with hout hin
        · obtain ⟨rfl, rfl⟩ := hout
          simp [follow, hne.symm] at hstays
        · obtain ⟨rfl, rfl⟩ := hin
          simp [hnone] at hrecord
        · simp at ha
      | cancel s' m' token =>
        simp only [Call.acts] at ha
        split_ifs at ha with hpair
        · obtain ⟨rfl, rfl⟩ := hpair
          simp [follow] at hstays
        · simp at ha
      | subscribe | updateSubscription | pauseSubscription | resumeSubscription =>
        obtain ⟨-, rfl⟩ := by simpa [Call.acts] using ha
        exact ⟨fun _ h => (by cases h), id⟩
      | _ => simp [Call.acts] at ha
    | _ => cases hdeed
  · exact ⟨fun _ h => (by cases h), id⟩
  · exact ⟨fun _ h => (by cases h), id⟩

omit [DecidableEq Hash] in
/-- A subscription that does not stay is transferred or ends. -/
theorem follow_cases (s m : Address) (μ : MicroStep Address Hash World Op) :
    follow s (some m) μ = some m ∨ follow s (some m) μ = none ∨
      ∃ new, follow s (some m) μ = some new ∧
        μ.deed = .applied (.transferSubscription s m new) := by
  unfold follow
  split
  · rename_i s' old new hdeed
    split_ifs with hpair
    · obtain ⟨rfl, hold⟩ := hpair
      obtain rfl := Option.some.inj hold
      exact .inr (.inr ⟨new, rfl, hdeed⟩)
    · exact .inl rfl
  · split_ifs
    · exact .inr (.inl rfl)
    · exact .inl rfl
  · exact .inl rfl

/-- **A micro-step keeps the barrier** on the subscription that is followed. -/
theorem NotBefore.follow (hkey : H.KeysInjective) (hμ : μ.Genuine H) (hσ : Sound H μ.before)
    (h : NotBefore H s b place μ.before) (hb : b ≤ μ.env.timestamp + minInterval) :
    NotBefore H s b (follow s place μ) μ.after := by
  rcases place with _ | m
  · rw [follow_none]
    rintro _ ⟨⟩
  obtain ⟨d, hd, hnext⟩ := h m rfl
  rcases follow_cases s m μ with hstays | hends | ⟨new, hmoves, hdeed⟩
  · rw [hstays]
    rintro _ ⟨⟩
    have hlife := hμ.refines hkey hσ s m
    rw [hd] at hlife
    refine Lifecycle.notBefore_of_path hlife (hσ.wellFormed s m d hd) hnext fun a ha => ?_
    obtain ⟨hcancel, hmove⟩ := acts_of_stays hμ (by rw [hd]; rfl) hstays ha
    exact ⟨hcancel, hmove, fun _ => (MicroStep.reset_or_move_of_mem_acts ha).1 ▸ hb⟩
  · rw [hends]
    rintro _ ⟨⟩
  · rw [hmoves]
    rintro _ ⟨⟩
    cases hμ with
    | applied plain hcall =>
      obtain rfl := Deed.applied.inj hdeed
      simp only [Call.run, Tx.returns_bind_const] at hcall
      rw [(record_transferSubscription hkey hcall.1).1]
      exact ⟨d, hd, hnext⟩
    | _ => cases hdeed

/-- A collection does not come before the barrier, and puts it one day further. -/
theorem NotBefore.charge (hμ : μ.Genuine H) (hσ : Sound H μ.before)
    (h : NotBefore H s b (some m) μ.before) (hcharge : μ.deed.IsCharge s m) :
    b ≤ μ.env.timestamp ∧
      NotBefore H s (μ.env.timestamp + minInterval) (some m) μ.after := by
  obtain ⟨d, hd, hnext⟩ := h m rfl
  obtain ⟨d', fees, hcollects⟩ := hμ.collects hσ hcharge
  obtain rfl := Option.some.inj (hd.symm.trans hcollects.found)
  refine ⟨hnext.trans hcollects.due, ?_⟩
  rintro _ ⟨⟩
  refine ⟨d.collected μ.env.timestamp, ?_, ?_⟩
  · rw [Host.record, hcollects.left, Function.update_self]
  · exact Nat.add_le_add_left (hσ.wellFormed s m d hd).interval_ge _

/-! ### Runs -/

/-- The collections of a subscription that is followed come after the barrier and are a day
apart. -/
theorem collectedAt_of_path {μs : List (MicroStep Address Hash World Op)} (hkey : H.KeysInjective)
    (hpath : Path (Leads H) σ μs σ') (hσ : Sound H σ)
    (hsorted : μs.Pairwise fun μ μ' => μ.env.timestamp ≤ μ'.env.timestamp)
    (hplace : NotBefore H s b place σ) (hb : ∀ μ ∈ μs, b ≤ μ.env.timestamp + minInterval) :
    (∀ t ∈ collectedAt s place μs, b ≤ t) ∧
      (collectedAt s place μs).Pairwise fun t t' => t + minInterval ≤ t' := by
  induction hpath generalizing b place with
  | nil => exact ⟨by simp [collectedAt], .nil⟩
  | @cons σ τ σ'' μ μs hd _ ih =>
    obtain ⟨rfl, rfl, hμ⟩ := hd
    obtain ⟨hlater, hsorted⟩ := List.pairwise_cons.1 hsorted
    have hafter := hμ.sound hkey hσ
    rw [collectedAt]
    split_ifs with hcharge
    · obtain ⟨m, hm, hcharge⟩ := hcharge
      obtain rfl := Option.mem_def.1 hm
      obtain ⟨hnow, hnext⟩ := hplace.charge hμ hσ hcharge
      rw [follow_of_isCharge hcharge]
      obtain ⟨hfrom, hspaced⟩ := ih hafter hsorted hnext fun μ' hμ' =>
        Nat.add_le_add_right (hlater μ' hμ') _
      refine ⟨fun t ht => ?_, List.pairwise_cons.2 ⟨hfrom, hspaced⟩⟩
      rcases List.mem_cons.1 ht with rfl | ht
      · exact hnow
      · exact hnow.trans ((Nat.le_add_right _ _).trans (hfrom t ht))
    · exact ih hafter hsorted
        (hplace.follow hkey hμ hσ (hb μ List.mem_cons_self))
        fun μ' hμ' => hb μ' (List.mem_cons_of_mem _ hμ')

/-- **No more than one collection a day.** From every reachable state with a subscription of `s`
with `m`, over every chronological run, any two collections of this subscription are at least 86400
seconds apart, with whichever merchants it is by then; so `k` days in a row have at most `k` of
them. -/
theorem followed_rate_limit (hkey : H.KeysInjective) (hreach : Reachable H σ)
    (hlive : (H.record σ s m).isSome = true) {steps : List (Step Address Hash Op)}
    (hchron : Chronological steps) :
    (collectedAt s (some m) (microHistory H σ steps)).Pairwise (fun t t' => t + 86400 ≤ t') ∧
      ∀ start k, (collectedAt s (some m) (microHistory H σ steps)).countP
        (fun t => start ≤ t ∧ t < start + k * 86400) ≤ k := by
  obtain ⟨d, hd⟩ := Option.isSome_iff_exists.1 hlive
  have hplace : NotBefore H s 0 (some m) σ := by
    rintro _ ⟨⟩
    exact ⟨d, hd, Nat.zero_le _⟩
  have hspaced := (collectedAt_of_path hkey (path_microHistory σ steps) (hreach.sound hkey)
    (pairwise_microHistory hchron) hplace fun _ _ => Nat.zero_le _).2
  exact ⟨hspaced, countP_le_of_pairwise hspaced⟩

/-- A subscription is collected, transferred to another merchant and collected again. -/
def sampleTransferred : List (Step UInt8 (List UInt8) (External UInt8)) :=
  [sampleStep 86401 (.executePayment 1 2 9),
    sampleStep 86402 (.transferSubscription 1 2 3),
    sampleStep 172801 (.batchExecutePayment 3 9 [1])]

example : collectedAt 1 (some 2) (microHistory sampleHost sampleSubscribed sampleTransferred) =
    [86401, 172801] := by decide

theorem followed_rate_limit_sample :
    (collectedAt 1 (some 2) (microHistory sampleHost sampleSubscribed sampleTransferred)).Pairwise
        (fun t t' => t + 86400 ≤ t') ∧
      ∀ start k, (collectedAt 1 (some 2)
        (microHistory sampleHost sampleSubscribed sampleTransferred)).countP
        (fun t => start ≤ t ∧ t < start + k * 86400) ≤ k :=
  followed_rate_limit sampleHost_keysInjective ⟨_, _, rfl⟩ rfl
    (by simp [Chronological, sampleTransferred, sampleStep, sampleEnv])

end SorobanPay
