import Mathlib.Data.Set.Basic
import SorobanPay.Lifecycle.Refinement

/-!
# Steps that change the listings of a merchant

For each merchant the contract keeps two lists beside the records: the merchant index, of storage
hashes, and the roster, of subscribers. Only `subscribe`, `cancel` and `transfer_subscription`
create or remove a record or touch one of the lists. Everything else leaves the lists and the set
of live pairs as they are.

## Main definitions

* `SameListing`: two states with the same lists and the same live pairs.
* `Call.Lists`: the entry points that change them.
* `Step.Performs`: a step is a successful invocation.
* `Host.liveSubscribers`: the subscribers with a record for a merchant.

## Main results

* `sameListing_next`: a step that is not a successful `subscribe`, `cancel` or
  `transfer_subscription` leaves lists and live pairs.
* `Host.liveSubscribers_setSubscription`, `Host.liveSubscribers_removeSubscription`: the live pairs
  after a record is stored or removed.
-/

set_option autoImplicit false

namespace SorobanPay

open Foundation

variable {Address Hash World Op : Type}

/-! ### Live pairs -/

namespace Host

variable (H : Host Address Hash World Op) (σ : State Address Hash World)

/-- The subscribers with a record for a merchant. -/
def liveSubscribers (m : Address) : Set Address := {s | (H.record σ s m).isSome = true}

variable {H σ} {σ' : State Address Hash World}

theorem mem_liveSubscribers {s m : Address} :
    s ∈ H.liveSubscribers σ m ↔ (H.record σ s m).isSome = true := Iff.rfl

theorem mem_liveSubscribers_iff_exists {s m : Address} :
    s ∈ H.liveSubscribers σ m ↔ ∃ d, H.record σ s m = some d := by
  rw [mem_liveSubscribers, Option.isSome_iff_exists]

theorem liveSubscribers_congr (h : H.record σ' = H.record σ) :
    H.liveSubscribers σ' = H.liveSubscribers σ := by
  unfold liveSubscribers
  rw [h]

theorem liveSubscribers_deployed (w : World) (m : Address) :
    H.liveSubscribers (State.deployed Address Hash w) m = ∅ :=
  Set.eq_empty_of_forall_notMem fun _ => Bool.false_ne_true

variable [DecidableEq Address] [DecidableEq Hash]

theorem liveSubscribers_setSubscription (hkey : H.KeysInjective) (s m m' : Address)
    (data : SubscriptionData Address) :
    H.liveSubscribers (σ.setSubscription (H.subscriptionKey s m) data) m' =
      if m' = m then insert s (H.liveSubscribers σ m) else H.liveSubscribers σ m' := by
  ext s'
  rw [mem_liveSubscribers, record_setSubscription hkey]
  by_cases hm : m' = m
  · subst hm
    by_cases hs : s' = s <;> simp [hs, mem_liveSubscribers]
  · simp [hm, mem_liveSubscribers]

theorem liveSubscribers_removeSubscription (hkey : H.KeysInjective) (s m m' : Address) :
    H.liveSubscribers (σ.removeSubscription (H.subscriptionKey s m)) m' =
      if m' = m then H.liveSubscribers σ m \ {s} else H.liveSubscribers σ m' := by
  ext s'
  rw [mem_liveSubscribers, record_removeSubscription hkey]
  by_cases hm : m' = m
  · subst hm
    by_cases hs : s' = s <;> simp [hs, mem_liveSubscribers]
  · simp [hm, mem_liveSubscribers]

end Host

/-! ### States with the same listings -/

/-- Two states with the same merchant indexes, the same rosters and the same live pairs. -/
structure SameListing (H : Host Address Hash World Op) (σ σ' : State Address Hash World) :
    Prop where
  index : σ'.merchantIndex = σ.merchantIndex
  roster : σ'.merchantSubscribers = σ.merchantSubscribers
  live : ∀ m, H.liveSubscribers σ' m = H.liveSubscribers σ m

/-- The entry points that change the listings. -/
def Call.Lists : Call Address → Prop
  | .subscribe .. | .cancel .. | .transferSubscription .. => True
  | _ => False

namespace SameListing

variable {H : Host Address Hash World Op} {σ σ' σ'' : State Address Hash World}

theorem refl (σ : State Address Hash World) : SameListing H σ σ := ⟨rfl, rfl, fun _ => rfl⟩

theorem trans (h : SameListing H σ σ') (h' : SameListing H σ' σ'') : SameListing H σ σ'' :=
  ⟨h'.index.trans h.index, h'.roster.trans h.roster, fun m => (h'.live m).trans (h.live m)⟩

/-- Rewriting the record of a live pair. -/
theorem of_update [DecidableEq Hash] {s m : Address} {d d' : SubscriptionData Address}
    (hd : H.record σ s m = some d) (hindex : σ'.merchantIndex = σ.merchantIndex)
    (hroster : σ'.merchantSubscribers = σ.merchantSubscribers)
    (hrecord : σ'.subscriptions =
      Function.update σ.subscriptions (H.subscriptionKey s m) (some d')) : SameListing H σ σ' := by
  refine ⟨hindex, hroster, fun m' => Set.ext fun s' => ?_⟩
  simp only [Host.mem_liveSubscribers, Host.record, hrecord, Function.update_apply]
  split_ifs with hkey
  · rw [Host.record, ← hkey] at hd
    simp [hd]
  · rfl

end SameListing

section Steps

variable [DecidableEq Address] [DecidableEq Hash] {H : Host Address Hash World Op}
  {env : Env Address} {σ σ' : State Address Hash World} {μ : MicroStep Address Hash World Op}

theorem Call.sameListing {call : Call Address} {reply : Reply Address} (plain : call.IsPlain)
    (hlists : ¬ call.Lists) (h : (call.run H env).Returns σ reply σ') : SameListing H σ σ' := by
  cases call with
  | init | setMaxAmount | migrate | setProtocolFee =>
    obtain ⟨-, hindex, hroster⟩ := Call.leaves_of_administration h trivial
    exact ⟨hindex, hroster, fun m =>
      congrFun (Host.liveSubscribers_congr (Call.record_of_administration h trivial)) m⟩
  | updateSubscription s m amount interval =>
    simp only [Call.run, Tx.returns_bind_const, returns_updateSubscription] at h
    obtain ⟨⟨-, d, hd, -, -, rfl⟩, -⟩ := h
    exact .of_update hd rfl rfl rfl
  | pauseSubscription s m token resumeAt =>
    simp only [Call.run, Tx.returns_bind_const, returns_pauseSubscription] at h
    obtain ⟨⟨-, d, hd, -, -, rfl⟩, -⟩ := h
    exact .of_update hd rfl rfl rfl
  | resumeSubscription s m token =>
    simp only [Call.run, Tx.returns_bind_const, returns_resumeSubscription] at h
    obtain ⟨⟨-, d, hd, -, -, rfl⟩, -⟩ := h
    exact .of_update hd rfl rfl rfl
  | subscribe | cancel | transferSubscription => exact (hlists trivial).elim
  | executePayment | batchExecutePayment => exact plain.elim

theorem MicroStep.Genuine.sameListing (hμ : μ.Genuine H)
    (hlists : ∀ call, μ.deed = .applied call → ¬ call.Lists) :
    SameListing H μ.before μ.after := by
  cases hμ with
  | applied plain h => exact Call.sameListing plain (hlists _ rfl) h
  | executed h =>
    obtain ⟨-, d₀, hd₀, -, d, -, -, -, w, fees, -, rfl⟩ := returns_executePayment.1 h
    exact .of_update hd₀ rfl rfl rfl
  | entry auth hnow h =>
    cases h with
    | absent | notDue => exact .refl _
    | lowAllowance => exact ⟨rfl, rfl, fun _ => rfl⟩
    | underfunded hd => exact .of_update hd rfl rfl rfl
    | charged hd => exact .of_update hd rfl rfl rfl
  | reverted => exact .refl _
  | opened | lapsed | external => exact ⟨rfl, rfl, fun _ => rfl⟩

/-- The step is a successful invocation of `call`. -/
def Step.Performs (H : Host Address Hash World Op) (σ : State Address Hash World)
    (step : Step Address Hash Op) (call : Call Address) : Prop :=
  step.action = .invoke call ∧ ∃ reply, (call.run H step.env).Returns σ reply (next H σ step)

theorem Step.Performs.eq {step : Step Address Hash Op} {call call' : Call Address}
    (h : step.Performs H σ call) (h' : step.Performs H σ call') : call = call' :=
  Action.invoke.inj (h.1.symm.trans h'.1)

/-- The calls among the micro-steps of a step are its own. -/
theorem action_of_applied {step : Step Address Hash Op} (hμ : μ ∈ microSteps H σ step)
    {call : Call Address} (hdeed : μ.deed = .applied call) : step.action = .invoke call := by
  obtain ⟨env, action⟩ := step
  cases action with
  | invoke call' =>
    rcases hr : invoke H env call' σ with ⟨e | reply, τ⟩
    · simp only [microSteps, hr, List.mem_singleton] at hμ
      rw [hμ] at hdeed
      cases hdeed
    · simp only [microSteps, hr] at hμ
      cases call' with
      | batchExecutePayment m token subscribers =>
        rcases List.mem_cons.1 hμ with rfl | hμ
        · cases hdeed
        · obtain ⟨-, s, charged, hentry⟩ := env_deed_of_mem_entrySteps hμ
          rw [hentry] at hdeed
          cases hdeed
      | executePayment s m token =>
        rw [List.mem_singleton.1 hμ] at hdeed
        cases hdeed
      | _ =>
        rw [List.mem_singleton.1 hμ] at hdeed
        rw [Deed.applied.inj hdeed]
  | lapse expired =>
    rw [List.mem_singleton.1 hμ] at hdeed
    cases hdeed
  | external op =>
    rw [List.mem_singleton.1 hμ] at hdeed
    cases hdeed

/-- A plain call that succeeds is one micro-step. -/
theorem Step.Performs.microSteps_eq {step : Step Address Hash Op} {call : Call Address}
    (h : step.Performs H σ call) (plain : call.IsPlain) :
    microSteps H σ step = [⟨step.env, σ, .applied call, next H σ step⟩] := by
  obtain ⟨env, action⟩ := step
  obtain ⟨haction, reply, hr⟩ := h
  obtain rfl : action = .invoke call := haction
  rw [microSteps_of_returns hr]
  cases call with
  | executePayment | batchExecutePayment => exact plain.elim
  | _ => rfl

theorem Step.Performs.mem_microSteps {step : Step Address Hash Op} {call : Call Address}
    (h : step.Performs H σ call) (plain : call.IsPlain) :
    ⟨step.env, σ, .applied call, next H σ step⟩ ∈ microSteps H σ step := by
  rw [h.microSteps_eq plain]
  exact List.mem_singleton_self _

/-- A plain call among the micro-steps of a step is the whole step, and it succeeds. -/
theorem performs_of_applied {step : Step Address Hash Op} (hμ : μ ∈ microSteps H σ step)
    {call : Call Address} (hdeed : μ.deed = .applied call) :
    μ.before = σ ∧ step.Performs H σ call := by
  have haction := action_of_applied hμ hdeed
  obtain ⟨env, action⟩ := step
  obtain rfl : action = .invoke call := haction
  rcases (call.run H env).returns_or_fails σ with ⟨reply, τ, hr⟩ | ⟨e, hf⟩
  · refine ⟨?_, rfl, reply, by rwa [next_eq_of_returns hr]⟩
    rw [microSteps_of_returns hr] at hμ
    cases call with
    | batchExecutePayment m token subscribers =>
      rcases List.mem_cons.1 hμ with rfl | hμ
      · rfl
      · obtain ⟨-, s, charged, hentry⟩ := env_deed_of_mem_entrySteps hμ
        cases hentry.symm.trans hdeed
    | _ => rw [List.mem_singleton.1 hμ]
  · rw [microSteps_of_fails hf, List.mem_singleton] at hμ
    rw [hμ] at hdeed
    cases hdeed

/-- **Steps and listings.** A step that is not a successful invocation of `subscribe`, `cancel` or
`transfer_subscription` leaves the listings and the live pairs. -/
theorem sameListing_next {step : Step Address Hash Op}
    (h : ¬ ∃ call, step.Performs H σ call ∧ call.Lists) : SameListing H σ (next H σ step) := by
  by_cases hlists : ∃ call, step.action = .invoke call ∧ call.Lists
  · obtain ⟨env, action⟩ := step
    obtain ⟨call, rfl, hcl⟩ := hlists
    have hstays : next H σ ⟨env, .invoke call⟩ = σ := by
      refine next_eq_of_not_returns fun reply τ hr => h ⟨call, ⟨rfl, reply, ?_⟩, hcl⟩
      rwa [next_eq_of_returns hr]
    rw [hstays]
    exact .refl σ
  · exact ((path_microSteps (H := H) σ step).guarded (SameListing H σ)
      (fun μ => ∀ call, μ.deed = .applied call → ¬ call.Lists) (fun _ => True)
      (fun τ μ τ' hτ hμ hl => by
        obtain ⟨rfl, rfl, hgen⟩ := hl
        exact ⟨trivial, hτ.trans (hgen.sameListing hμ)⟩) (.refl σ)
      fun μ hμ call hdeed hcl => hlists ⟨call, action_of_applied hμ hdeed, hcl⟩).2

end Steps

end SorobanPay
