import SorobanPay.Contract.Collection

/-!
# Invocations, runs and their micro-steps

A run of the contract is a list of steps: invocations of its entry points, lapses of execution
markers at the end of their time-to-live, and operations of others on the token contracts. Every
step has its own environment; the host commits an invocation that returns and undoes one that
fails.

One step may charge many subscriptions, or one subscription several times. What happens to a
single subscription is seen on the micro-steps of a run: an invocation of `execute_payment` or of
any entry point outside the payment paths is one of them, a batch is one for its opening event and
one for each of its entries. A micro-step records the ledger state before and after it, and the
micro-steps of a run are chained: each starts where the one before it ended
(`path_microHistory`).

## Main definitions

* `Call`, `Call.run`, `invoke`: the entry points that change the state, and their invocation.
* `Step`, `next`, `Chronological`, `Reachable`: runs.
* `Deed`, `MicroStep`, `microSteps`: the micro-steps of a step.
* `MicroStep.Genuine`: what the micro-steps of each kind do.

## Main results

* `path_microSteps`, `path_microHistory`: the micro-steps of a step, and of a run, lead from its
  first state to its last, and all of them are genuine.
* `pairwise_microHistory`: the micro-steps of a chronological run are in order of time.
-/

set_option autoImplicit false

namespace SorobanPay

open Foundation

variable {Address Hash World Op : Type}

/-! ### Invocations -/

/-- The entry points that change the state, with their arguments. -/
inductive Call (Address : Type)
  | init (admin : Address)
  | setMaxAmount (admin : Address) (newMax : ℤ)
  | migrate (admin : Address)
  | setProtocolFee (admin : Address) (feeBps : ℕ) (feeCollector : Address)
  | subscribe (subscriber merchant token : Address) (amount : ℤ) (interval : ℕ) (strict : Bool)
      (gracePeriod : Option ℕ)
  | updateSubscription (subscriber merchant : Address) (newAmount : ℤ) (newInterval : ℕ)
  | pauseSubscription (subscriber merchant token : Address) (resumeAt : Option ℕ)
  | resumeSubscription (subscriber merchant token : Address)
  | cancel (subscriber merchant token : Address)
  | transferSubscription (subscriber oldMerchant newMerchant : Address)
  | executePayment (subscriber merchant token : Address)
  | batchExecutePayment (merchant token : Address) (subscribers : List Address)
  deriving DecidableEq, Repr

/-- What an invocation returns: nothing, or the reports of a batch. -/
inductive Reply (Address : Type)
  | done
  | reports (results : List (Address × Bool))
  deriving DecidableEq, Repr

section Invocation

variable [DecidableEq Address] [DecidableEq Hash] (H : Host Address Hash World Op)

/-- The body of an entry point. -/
def Call.run (env : Env Address) : Call Address → Contract Address Hash World (Reply Address)
  | .init admin => do SorobanPay.init admin; pure .done
  | .setMaxAmount admin newMax => do SorobanPay.setMaxAmount H env admin newMax; pure .done
  | .migrate admin => do SorobanPay.migrate H env admin; pure .done
  | .setProtocolFee admin feeBps feeCollector => do
    SorobanPay.setProtocolFee H env admin feeBps feeCollector
    pure .done
  | .subscribe subscriber merchant token amount interval strict gracePeriod => do
    SorobanPay.subscribe H env subscriber merchant token amount interval strict gracePeriod
    pure .done
  | .updateSubscription subscriber merchant newAmount newInterval => do
    SorobanPay.updateSubscription H env subscriber merchant newAmount newInterval
    pure .done
  | .pauseSubscription subscriber merchant token resumeAt => do
    SorobanPay.pauseSubscription H env subscriber merchant token resumeAt
    pure .done
  | .resumeSubscription subscriber merchant token => do
    SorobanPay.resumeSubscription H env subscriber merchant token
    pure .done
  | .cancel subscriber merchant token => do
    SorobanPay.cancel H env subscriber merchant token
    pure .done
  | .transferSubscription subscriber oldMerchant newMerchant => do
    SorobanPay.transferSubscription H env subscriber oldMerchant newMerchant
    pure .done
  | .executePayment subscriber merchant token => do
    SorobanPay.executePayment H env subscriber merchant token
    pure .done
  | .batchExecutePayment merchant token subscribers => do
    let results ← SorobanPay.batchExecutePayment H env merchant token subscribers
    pure (.reports results)

/-- An invocation of an entry point, with the host's commit or rollback. -/
def invoke (env : Env Address) (call : Call Address) (σ : State Address Hash World) :
    Except Fault (Reply Address) × State Address Hash World :=
  (call.run H env).commit σ

end Invocation

/-! ### Runs -/

/-- What happens in one step of a run. `lapse` removes the execution markers whose time-to-live has
ended. -/
inductive Action (Address Hash Op : Type)
  | invoke (call : Call Address)
  | lapse (expired : Hash → ℕ → Bool)
  | external (op : Op)

/-- A step of a run, with the environment in which it happens. -/
structure Step (Address Hash Op : Type) where
  env : Env Address
  action : Action Address Hash Op

/-- The removal of execution markers. -/
@[simps] def State.lapse (σ : State Address Hash World) (expired : Hash → ℕ → Bool) :
    State Address Hash World :=
  { σ with
    executionMarkers := fun hash nonce => σ.executionMarkers hash nonce && !expired hash nonce }

section Runs

variable [DecidableEq Address] [DecidableEq Hash] (H : Host Address Hash World Op)

/-- The effect of one step. -/
def next (σ : State Address Hash World) (step : Step Address Hash Op) :
    State Address Hash World :=
  match step.action with
  | .invoke call => (invoke H step.env call σ).2
  | .lapse expired => σ.lapse expired
  | .external op => σ.setTokens (H.tokens.act σ.tokens op)

/-- The states some run leads to from the deployment of the contract. -/
def Reachable (σ : State Address Hash World) : Prop :=
  ∃ w steps, σ = after (next H) (State.deployed Address Hash w) steps

end Runs

/-- The ledger timestamps of a run do not decrease. -/
def Chronological (steps : List (Step Address Hash Op)) : Prop :=
  steps.Pairwise fun i j => i.env.timestamp ≤ j.env.timestamp

/-! ### Micro-steps -/

/-- What a micro-step does. -/
inductive Deed (Address Hash Op : Type)
  /-- A successful invocation outside the payment paths. -/
  | applied (call : Call Address)
  /-- A successful invocation of `execute_payment`. -/
  | executed (subscriber merchant : Address)
  /-- The opening event of a successful batch. -/
  | opened (merchant : Address) (size : ℕ)
  /-- One entry of a successful batch, and whether it was charged. -/
  | entry (subscriber merchant : Address) (charged : Bool)
  /-- An invocation that failed. -/
  | reverted (call : Call Address)
  | lapsed (expired : Hash → ℕ → Bool)
  | external (op : Op)

/-- A collection from `s` for the pair `(s, m)`, by either path. -/
def Deed.IsCharge (s m : Address) (deed : Deed Address Hash Op) : Prop :=
  deed = .executed s m ∨ deed = .entry s m true

instance [DecidableEq Address] (s m : Address) :
    (deed : Deed Address Hash Op) → Decidable (deed.IsCharge s m)
  | .executed s' m' => decidable_of_iff (s' = s ∧ m' = m) (by simp [Deed.IsCharge])
  | .entry s' m' charged =>
    decidable_of_iff (s' = s ∧ m' = m ∧ charged = true) (by simp [Deed.IsCharge])
  | .applied _ | .opened .. | .reverted _ | .lapsed _ | .external _ =>
    .isFalse (by simp [Deed.IsCharge])

/-- A micro-step of a run. -/
structure MicroStep (Address Hash World Op : Type) where
  env : Env Address
  before : State Address Hash World
  deed : Deed Address Hash Op
  after : State Address Hash World

section MicroSteps

variable [DecidableEq Address] [DecidableEq Hash] (H : Host Address Hash World Op)

/-- The micro-steps of the entries of a batch. -/
def entrySteps (env : Env Address) (config : Option (ProtocolFeeConfig Address)) (m : Address) :
    State Address Hash World → List Address → List (MicroStep Address Hash World Op)
  | _, [] => []
  | σ, s :: subscribers =>
    match (batchEntry H env config env.timestamp m s).run σ with
    | (.ok charged, τ) => ⟨env, σ, .entry s m charged, τ⟩ :: entrySteps env config m τ subscribers
    | (.error _, _) => []

/-- The micro-steps of a successful invocation that ends in the state `σ'`. -/
def callSteps (env : Env Address) (σ σ' : State Address Hash World) :
    Call Address → List (MicroStep Address Hash World Op)
  | .executePayment s m _ => [⟨env, σ, .executed s m, σ'⟩]
  | .batchExecutePayment m _ subscribers =>
    let opened := σ.publish (.batchExecuteInitiated m subscribers.length)
    ⟨env, σ, .opened m subscribers.length, opened⟩ ::
      entrySteps H env σ.protocolFee m opened subscribers
  | call => [⟨env, σ, .applied call, σ'⟩]

/-- The micro-steps of a step. -/
def microSteps (σ : State Address Hash World) (step : Step Address Hash Op) :
    List (MicroStep Address Hash World Op) :=
  match step.action with
  | .invoke call =>
    match invoke H step.env call σ with
    | (.ok _, σ') => callSteps H step.env σ σ' call
    | (.error _, _) => [⟨step.env, σ, .reverted call, σ⟩]
  | .lapse expired => [⟨step.env, σ, .lapsed expired, σ.lapse expired⟩]
  | .external op => [⟨step.env, σ, .external op, σ.setTokens (H.tokens.act σ.tokens op)⟩]

/-- The micro-steps of a run. -/
def microHistory (σ : State Address Hash World) (steps : List (Step Address Hash Op)) :
    List (MicroStep Address Hash World Op) :=
  history (next H) (microSteps H) σ steps

/-- The entry points outside the payment paths. -/
def Call.IsPlain : Call Address → Prop
  | .executePayment .. | .batchExecutePayment .. => False
  | _ => True

/-- **What micro-steps do**, kind by kind. -/
inductive MicroStep.Genuine : MicroStep Address Hash World Op → Prop
  | applied {env : Env Address} {σ σ' : State Address Hash World} {call : Call Address}
      {reply : Reply Address} (plain : call.IsPlain)
      (h : (call.run H env).Returns σ reply σ') : Genuine ⟨env, σ, .applied call, σ'⟩
  | executed {env : Env Address} {σ σ' : State Address Hash World} {s m token : Address}
      (h : (executePayment H env s m token).Returns σ () σ') :
      Genuine ⟨env, σ, .executed s m, σ'⟩
  | opened {env : Env Address} {σ : State Address Hash World} {m : Address} {size : ℕ} :
      Genuine ⟨env, σ, .opened m size, σ.publish (.batchExecuteInitiated m size)⟩
  | entry {env : Env Address} {σ σ' : State Address Hash World} {s m : Address} {charged : Bool}
      (auth : H.authorizes env m = true) (hnow : 0 < env.timestamp)
      (h : EntryStep H env σ.protocolFee s m σ charged σ') :
      Genuine ⟨env, σ, .entry s m charged, σ'⟩
  | reverted {env : Env Address} {σ : State Address Hash World} {call : Call Address} :
      Genuine ⟨env, σ, .reverted call, σ⟩
  | lapsed {env : Env Address} {σ : State Address Hash World} {expired : Hash → ℕ → Bool} :
      Genuine ⟨env, σ, .lapsed expired, σ.lapse expired⟩
  | external {env : Env Address} {σ : State Address Hash World} {op : Op} :
      Genuine ⟨env, σ, .external op, σ.setTokens (H.tokens.act σ.tokens op)⟩

/-- A genuine micro-step between two states. -/
def Leads (σ : State Address Hash World) (μ : MicroStep Address Hash World Op)
    (σ' : State Address Hash World) : Prop :=
  μ.before = σ ∧ μ.after = σ' ∧ μ.Genuine H

/-! ### Micro-steps are chained -/

section Chained

variable {H} {env : Env Address} {σ σ' : State Address Hash World}

/-- Entries of a batch leave the fee configuration as it is. -/
theorem EntryStep.protocolFee_eq {config : Option (ProtocolFeeConfig Address)} {s m : Address}
    {charged : Bool} (h : EntryStep H env config s m σ charged σ') :
    σ'.protocolFee = σ.protocolFee := by
  cases h <;> rfl

theorem path_entrySteps {config : Option (ProtocolFeeConfig Address)} {m : Address}
    {subscribers : List Address} {results : List (Address × Bool)}
    (auth : H.authorizes env m = true) (hnow : 0 < env.timestamp) (hconfig : σ.protocolFee = config)
    (h : (batchLoop H env config env.timestamp m subscribers).Returns σ results σ') :
    Path (Leads H) σ (entrySteps H env config m σ subscribers) σ' := by
  induction subscribers generalizing σ results with
  | nil =>
    obtain ⟨-, rfl⟩ := returns_batchLoop_nil.1 h
    exact .nil _
  | cons s subscribers ih =>
    obtain ⟨charged, τ, hentry, rest, hrest, -⟩ := returns_batchLoop_cons.1 h
    have hrun : (batchEntry H env config env.timestamp m s).run σ = (.ok charged, τ) :=
      returns_batchEntry.2 hentry
    simp only [entrySteps, hrun]
    refine .cons ⟨rfl, rfl, .entry auth hnow (hconfig ▸ hentry)⟩ (ih ?_ hrest)
    rw [hentry.protocolFee_eq, hconfig]

theorem returns_run_batch {m token : Address} {subscribers : List Address} {reply : Reply Address} :
    ((Call.batchExecutePayment m token subscribers).run H env).Returns σ reply σ' ↔
      ∃ results, (batchExecutePayment H env m token subscribers).Returns σ results σ' ∧
        .reports results = reply := by
  simp only [Call.run, Tx.returns_bind, Tx.returns_pure]
  constructor
  · rintro ⟨results, _, h, hreply, rfl⟩
    exact ⟨results, h, hreply⟩
  · rintro ⟨results, h, hreply⟩
    exact ⟨results, σ', h, hreply, rfl⟩

theorem fails_run_batch {m token : Address} {subscribers : List Address} {e : Fault} :
    ((Call.batchExecutePayment m token subscribers).run H env).Fails σ e ↔
      (batchExecutePayment H env m token subscribers).Fails σ e := by
  simp only [Call.run, Tx.fails_bind, Tx.fails_pure, and_false, exists_false, or_false]

/-- The micro-steps of an invocation that returns are those of its call. -/
theorem microSteps_of_returns {call : Call Address} {reply : Reply Address}
    (h : (call.run H env).Returns σ reply σ') :
    microSteps H σ (⟨env, .invoke call⟩ : Step Address Hash Op) = callSteps H env σ σ' call := by
  simp only [microSteps, invoke, Tx.commit_of_returns h]

/-- An invocation that fails is undone in one micro-step. -/
theorem microSteps_of_fails {call : Call Address} {e : Fault} (h : (call.run H env).Fails σ e) :
    microSteps H σ (⟨env, .invoke call⟩ : Step Address Hash Op) =
      [⟨env, σ, .reverted call, σ⟩] := by
  simp only [microSteps, invoke, Tx.commit_of_fails h]

theorem next_eq_of_returns {call : Call Address} {reply : Reply Address}
    (h : (call.run H env).Returns σ reply σ') : next H σ ⟨env, .invoke call⟩ = σ' := by
  simp only [next, invoke, Tx.commit_of_returns h]

theorem next_eq_of_fails {call : Call Address} {e : Fault} (h : (call.run H env).Fails σ e) :
    next H σ ⟨env, .invoke call⟩ = σ := by
  simp only [next, invoke, Tx.commit_of_fails h]

theorem path_callSteps {call : Call Address} {reply : Reply Address}
    (h : (call.run H env).Returns σ reply σ') :
    Path (Leads H) σ (callSteps H env σ σ' call) σ' := by
  cases call with
  | executePayment s m token =>
    simp only [Call.run, Tx.returns_bind, Tx.returns_pure] at h
    obtain ⟨_, _, hexecute, -, rfl⟩ := h
    exact .single ⟨rfl, rfl, .executed hexecute⟩
  | batchExecutePayment m token subscribers =>
    obtain ⟨results, hbatch, -⟩ := returns_run_batch.1 h
    obtain ⟨auth, -, -, hnow, hloop⟩ := returns_batchExecutePayment.1 hbatch
    exact .cons ⟨rfl, rfl, .opened⟩ (path_entrySteps auth hnow rfl hloop)
  | _ => exact .single ⟨rfl, rfl, .applied trivial h⟩

/-- The micro-steps of a step lead from its first state to its last. -/
theorem path_microSteps (σ : State Address Hash World) (step : Step Address Hash Op) :
    Path (Leads H) σ (microSteps H σ step) (next H σ step) := by
  obtain ⟨env, action⟩ := step
  cases action with
  | invoke call =>
    rcases (call.run H env).returns_or_fails σ with ⟨reply, τ, hr⟩ | ⟨e, hf⟩
    · rw [microSteps_of_returns hr, next_eq_of_returns hr]
      exact path_callSteps hr
    · rw [microSteps_of_fails hf, next_eq_of_fails hf]
      exact .single ⟨rfl, rfl, .reverted⟩
  | lapse expired => exact .single ⟨rfl, rfl, .lapsed⟩
  | external op => exact .single ⟨rfl, rfl, .external⟩

/-- **Micro-steps of a run.** They lead from its first state to its last. -/
theorem path_microHistory (σ : State Address Hash World) (steps : List (Step Address Hash Op)) :
    Path (Leads H) σ (microHistory H σ steps) (after (next H) σ steps) :=
  path_history (P := fun _ _ => True) (fun σ step _ => path_microSteps σ step)
    (along_of_forall fun _ _ => trivial)

/-- The micro-steps of entries happen in the environment of the batch, and are entries. -/
theorem env_deed_of_mem_entrySteps {config : Option (ProtocolFeeConfig Address)} {m : Address}
    {subscribers : List Address} {μ : MicroStep Address Hash World Op}
    (h : μ ∈ entrySteps H env config m σ subscribers) :
    μ.env = env ∧ ∃ s charged, μ.deed = .entry s m charged := by
  induction subscribers generalizing σ with
  | nil => simp [entrySteps] at h
  | cons s subscribers ih =>
    rcases hrun : (batchEntry H env config env.timestamp m s).run σ with ⟨e | charged, τ⟩
    · simp [entrySteps, hrun] at h
    · simp only [entrySteps, hrun, List.mem_cons] at h
      rcases h with rfl | h
      · exact ⟨rfl, s, charged, rfl⟩
      · exact ih h

theorem env_of_mem_callSteps {call : Call Address} {μ : MicroStep Address Hash World Op}
    (h : μ ∈ callSteps H env σ σ' call) : μ.env = env := by
  cases call with
  | batchExecutePayment m token subscribers =>
    rcases List.mem_cons.1 h with rfl | h
    · rfl
    · exact (env_deed_of_mem_entrySteps h).1
  | _ => rw [List.mem_singleton.1 h]

/-- The micro-steps of a step happen in its environment. -/
theorem env_of_mem_microSteps {step : Step Address Hash Op} {μ : MicroStep Address Hash World Op}
    (h : μ ∈ microSteps H σ step) : μ.env = step.env := by
  obtain ⟨env, action⟩ := step
  cases action with
  | invoke call =>
    rcases hr : invoke H env call σ with ⟨e | reply, τ⟩
    · simp only [microSteps, hr, List.mem_singleton] at h
      rw [h]
    · simp only [microSteps, hr] at h
      exact env_of_mem_callSteps h
  | lapse expired => rw [List.mem_singleton.1 h]
  | external op => rw [List.mem_singleton.1 h]

/-- The micro-steps of a chronological run are in the order of their timestamps. -/
theorem pairwise_microHistory {steps : List (Step Address Hash Op)} (h : Chronological steps) :
    (microHistory H σ steps).Pairwise fun μ μ' => μ.env.timestamp ≤ μ'.env.timestamp :=
  pairwise_history (fun step : Step Address Hash Op => step.env.timestamp)
    (fun _ _ _ ho => by rw [env_of_mem_microSteps ho]) h

/-! ### Invocations in a run -/

/-- An invocation that does not return leaves the state. -/
theorem next_eq_of_not_returns {call : Call Address}
    (h : ∀ reply σ', ¬ (call.run H env).Returns σ reply σ') : next H σ ⟨env, .invoke call⟩ = σ := by
  rcases (call.run H env).returns_or_fails σ with ⟨reply, σ', hr⟩ | ⟨e, hf⟩
  · exact (h reply σ' hr).elim
  · exact next_eq_of_fails hf

/-- An invocation that has a reply returns it. -/
theorem returns_of_invoke {call : Call Address} {reply : Reply Address}
    (h : (invoke H env call σ).1 = .ok reply) :
    (call.run H env).Returns σ reply (next H σ ⟨env, .invoke call⟩) := by
  rcases (call.run H env).returns_or_fails σ with ⟨reply', σ', hr⟩ | ⟨e, hf⟩
  · rw [invoke, Tx.commit_of_returns hr] at h
    obtain rfl := Except.ok.inj h
    rwa [next_eq_of_returns hr]
  · rw [invoke, Tx.commit_of_fails hf] at h
    cases h

/-! ### The micro-steps of a batch -/

section Batches

variable {μ : MicroStep Address Hash World Op} {s m t : Address} {subscribers : List Address}
  {results : List (Address × Bool)}

/-- The entries of a batch are its reports. -/
theorem map_deed_entrySteps {config : Option (ProtocolFeeConfig Address)}
    (h : (batchLoop H env config env.timestamp m subscribers).Returns σ results σ') :
    (entrySteps H env config m σ subscribers).map MicroStep.deed =
      results.map fun report => .entry report.1 m report.2 := by
  induction subscribers generalizing σ results with
  | nil =>
    obtain ⟨rfl, -⟩ := returns_batchLoop_nil.1 h
    rfl
  | cons s subscribers ih =>
    obtain ⟨charged, τ, hentry, rest, hrest, rfl⟩ := returns_batchLoop_cons.1 h
    have hrun : (batchEntry H env config env.timestamp m s).run σ = (.ok charged, τ) :=
      returns_batchEntry.2 hentry
    simp only [entrySteps, hrun, List.map_cons, ih hrest]

theorem map_fst_results {config : Option (ProtocolFeeConfig Address)}
    (h : (batchLoop H env config env.timestamp m subscribers).Returns σ results σ') :
    results.map Prod.fst = subscribers := by
  induction subscribers generalizing σ results with
  | nil =>
    obtain ⟨rfl, -⟩ := returns_batchLoop_nil.1 h
    rfl
  | cons s subscribers ih =>
    obtain ⟨charged, τ, -, rest, hrest, rfl⟩ := returns_batchLoop_cons.1 h
    rw [List.map_cons, ih hrest]

/-- The step that invokes a batch. -/
abbrev batchStep (Op : Type) (Hash : Type) (env : Env Address) (m t : Address)
    (subscribers : List Address) : Step Address Hash Op :=
  ⟨env, .invoke (.batchExecutePayment m t subscribers)⟩

/-- The deeds of a batch that returns. -/
theorem map_deed_batchStep
    (h : (batchExecutePayment H env m t subscribers).Returns σ results σ') :
    (microSteps H σ (batchStep Op Hash env m t subscribers)).map MicroStep.deed =
      .opened m subscribers.length :: results.map fun report => .entry report.1 m report.2 := by
  simp only [microSteps_of_returns (returns_run_batch.2 ⟨results, h, rfl⟩), callSteps,
    List.map_cons, map_deed_entrySteps (returns_batchExecutePayment.1 h).2.2.2.2]

/-- What a batch does. -/
def Deed.OfBatch (m : Address) : Deed Address Hash Op → Prop
  | .opened .. => True
  | .entry _ m' _ => m' = m
  | .reverted _ => True
  | _ => False

theorem ofBatch_of_mem (hμ : μ ∈ microSteps H σ (batchStep Op Hash env m t subscribers)) :
    μ.deed.OfBatch m := by
  rcases (batchExecutePayment H env m t subscribers).returns_or_fails σ with
    ⟨results, σ', hr⟩ | ⟨e, hf⟩
  · have hdeed := List.mem_map_of_mem (f := MicroStep.deed) hμ
    rw [map_deed_batchStep hr, List.mem_cons, List.mem_map] at hdeed
    rcases hdeed with hdeed | ⟨report, -, hdeed⟩
    · rw [hdeed]
      trivial
    · rw [← hdeed]
      rfl
  · rw [microSteps_of_fails (fails_run_batch.2 hf), List.mem_singleton] at hμ
    rw [hμ]
    trivial

/-- An entry of a batch belongs to a report. -/
theorem report_of_mem (hμ : μ ∈ microSteps H σ (batchStep Op Hash env m t subscribers))
    {charged : Bool} (hdeed : μ.deed = .entry s m charged) :
    s ∈ subscribers ∧ ∃ results σ',
      (batchExecutePayment H env m t subscribers).Returns σ results σ' ∧
        (s, charged) ∈ results := by
  rcases (batchExecutePayment H env m t subscribers).returns_or_fails σ with
    ⟨results, σ', hr⟩ | ⟨e, hf⟩
  · have hmem := List.mem_map_of_mem (f := MicroStep.deed) hμ
    rw [map_deed_batchStep hr, hdeed, List.mem_cons, List.mem_map] at hmem
    rcases hmem with h | ⟨⟨s', charged'⟩, hreport, h⟩
    · cases h
    · obtain ⟨rfl, -, rfl⟩ := Deed.entry.inj h
      refine ⟨?_, results, σ', hr, hreport⟩
      rw [← map_fst_results (returns_batchExecutePayment.1 hr).2.2.2.2]
      exact List.mem_map_of_mem hreport
  · rw [microSteps_of_fails (fails_run_batch.2 hf), List.mem_singleton] at hμ
    rw [hμ] at hdeed
    cases hdeed

/-- A report belongs to an entry of the batch. -/
theorem entry_of_report (h : (batchExecutePayment H env m t subscribers).Returns σ results σ')
    {charged : Bool} (hreport : (s, charged) ∈ results) :
    ∃ μ ∈ microSteps H σ (batchStep Op Hash env m t subscribers), μ.deed = .entry s m charged := by
  have hmem : (Deed.entry s m charged : Deed Address Hash Op) ∈
      (microSteps H σ (batchStep Op Hash env m t subscribers)).map MicroStep.deed := by
    rw [map_deed_batchStep h]
    exact List.mem_cons_of_mem _ (List.mem_map.2 ⟨_, hreport, rfl⟩)
  exact List.mem_map.1 hmem

end Batches

end Chained

end MicroSteps

end SorobanPay
