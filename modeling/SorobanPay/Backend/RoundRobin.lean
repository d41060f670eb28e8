import SorobanPay.Backend.RpcFailover
import SorobanPay.Foundation.Rotation

/-!
# Taking turns among healthy endpoints

Requests should go round the healthy endpoints, so that as many requests in a row as there are
healthy endpoints are served by different ones. The pointer of the pool only moves when the endpoint
that it is at succeeds; at an unhealthy one it stays, and the next healthy one after it serves every
request. `round_robin_iff` says from which states the requests go round.

## Main definitions

* `serves`: the endpoint by which a request is served.
* `Smooth`: no endpoint is restored, and requests succeed.

## Main results

* `rotation_history`: the pool serves requests as a `Foundation.Rotation`.
* `round_robin_iff`: when as many requests as there are healthy endpoints are served by different
  ones.
-/

set_option autoImplicit false

namespace SorobanPay.RpcPool

open Foundation

variable {R : Type} {pool : RpcConnectionPool} {s s' : PoolState R} {r : Requesting R}
  {idx now n c : ℕ} {p : ℕ → Prop}

/-! ### Requests that succeed -/

/-- The endpoint by which the request that a step ends has been served. -/
def serves (s s' : PoolState R) : List ℕ :=
  match s.call, s'.call with
  | .waiting _ idx _ _, .ended _ (.ok _) => [idx]
  | _, _ => []

/-- No request is under way. -/
def Call.Idle : Call R → Prop
  | .none | .ended _ _ => True
  | .looping _ | .waiting _ _ _ _ => False

/-- The answer is a response. -/
def Fetched.Succeeds : Fetched R → Prop
  | .response status (.ok _) => 200 ≤ status ∧ status < 300
  | .response _ (.error _) | .rejected _ => False

instance : DecidablePred (Fetched.Succeeds (R := R))
  | .response _ (.ok _) => inferInstanceAs (Decidable (_ ∧ _))
  | .response _ (.error _) | .rejected _ => instDecidableFalse

theorem Fetched.Succeeds.sendRequest {fetched : Fetched R} (h : fetched.Succeeds)
    (ep : EndpointStatus) : ∃ response, sendRequest ep fetched = .ok response := by
  cases fetched with
  | rejected msg => exact h.elim
  | response status json =>
    cases json with
    | error msg => exact h.elim
    | ok response =>
      have hstatus : status ≠ 429 := by
        have hlt := h.2
        omega
      exact ⟨response, (if_neg hstatus).trans (if_neg (not_not.2 h))⟩

/-- A request is answered with success, and the pointer is moved by requests only. -/
def PoolInput.Smooth : PoolInput R → Prop
  | .answer fetched => fetched.Succeeds
  | .activeUrl => False
  | .request | .advance | .getStatus | .healthyCount | .elapse _ => True

instance : DecidablePred (PoolInput.Smooth (R := R))
  | .answer fetched => inferInstanceAs (Decidable fetched.Succeeds)
  | .activeUrl => instDecidableFalse
  | .request | .advance | .getStatus | .healthyCount | .elapse _ => instDecidableTrue

/-- Besides, no endpoint is to be restored. -/
def Smooth (s : PoolState R) (input : PoolInput R) : Prop :=
  (∀ ep ∈ s.pool.endpoints, ¬ ep.Recovers s.pool.recoveryTimeoutMs s.now) ∧ input.Smooth

instance (s : PoolState R) (input : PoolInput R) : Decidable (Smooth s input) :=
  inferInstanceAs (Decidable (_ ∧ _))

namespace RpcConnectionPool

/-- Nothing is restored. -/
theorem maybeRecoverEndpoints_eq
    (h : ∀ ep ∈ pool.endpoints, ¬ ep.Recovers pool.recoveryTimeoutMs now) :
    pool.maybeRecoverEndpoints now = pool := by
  have hsame : pool.endpoints.map (EndpointStatus.recover pool.recoveryTimeoutMs now) =
      pool.endpoints :=
    (List.map_congr_left fun ep hep => if_neg (h ep hep)).trans (List.map_id _)
  simp only [maybeRecoverEndpoints, withEndpoints, hsame]

/-- The endpoints that are healthy stay so when a healthy one succeeds. -/
theorem healthyAt_recordSuccess (h : pool.HealthyAt idx) (i : ℕ) :
    (pool.recordSuccess idx now).HealthyAt i ↔ pool.HealthyAt i := by
  unfold HealthyAt recordSuccess
  rw [getElem?_record]
  split_ifs with hi
  · obtain ⟨ep, hget, hstate⟩ := h
    rw [← hi, hget]
    exact iff_of_true ⟨_, rfl, rfl⟩ ⟨ep, rfl, hstate⟩
  · rfl

/-- The number of healthy endpoints. -/
theorem countP_healthyAt (pool : RpcConnectionPool) :
    (List.range pool.size).countP (pool.HealthyAt ·) =
      pool.endpoints.countP (·.state = .healthy) := by
  have hmap : (List.range pool.size).map (fun i => decide (pool.HealthyAt i)) =
      pool.endpoints.map fun ep => decide (ep.state = .healthy) := by
    refine List.ext_getElem? fun i => ?_
    rw [List.getElem?_map, List.getElem?_map, size]
    by_cases hi : i < pool.endpoints.length
    · rw [List.getElem?_range hi, List.getElem?_eq_getElem hi, Option.map_some, Option.map_some]
      simp only [HealthyAt, List.getElem?_eq_getElem hi, Option.some.injEq, exists_eq_left']
    · rw [List.getElem?_eq_none (not_lt.1 hi),
        List.getElem?_eq_none ((List.length_range ..).trans_le (not_lt.1 hi))]
      rfl
  have hcount := congrArg (List.countP id) hmap
  rwa [List.countP_map, List.countP_map] at hcount

end RpcConnectionPool

/-! ### The pool as a rotation -/

/-- How far the latest request is: it has passed closed places only, and waits for an open one. -/
def PassesClosed (n : ℕ) (p : ℕ → Prop) (c : ℕ) : Call R → Prop
  | .none | .ended _ _ => True
  | .looping r => r.startIndex = c ∧ r.tried = [] ∧ ∀ j < r.offset, ¬ p ((c + j) % n)
  | .waiting r idx _ _ => r.startIndex = c ∧ r.offset < n ∧ idx = (c + r.offset) % n ∧ p idx ∧
      ∀ j < r.offset, ¬ p ((c + j) % n)

/-- The pool as a rotation of `n` places with the pointer at `c`. -/
structure AtPointer (n : ℕ) (p : ℕ → Prop) (c : ℕ) (s : PoolState R) : Prop where
  size : s.pool.size = n
  healthyAt : ∀ i, s.pool.HealthyAt i ↔ p i
  currentIndex : s.pool.currentIndex = c
  call : PassesClosed n p c s.call

namespace AtPointer

/-- A round of a request. -/
theorem advance (h : AtPointer n p c s)
    (hrest : ∀ ep ∈ s.pool.endpoints, ¬ ep.Recovers s.pool.recoveryTimeoutMs s.now)
    (hcall : s.call = .looping r) :
    AtPointer n p c (advance s r) ∧ serves s (RpcPool.advance s r) = [] := by
  have hpasses := h.call
  rw [hcall] at hpasses
  obtain ⟨hstart, htried, hclosed⟩ := hpasses
  unfold RpcPool.advance
  simp only [RpcConnectionPool.maybeRecoverEndpoints_eq hrest, hstart, htried, h.size]
  split_ifs with hoffset
  · have hlt : (c + r.offset) % n < s.pool.endpoints.length :=
      (Nat.mod_lt _ (Nat.zero_lt_of_lt hoffset)).trans_eq h.size.symm
    rw [List.getElem?_eq_getElem hlt]
    dsimp only
    have hopen : s.pool.endpoints[(c + r.offset) % n].state = .healthy ↔
        p ((c + r.offset) % n) := by
      rw [← h.healthyAt, RpcConnectionPool.HealthyAt, List.getElem?_eq_getElem hlt]
      simp
    split_ifs with hpass
    · have hskip : ¬ p ((c + r.offset) % n) :=
        fun hp => (hpass.resolve_left List.not_mem_nil) (hopen.2 hp)
      refine ⟨⟨h.size, h.healthyAt, h.currentIndex, hstart, htried, fun j hj => ?_⟩, ?_⟩
      · rcases Nat.lt_succ_iff_lt_or_eq.1 hj with hlt | rfl
        · exact hclosed j hlt
        · exact hskip
      · simp only [serves, hcall]
    · have hp : p ((c + r.offset) % n) := hopen.1 (not_not.1 (not_or.1 hpass).2)
      refine ⟨⟨h.size, h.healthyAt, h.currentIndex, rfl, hoffset, rfl, hp, hclosed⟩, ?_⟩
      simp only [serves, hcall]
  · refine ⟨⟨h.size, h.healthyAt, h.currentIndex, trivial⟩, ?_⟩
    simp only [serves, hcall]

/-- A request is answered: the first open place from the pointer on has been served. -/
theorem answer [DecidablePred p] (h : AtPointer n p c s) {endpoint : EndpointStatus} {sentAt : ℕ}
    (hcall : s.call = .waiting r idx endpoint sentAt) {fetched : Fetched R}
    (hfetched : ∃ response, sendRequest endpoint fetched = .ok response) :
    FirstFrom n p c idx ∧
      AtPointer n p (if p c then (c + 1) % n else c)
        (answer s r idx endpoint sentAt fetched) ∧
      serves s (RpcPool.answer s r idx endpoint sentAt fetched) = [idx] := by
  have hpasses := h.call
  rw [hcall] at hpasses
  obtain ⟨hstart, hoffset, hidx, hp, hclosed⟩ := hpasses
  have hc : c < n := h.currentIndex ▸ h.size ▸ s.pool.index_lt
  have hmod : (c + 0) % n = c := Nat.mod_eq_of_lt hc
  have hhealthy : ∀ i, (s.pool.recordSuccess idx s.now).HealthyAt i ↔ p i := fun i =>
    (RpcConnectionPool.healthyAt_recordSuccess ((h.healthyAt idx).2 hp) i).trans (h.healthyAt i)
  have hsize : (s.pool.recordSuccess idx s.now).size = n :=
    (RpcConnectionPool.like_record (EndpointStatus.url_recordSuccess s.now)).size.trans h.size
  obtain ⟨response, hresponse⟩ := hfetched
  unfold RpcPool.answer
  simp only [hresponse]
  refine ⟨⟨r.offset, hoffset, hidx, hp, hclosed⟩, ?_, by simp only [serves, hcall]⟩
  by_cases hfirst : r.offset = 0
  · rw [hfirst, hmod] at hidx
    rw [if_pos hfirst, if_pos (hidx ▸ hp), ← hidx]
    refine ⟨hsize, hhealthy, ?_, trivial⟩
    exact congrArg ((idx + 1) % ·) hsize
  · have hc' : ¬ p c := hmod ▸ hclosed 0 (Nat.pos_of_ne_zero hfirst)
    rw [if_neg hfirst, if_neg hc']
    exact ⟨hsize, hhealthy, h.currentIndex, trivial⟩

/-- A step of a smooth run serves nothing, or the first open place. -/
theorem step [DecidablePred p] (h : AtPointer n p c s) {input : PoolInput R}
    (hsmooth : Smooth s input) :
    AtPointer n p c (poolStep s input) ∧ serves s (poolStep s input) = [] ∨
      ∃ idx, FirstFrom n p c idx ∧
        AtPointer n p (if p c then (c + 1) % n else c) (poolStep s input) ∧
        serves s (poolStep s input) = [idx] := by
  obtain ⟨hrest, hinput⟩ := hsmooth
  have hidle : serves s s = [] := by
    unfold serves
    cases s.call <;> rfl
  cases input with
  | request =>
    refine .inl ?_
    unfold poolStep serves
    cases hcall : s.call with
    | none | ended =>
      exact ⟨⟨h.size, h.healthyAt, h.currentIndex, h.currentIndex, rfl, nofun⟩, rfl⟩
    | looping | waiting => exact ⟨h, by rw [hcall]⟩
  | advance =>
    refine .inl ?_
    unfold poolStep
    cases hcall : s.call with
    | looping r => exact h.advance hrest hcall
    | none | waiting | ended => exact ⟨h, hidle⟩
  | answer fetched =>
    unfold poolStep
    cases hcall : s.call with
    | waiting r idx endpoint sentAt =>
      exact .inr ⟨idx, h.answer hcall (Fetched.Succeeds.sendRequest hinput endpoint)⟩
    | none | looping | ended => exact .inl ⟨h, hidle⟩
  | activeUrl => exact False.elim hinput
  | getStatus | healthyCount =>
    have hsame : (s.pool.maybeRecoverEndpoints s.now) = s.pool :=
      RpcConnectionPool.maybeRecoverEndpoints_eq hrest
    refine .inl ?_
    simp only [poolStep, RpcConnectionPool.getStatus, RpcConnectionPool.healthyCount, hsame]
    exact ⟨h, hidle⟩
  | elapse ms => exact .inl ⟨⟨h.size, h.healthyAt, h.currentIndex, h.call⟩, hidle⟩

end AtPointer

/-- The requests of a smooth run are served as by a rotation. -/
theorem rotation_history [DecidablePred p] (h : AtPointer n p c s) {inputs : List (PoolInput R)}
    (hsmooth : Along poolStep Smooth s inputs) :
    Rotation n p c (history poolStep (fun s input => serves s (poolStep s input)) s inputs) := by
  induction inputs generalizing s c with
  | nil => exact .nil c
  | cons input inputs ih =>
    rw [history_cons]
    rcases h.step hsmooth.1 with ⟨hnext, hserves⟩ | ⟨idx, hfirst, hnext, hserves⟩
    · rw [hserves]
      exact ih hnext hsmooth.2
    · rw [hserves]
      exact .cons hfirst (ih hnext hsmooth.2)

/-- **Taking turns.** As many requests in a row as there are healthy endpoints are served by
different endpoints exactly if all endpoints from the pointer on are healthy, as many as there are
requests before the last. -/
theorem round_robin_iff (hidle : s.call.Idle) {inputs : List (PoolInput R)}
    (hsmooth : Along poolStep Smooth s inputs)
    (hlength : (history poolStep (fun s input => serves s (poolStep s input)) s inputs).length =
      s.pool.endpoints.countP (·.state = .healthy)) :
    (history poolStep (fun s input => serves s (poolStep s input)) s inputs).Nodup ↔
      ∀ k, k + 1 < s.pool.endpoints.countP (·.state = .healthy) →
        s.pool.HealthyAt ((s.pool.currentIndex + k) % s.pool.size) := by
  have hstart : AtPointer s.pool.size s.pool.HealthyAt s.pool.currentIndex s := by
    refine ⟨rfl, fun _ => Iff.rfl, rfl, ?_⟩
    cases hcall : s.call with
    | none | ended => trivial
    | looping | waiting => rw [hcall] at hidle; exact hidle.elim
  have hrotation := rotation_history hstart hsmooth
  rw [hrotation.nodup_iff s.pool.index_lt, hlength]
  rw [hlength, RpcConnectionPool.countP_healthyAt]

def sampleTrioConfig : RpcPoolConfig where
  urls := ["https://a.example", "https://b.example", "https://c.example"]
  failureThreshold := some 1

/-- Three endpoints. -/
def sampleTrio : RpcConnectionPool where
  endpoints :=
    [.unused "https://a.example", .unused "https://b.example", .unused "https://c.example"]
  currentIndex := 0
  failureThreshold := 1
  recoveryTimeoutMs := 60000
  nodup := by decide
  index_lt := by decide

/-- The endpoint that a pool of three begins with has failed, and the next one has answered. -/
def sampleAfterFailover : PoolState String :=
  after poolStep ⟨sampleTrio, 0, .none⟩ sampleFailover

/-- A request that is served by the endpoint at this offset from the pointer. -/
def sampleRequest (offset : ℕ) : List (PoolInput String) :=
  .request :: List.replicate (offset + 1) .advance ++ [.answer (.response 200 (.ok "result"))]

theorem round_robin_sample :
    (history poolStep (fun s input => serves s (poolStep s input)) ⟨sampleTrio, 0, .none⟩
        (sampleRequest 0 ++ sampleRequest 0 ++ sampleRequest 0)).Nodup ↔
      ∀ k, k + 1 < sampleTrio.endpoints.countP (·.state = .healthy) →
        sampleTrio.HealthyAt ((sampleTrio.currentIndex + k) % sampleTrio.size) :=
  round_robin_iff (s := ⟨sampleTrio, 0, .none⟩) trivial (by decide) (by decide)

/-- The pointer is at the endpoint that has failed, and the next one serves both requests. -/
theorem not_round_robin :
    RpcConnectionPool.create sampleTrioConfig = .ok sampleTrio ∧ sampleAfterFailover.call.Idle ∧
      Along poolStep Smooth sampleAfterFailover (sampleRequest 1 ++ sampleRequest 1) ∧
      (history poolStep (fun s input => serves s (poolStep s input)) sampleAfterFailover
        (sampleRequest 1 ++ sampleRequest 1)).length =
          sampleAfterFailover.pool.endpoints.countP (·.state = .healthy) ∧
      ¬ (history poolStep (fun s input => serves s (poolStep s input)) sampleAfterFailover
        (sampleRequest 1 ++ sampleRequest 1)).Nodup := by
  refine ⟨rfl, trivial, ?_, ?_, ?_⟩ <;> decide

end SorobanPay.RpcPool
