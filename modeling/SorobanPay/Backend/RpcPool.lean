import Mathlib.Data.List.Dedup
import Mathlib.Data.List.Nodup
import Mathlib.Data.List.Range
import SorobanPay.Foundation.Run

/-!
# The pool of RPC endpoints

`rpc/rpcPool.ts` sends each request to the endpoint that its pointer is at, and to the next ones in
turn when that fails. An endpoint that has failed several times in a row is passed over until some
time has gone by.

The pool is followed from one await to the next. Requests do not overlap, but the status of the pool
may be asked for while one is under way. What `fetch` does is an input. The pool carries the proof
that its URLs are distinct and that its pointer is at one of them. The list of URLs is what the
configuration says once a text has been split at its commas.

## Main definitions

* `EndpointStatus`, `RpcConnectionPool`: the pool.
* `poolStep`: the state machine of a pool with at most one request under way.
* `Turn`: what a request has done at an endpoint; the turns of a request are noted.
* `Takes`: what a step can do.

## Main results

* `takes_poolStep`: a step does nothing else.
-/

set_option autoImplicit false

namespace SorobanPay.RpcPool

open Foundation

/-! ### Endpoints -/

inductive EndpointState
  | healthy
  | unhealthy
  deriving DecidableEq, Repr

structure EndpointStatus where
  url : String
  state : EndpointState
  consecutiveFailures : ℕ
  lastFailureAt : Option ℕ
  totalRequests : ℕ
  totalFailures : ℕ
  lastCheckedAt : Option ℕ
  deriving DecidableEq, Repr

namespace EndpointStatus

/-- An endpoint that has not been used. -/
def unused (url : String) : EndpointStatus where
  url := url
  state := .healthy
  consecutiveFailures := 0
  lastFailureAt := none
  totalRequests := 0
  totalFailures := 0
  lastCheckedAt := none

/-- The endpoint is to be restored. -/
def Recovers (ep : EndpointStatus) (recoveryTimeoutMs now : ℕ) : Prop :=
  ep.state = .unhealthy ∧ ∃ failedAt ∈ ep.lastFailureAt, failedAt + recoveryTimeoutMs ≤ now

instance (ep : EndpointStatus) (recoveryTimeoutMs now : ℕ) :
    Decidable (ep.Recovers recoveryTimeoutMs now) := inferInstanceAs (Decidable (_ ∧ _))

/-- What `maybeRecoverEndpoints` does to an endpoint. -/
def recover (recoveryTimeoutMs now : ℕ) (ep : EndpointStatus) : EndpointStatus :=
  if ep.Recovers recoveryTimeoutMs now then { ep with state := .healthy, consecutiveFailures := 0 }
  else ep

def recordSuccess (now : ℕ) (ep : EndpointStatus) : EndpointStatus :=
  { ep with
    consecutiveFailures := 0
    totalRequests := ep.totalRequests + 1
    lastCheckedAt := some now
    state := .healthy }

def recordFailure (failureThreshold now : ℕ) (ep : EndpointStatus) : EndpointStatus :=
  { ep with
    consecutiveFailures := ep.consecutiveFailures + 1
    totalFailures := ep.totalFailures + 1
    totalRequests := ep.totalRequests + 1
    lastFailureAt := some now
    lastCheckedAt := some now
    state := if failureThreshold ≤ ep.consecutiveFailures + 1 then .unhealthy else ep.state }

theorem url_recordSuccess (now : ℕ) (ep : EndpointStatus) : (ep.recordSuccess now).url = ep.url :=
  rfl

theorem url_recordFailure (failureThreshold now : ℕ) (ep : EndpointStatus) :
    (ep.recordFailure failureThreshold now).url = ep.url := rfl

end EndpointStatus

/-! ### The pool -/

structure RpcConnectionPool where
  endpoints : List EndpointStatus
  currentIndex : ℕ
  failureThreshold : ℕ
  recoveryTimeoutMs : ℕ
  nodup : (endpoints.map EndpointStatus.url).Nodup
  index_lt : currentIndex < endpoints.length

structure RpcPoolConfig where
  urls : List String
  failureThreshold : Option ℕ := none
  recoveryTimeoutMs : Option ℕ := none

namespace RpcConnectionPool

/-- The constructor. A `Set` lists each URL where it comes first. -/
def create (config : RpcPoolConfig) : Except String RpcConnectionPool :=
  let urls := (config.urls.filter (· ≠ "")).reverse.dedup.reverse
  if h : urls = [] then .error "RpcConnectionPool: at least one RPC URL is required"
  else
    .ok
      { endpoints := urls.map .unused
        currentIndex := 0
        failureThreshold := config.failureThreshold.getD 3
        recoveryTimeoutMs := config.recoveryTimeoutMs.getD 60000
        nodup := by
          rw [List.map_map]
          exact (List.map_id urls).symm ▸ List.nodup_reverse.2 (List.nodup_dedup _)
        index_lt := by
          rw [List.length_map]
          exact List.length_pos_of_ne_nil h }

def size (pool : RpcConnectionPool) : ℕ := pool.endpoints.length

/-- The pool with its endpoints changed, but not their URLs. -/
def withEndpoints (pool : RpcConnectionPool) (endpoints : List EndpointStatus)
    (h : endpoints.map EndpointStatus.url = pool.endpoints.map EndpointStatus.url) :
    RpcConnectionPool :=
  { pool with
    endpoints
    nodup := h ▸ pool.nodup
    index_lt := by
      have hlength := congrArg List.length h
      rw [List.length_map, List.length_map] at hlength
      exact hlength ▸ pool.index_lt }

/-- The pool with its pointer moved. -/
def moveTo (pool : RpcConnectionPool) (idx : ℕ) : RpcConnectionPool :=
  { pool with
    currentIndex := idx % pool.size
    index_lt := Nat.mod_lt _ (Nat.zero_lt_of_lt pool.index_lt) }

def maybeRecoverEndpoints (pool : RpcConnectionPool) (now : ℕ) : RpcConnectionPool :=
  pool.withEndpoints (pool.endpoints.map (·.recover pool.recoveryTimeoutMs now)) (by
    rw [List.map_map]
    refine List.map_congr_left fun ep _ => ?_
    rw [Function.comp_apply, EndpointStatus.recover]
    split_ifs <;> rfl)

theorem map_url_modify {f : EndpointStatus → EndpointStatus} (hf : ∀ ep, (f ep).url = ep.url)
    (endpoints : List EndpointStatus) (idx : ℕ) :
    (endpoints.modify idx f).map EndpointStatus.url = endpoints.map EndpointStatus.url := by
  refine List.ext_getElem? fun i => ?_
  simp only [List.getElem?_map, List.getElem?_modify]
  split_ifs
  · rw [Option.map_eq_map, Option.map_map]
    exact Option.map_congr fun ep _ => hf ep
  · rw [Option.map_eq_map, Option.map_id']

/-- An outcome is recorded at an endpoint. -/
def record (pool : RpcConnectionPool) (idx : ℕ) (f : EndpointStatus → EndpointStatus)
    (hf : ∀ ep, (f ep).url = ep.url) : RpcConnectionPool :=
  pool.withEndpoints (pool.endpoints.modify idx f) (map_url_modify hf pool.endpoints idx)

def recordSuccess (pool : RpcConnectionPool) (idx now : ℕ) : RpcConnectionPool :=
  pool.record idx (·.recordSuccess now) (EndpointStatus.url_recordSuccess now)

def recordFailure (pool : RpcConnectionPool) (idx now : ℕ) : RpcConnectionPool :=
  pool.record idx (·.recordFailure pool.failureThreshold now)
    (EndpointStatus.url_recordFailure pool.failureThreshold now)

/-- The endpoint at an index is healthy. -/
def HealthyAt (pool : RpcConnectionPool) (idx : ℕ) : Prop :=
  ∃ ep, pool.endpoints[idx]? = some ep ∧ ep.state = .healthy

instance (pool : RpcConnectionPool) (idx : ℕ) : Decidable (pool.HealthyAt idx) :=
  decidable_of_iff (∃ ep ∈ pool.endpoints[idx]?, ep.state = .healthy) Iff.rfl

/-- The first healthy endpoint from the pointer on, to which the pointer is moved. -/
def pickEndpoint (pool : RpcConnectionPool) (now : ℕ) :
    RpcConnectionPool × Option EndpointStatus :=
  let pool := pool.maybeRecoverEndpoints now
  match (List.range pool.size).find? fun i =>
      pool.HealthyAt ((pool.currentIndex + i) % pool.size) with
  | none => (pool, none)
  | some i =>
    let idx := (pool.currentIndex + i) % pool.size
    (pool.moveTo idx, pool.endpoints[idx]?)

def getStatus (pool : RpcConnectionPool) (now : ℕ) : RpcConnectionPool × List EndpointStatus :=
  let pool := pool.maybeRecoverEndpoints now
  (pool, pool.endpoints)

def activeUrl (pool : RpcConnectionPool) (now : ℕ) : RpcConnectionPool × Option String :=
  let picked := (pool.maybeRecoverEndpoints now).pickEndpoint now
  (picked.1, picked.2.map (·.url))

def healthyCount (pool : RpcConnectionPool) (now : ℕ) : RpcConnectionPool × ℕ :=
  let pool := pool.maybeRecoverEndpoints now
  (pool, pool.endpoints.countP (·.state = .healthy))

end RpcConnectionPool

/-! ### Requests -/

/-- What `fetch` answers, with the JSON of the body. -/
inductive Fetched (R : Type)
  | rejected (msg : String)
  | response (status : ℕ) (json : Except String R)

/-- `sendRequest`, once `fetch` has answered. -/
def sendRequest {R : Type} (ep : EndpointStatus) : Fetched R → Except String R
  | .rejected msg => .error msg
  | .response status json =>
    if status = 429 then .error ("HTTP 429 rate-limited by " ++ ep.url)
    else if ¬ (200 ≤ status ∧ status < 300) then
      .error ("HTTP " ++ toString status ++ " from " ++ ep.url)
    else json

/-- The turn of an endpoint in a request: when it was, how the endpoint was then, and what it has
answered, unless it was passed over. -/
structure Turn (R : Type) where
  idx : ℕ
  endpoint : EndpointStatus
  time : ℕ
  result : Option (Except String R)

/-- Where a request is in its loop, with a note of its turns. -/
structure Requesting (R : Type) where
  startIndex : ℕ
  offset : ℕ
  tried : List String
  turns : List (Turn R)

/-- The latest request. -/
inductive Call (R : Type)
  | none
  | looping (r : Requesting R)
  | waiting (r : Requesting R) (idx : ℕ) (endpoint : EndpointStatus) (sentAt : ℕ)
  | ended (r : Requesting R) (result : Except String R)

/-- The pool, the clock, and the latest request. -/
structure PoolState (R : Type) where
  pool : RpcConnectionPool
  now : ℕ
  call : Call R

/-- What can happen next: a request is made, goes on in its loop, or is answered; the status is
asked for; or time passes. -/
inductive PoolInput (R : Type)
  | request
  | advance
  | answer (fetched : Fetched R)
  | getStatus
  | activeUrl
  | healthyCount
  | elapse (ms : ℕ)

/-- The next round of the loop. -/
def Requesting.next {R : Type} (r : Requesting R) (turn : Turn R) : Requesting R :=
  { r with offset := r.offset + 1, turns := r.turns ++ [turn] }

/-- A round of the loop of `request`, up to its await. -/
def advance {R : Type} (s : PoolState R) (r : Requesting R) : PoolState R :=
  if r.offset < s.pool.size then
    let pool := s.pool.maybeRecoverEndpoints s.now
    let idx := (r.startIndex + r.offset) % pool.size
    match pool.endpoints[idx]? with
    | none => { s with pool, call := .looping { r with offset := r.offset + 1 } }
    | some endpoint =>
      if endpoint.url ∈ r.tried ∨ endpoint.state ≠ .healthy then
        { s with pool, call := .looping (r.next ⟨idx, endpoint, s.now, .none⟩) }
      else
        { s with
          pool
          call := .waiting { r with tried := r.tried ++ [endpoint.url] } idx endpoint s.now }
  else
    { s with call := .ended r (.error "[RpcPool] All RPC endpoints are unavailable or exhausted") }

/-- The rest of the round. -/
def answer {R : Type} (s : PoolState R) (r : Requesting R) (idx : ℕ) (endpoint : EndpointStatus)
    (sentAt : ℕ) (fetched : Fetched R) : PoolState R :=
  let turn : Turn R := ⟨idx, endpoint, sentAt, some (sendRequest endpoint fetched)⟩
  match sendRequest endpoint fetched with
  | .ok response =>
    let pool := s.pool.recordSuccess idx s.now
    { s with
      pool := if r.offset = 0 then pool.moveTo (idx + 1) else pool
      call := .ended (r.next turn) (.ok response) }
  | .error _ =>
    { s with pool := s.pool.recordFailure idx s.now, call := .looping (r.next turn) }

def poolStep {R : Type} (s : PoolState R) : PoolInput R → PoolState R
  | .request =>
    match s.call with
    | .none | .ended _ _ => { s with call := .looping ⟨s.pool.currentIndex, 0, [], []⟩ }
    | .looping _ | .waiting _ _ _ _ => s
  | .advance =>
    match s.call with
    | .looping r => advance s r
    | .none | .waiting _ _ _ _ | .ended _ _ => s
  | .answer fetched =>
    match s.call with
    | .waiting r idx endpoint sentAt => answer s r idx endpoint sentAt fetched
    | .none | .looping _ | .ended _ _ => s
  | .getStatus => { s with pool := (s.pool.getStatus s.now).1 }
  | .activeUrl => { s with pool := (s.pool.activeUrl s.now).1 }
  | .healthyCount => { s with pool := (s.pool.healthyCount s.now).1 }
  | .elapse ms => { s with now := s.now + ms }

/-! ### What the operations do -/

variable {R : Type} {pool pool' : RpcConnectionPool} {s : PoolState R} {r : Requesting R}
  {idx now : ℕ} {ep endpoint : EndpointStatus} {turn : Turn R}

namespace RpcConnectionPool

def urls (pool : RpcConnectionPool) : List String := pool.endpoints.map EndpointStatus.url

@[simp] theorem length_urls : pool.urls.length = pool.size := List.length_map _

theorem size_pos : 0 < pool.size := Nat.zero_lt_of_lt pool.index_lt

/-- The URLs and the configuration are the same. -/
structure Like (pool pool' : RpcConnectionPool) : Prop where
  urls : pool'.urls = pool.urls
  failureThreshold : pool'.failureThreshold = pool.failureThreshold
  recoveryTimeoutMs : pool'.recoveryTimeoutMs = pool.recoveryTimeoutMs

theorem Like.refl (pool : RpcConnectionPool) : Like pool pool := ⟨rfl, rfl, rfl⟩

theorem Like.trans {pool'' : RpcConnectionPool} (h : Like pool pool') (h' : Like pool' pool'') :
    Like pool pool'' :=
  ⟨h'.urls.trans h.urls, h'.failureThreshold.trans h.failureThreshold,
    h'.recoveryTimeoutMs.trans h.recoveryTimeoutMs⟩

theorem Like.size (h : Like pool pool') : pool'.size = pool.size := by
  rw [← length_urls, h.urls, length_urls]

theorem like_withEndpoints {endpoints : List EndpointStatus}
    (h : endpoints.map EndpointStatus.url = pool.endpoints.map EndpointStatus.url) :
    Like pool (pool.withEndpoints endpoints h) := ⟨h, rfl, rfl⟩

theorem like_moveTo : Like pool (pool.moveTo idx) := ⟨rfl, rfl, rfl⟩

theorem like_record {f : EndpointStatus → EndpointStatus} (hf : ∀ ep, (f ep).url = ep.url) :
    Like pool (pool.record idx f hf) := like_withEndpoints (map_url_modify hf pool.endpoints idx)

theorem like_maybeRecoverEndpoints : Like pool (pool.maybeRecoverEndpoints now) :=
  like_withEndpoints _

theorem getElem?_maybeRecoverEndpoints :
    (pool.maybeRecoverEndpoints now).endpoints[idx]? =
      (pool.endpoints[idx]?).map (·.recover pool.recoveryTimeoutMs now) := List.getElem?_map

theorem getElem?_record {f : EndpointStatus → EndpointStatus} (hf : ∀ ep, (f ep).url = ep.url)
    {i : ℕ} : (pool.record idx f hf).endpoints[i]? =
      if idx = i then (pool.endpoints[i]?).map f else pool.endpoints[i]? := by
  have hmodify : (pool.record idx f hf).endpoints[i]? =
      (fun a => if idx = i then f a else a) <$> pool.endpoints[i]? := List.getElem?_modify ..
  rw [hmodify]
  split_ifs
  · rfl
  · exact Option.map_id'

end RpcConnectionPool

theorem EndpointStatus.recover_of_healthy {recoveryTimeoutMs : ℕ} (h : ep.state = .healthy) :
    ep.recover recoveryTimeoutMs now = ep := by
  rw [EndpointStatus.recover, if_neg fun hrecovers => ?_]
  exact absurd (h.symm.trans hrecovers.1) (by decide)

theorem EndpointStatus.recover_recover {recoveryTimeoutMs : ℕ} :
    (ep.recover recoveryTimeoutMs now).recover recoveryTimeoutMs now =
      ep.recover recoveryTimeoutMs now := by
  by_cases h : ep.Recovers recoveryTimeoutMs now
  · refine EndpointStatus.recover_of_healthy ?_
    rw [EndpointStatus.recover, if_pos h]
  · have hsame : ep.recover recoveryTimeoutMs now = ep := if_neg h
    rw [hsame, hsame]

/-- Endpoints are restored, and the pointer may be moved. -/
structure Restored (now : ℕ) (pool pool' : RpcConnectionPool) : Prop where
  like : pool.Like pool'
  get : ∀ idx : ℕ, pool'.endpoints[idx]? =
    (pool.endpoints[idx]?).map (EndpointStatus.recover pool.recoveryTimeoutMs now)

theorem restored_maybeRecoverEndpoints : Restored now pool (pool.maybeRecoverEndpoints now) :=
  ⟨RpcConnectionPool.like_maybeRecoverEndpoints, fun _ =>
    RpcConnectionPool.getElem?_maybeRecoverEndpoints⟩

theorem Restored.moveTo (h : Restored now pool pool') : Restored now pool (pool'.moveTo idx) :=
  ⟨h.like.trans RpcConnectionPool.like_moveTo, h.get⟩

theorem restored_pickEndpoint : Restored now pool (pool.pickEndpoint now).1 := by
  unfold RpcConnectionPool.pickEndpoint
  dsimp only
  split
  · exact restored_maybeRecoverEndpoints
  · exact restored_maybeRecoverEndpoints.moveTo

/-- Endpoints are restored twice. -/
theorem restored_activeUrl : Restored now pool (pool.activeUrl now).1 := by
  have honce : Restored now pool (pool.maybeRecoverEndpoints now) := restored_maybeRecoverEndpoints
  have htwice : Restored now (pool.maybeRecoverEndpoints now) (pool.activeUrl now).1 :=
    restored_pickEndpoint
  refine ⟨honce.like.trans htwice.like, fun idx => ?_⟩
  rw [htwice.get, honce.get, honce.like.recoveryTimeoutMs, Option.map_map]
  exact Option.map_congr fun ep _ => EndpointStatus.recover_recover

/-! ### What a step can do -/

/-- The steps of the machine. -/
inductive Takes (s : PoolState R) : PoolState R → Prop
  | idle : Takes s s
  | asked {pool : RpcConnectionPool} (hpool : Restored s.now s.pool pool) :
      Takes s { s with pool }
  | elapsed (ms : ℕ) : Takes s { s with now := s.now + ms }
  | requested : Takes s { s with call := .looping ⟨s.pool.currentIndex, 0, [], []⟩ }
  | passed {r : Requesting R} {idx : ℕ} {endpoint : EndpointStatus}
      (hcall : s.call = .looping r) (hoffset : r.offset < s.pool.size)
      (hidx : idx = (r.startIndex + r.offset) % s.pool.size)
      (hget : (s.pool.maybeRecoverEndpoints s.now).endpoints[idx]? = some endpoint)
      (hpass : endpoint.url ∈ r.tried ∨ endpoint.state ≠ .healthy) :
      Takes s
        { s with
          pool := s.pool.maybeRecoverEndpoints s.now
          call := .looping (r.next ⟨idx, endpoint, s.now, .none⟩) }
  | sent {r : Requesting R} {idx : ℕ} {endpoint : EndpointStatus}
      (hcall : s.call = .looping r) (hoffset : r.offset < s.pool.size)
      (hidx : idx = (r.startIndex + r.offset) % s.pool.size)
      (hget : (s.pool.maybeRecoverEndpoints s.now).endpoints[idx]? = some endpoint)
      (hurl : endpoint.url ∉ r.tried) (hstate : endpoint.state = .healthy) :
      Takes s
        { s with
          pool := s.pool.maybeRecoverEndpoints s.now
          call := .waiting { r with tried := r.tried ++ [endpoint.url] } idx endpoint s.now }
  | exhausted {r : Requesting R} {msg : String} (hcall : s.call = .looping r)
      (hoffset : s.pool.size ≤ r.offset) : Takes s { s with call := .ended r (.error msg) }
  | succeeded {r : Requesting R} {idx sentAt : ℕ} {endpoint : EndpointStatus} {response : R}
      (hcall : s.call = .waiting r idx endpoint sentAt) :
      Takes s
        { s with
          pool :=
            if r.offset = 0 then (s.pool.recordSuccess idx s.now).moveTo (idx + 1)
            else s.pool.recordSuccess idx s.now
          call := .ended (r.next ⟨idx, endpoint, sentAt, some (.ok response)⟩) (.ok response) }
  | failed {r : Requesting R} {idx sentAt : ℕ} {endpoint : EndpointStatus} {msg : String}
      (hcall : s.call = .waiting r idx endpoint sentAt) :
      Takes s
        { s with
          pool := s.pool.recordFailure idx s.now
          call := .looping (r.next ⟨idx, endpoint, sentAt, some (.error msg)⟩) }

theorem takes_advance (hcall : s.call = .looping r) : Takes s (advance s r) := by
  unfold advance
  split_ifs with hoffset
  · have hsize : (s.pool.maybeRecoverEndpoints s.now).size = s.pool.size :=
      RpcConnectionPool.like_maybeRecoverEndpoints.size
    have hlt : (r.startIndex + r.offset) % s.pool.size <
        (s.pool.maybeRecoverEndpoints s.now).endpoints.length :=
      (Nat.mod_lt _ RpcConnectionPool.size_pos).trans_eq hsize.symm
    simp only [hsize, List.getElem?_eq_getElem hlt]
    split_ifs with hpass
    · exact .passed hcall hoffset rfl (List.getElem?_eq_getElem hlt) hpass
    · obtain ⟨hurl, hstate⟩ := not_or.1 hpass
      exact .sent hcall hoffset rfl (List.getElem?_eq_getElem hlt) hurl (not_not.1 hstate)
  · exact .exhausted hcall (not_lt.1 hoffset)

theorem takes_answer {sentAt : ℕ} (hcall : s.call = .waiting r idx endpoint sentAt)
    (fetched : Fetched R) : Takes s (answer s r idx endpoint sentAt fetched) := by
  unfold answer
  cases sendRequest endpoint fetched with
  | ok response => exact .succeeded hcall
  | error msg => exact .failed hcall

theorem takes_poolStep (s : PoolState R) (input : PoolInput R) : Takes s (poolStep s input) := by
  cases input with
  | request =>
    cases hcall : s.call with
    | none | ended => simpa only [poolStep, hcall] using .requested
    | looping | waiting => simpa only [poolStep, hcall] using .idle
  | advance =>
    cases hcall : s.call with
    | looping r => simpa only [poolStep, hcall] using takes_advance hcall
    | none | waiting | ended => simpa only [poolStep, hcall] using .idle
  | answer fetched =>
    cases hcall : s.call with
    | waiting r idx endpoint sentAt => simpa only [poolStep, hcall] using takes_answer hcall fetched
    | none | looping | ended => simpa only [poolStep, hcall] using .idle
  | getStatus => exact .asked restored_maybeRecoverEndpoints
  | activeUrl => exact .asked restored_activeUrl
  | healthyCount => exact .asked restored_maybeRecoverEndpoints
  | elapse ms => exact .elapsed ms

end SorobanPay.RpcPool
