import Mathlib.Data.Nat.ModEq
import SorobanPay.Backend.RpcPool

/-!
# Failover among endpoints

A request starts at the endpoint that the pointer is at. When that fails it goes on to the next
one, in cyclic order and to each healthy one once, and it succeeds as soon as one of them answers.
It ends after one turn of each endpoint at most. An endpoint is unhealthy only after as many
failures in a row as the threshold says, and then gets no request before the time of recovery has
passed. All this holds in every state of the pool, whatever the endpoints answer (`failover`).

## Main definitions

* `TurnsRight`: the turns of a request are in order.
* `CallRight`: what is asked of the latest request.
* `PoolState.Sound`: the invariant.
* `Rests`: what is known of an endpoint that has become unhealthy.
* `goesOn`, `Call.stepsLeft`: the steps of a request, and how many are left.
* `Serves`: how a request is served that is made in a state.

## Main results

* `PoolState.Sound.takes`: every step keeps the invariant.
* `rests_before_sends`: an unhealthy endpoint gets no request before its time.
* `course`: a request starts at the pointer and ends.
* `failover`: what is always true of the pool and of its requests.
-/

set_option autoImplicit false

namespace SorobanPay.RpcPool

open Foundation

variable {R : Type} {pool pool' : RpcConnectionPool} {s : PoolState R} {r : Requesting R}
  {idx now : ℕ} {ep endpoint : EndpointStatus} {turn : Turn R}

/-! ### The turns of a request -/

/-- The endpoint has answered with success. -/
def Turn.Succeeds (turn : Turn R) : Prop := ∃ response, turn.result = some (.ok response)

/-- The turns of a request come in cyclic order, each endpoint has one turn at most, and those that
were not healthy at their turn, and no others, have been passed over. -/
structure TurnsRight (urls : List String) (startIndex : ℕ) (turns : List (Turn R)) : Prop where
  order : turns.map Turn.idx = (List.range turns.length).map fun k => (startIndex + k) % urls.length
  length_le : turns.length ≤ urls.length
  urls : ∀ turn ∈ turns, urls[turn.idx]? = some turn.endpoint.url
  once : (turns.map fun turn => turn.endpoint.url).Nodup
  passed : ∀ turn ∈ turns, turn.result = none ↔ turn.endpoint.state ≠ .healthy

variable {urls : List String} {startIndex : ℕ} {turns : List (Turn R)}

theorem turnsRight_nil : TurnsRight urls startIndex ([] : List (Turn R)) where
  order := rfl
  length_le := Nat.zero_le _
  urls := List.forall_mem_nil _
  once := List.nodup_nil
  passed := List.forall_mem_nil _

namespace TurnsRight

/-- The next endpoint has not had its turn yet. -/
theorem url_notMem (h : TurnsRight urls startIndex turns) (hurls : urls.Nodup)
    (hlength : turns.length < urls.length) {url : String}
    (hurl : urls[(startIndex + turns.length) % urls.length]? = some url) :
    url ∉ turns.map fun turn => turn.endpoint.url := by
  intro hmem
  obtain ⟨turn, hturn, rfl⟩ := List.mem_map.1 hmem
  have hidx : turn.idx ∈ (List.range turns.length).map fun k => (startIndex + k) % urls.length :=
    h.order ▸ List.mem_map_of_mem hturn
  obtain ⟨k, hk, hk'⟩ := List.mem_map.1 hidx
  have hlt : k < turns.length := List.mem_range.1 hk
  have hsame : (startIndex + k) % urls.length = (startIndex + turns.length) % urls.length := by
    refine (List.getElem?_inj (Nat.mod_lt _ (Nat.zero_lt_of_lt hlength)) hurls).1 ?_
    rw [hurl, hk', h.urls turn hturn]
  have hcongr : k ≡ turns.length [MOD urls.length] := Nat.ModEq.add_left_cancel' startIndex hsame
  exact hlt.ne (hcongr.eq_of_lt_of_lt (hlt.trans hlength) hlength)

theorem append (h : TurnsRight urls startIndex turns) (hurls : urls.Nodup)
    (hlength : turns.length < urls.length)
    (hidx : turn.idx = (startIndex + turns.length) % urls.length)
    (hurl : urls[turn.idx]? = some turn.endpoint.url)
    (hpassed : turn.result = none ↔ turn.endpoint.state ≠ .healthy) :
    TurnsRight urls startIndex (turns ++ [turn]) where
  order := by
    rw [List.map_append, h.order, List.length_append, List.length_singleton, List.range_succ,
      List.map_append, List.map_singleton, List.map_singleton, hidx]
  length_le := by
    rw [List.length_append, List.length_singleton]
    exact hlength
  urls := List.forall_mem_append.2 ⟨h.urls, List.forall_mem_singleton.2 hurl⟩
  once := by
    rw [List.map_append, List.map_singleton, ← List.concat_eq_append]
    exact h.once.concat (h.url_notMem hurls hlength (hidx ▸ hurl))
  passed := List.forall_mem_append.2 ⟨h.passed, List.forall_mem_singleton.2 hpassed⟩

end TurnsRight

/-- A request is under way, and no endpoint has succeeded so far; `pending` is what it waits for. -/
structure Underway (urls : List String) (r : Requesting R) (pending : List String) : Prop where
  turns : TurnsRight urls r.startIndex r.turns
  unsuccessful : ∀ turn ∈ r.turns, ¬ turn.Succeeds
  offset : r.offset = r.turns.length
  tried : ∀ url ∈ r.tried, url ∈ r.turns.map (fun turn => turn.endpoint.url) ∨ url ∈ pending

/-- What the latest request has done. It waits for a healthy endpoint; it has returned the response
of the first endpoint that has succeeded; or all endpoints have had their turn and none has. -/
def CallRight (pool : RpcConnectionPool) : Call R → Prop
  | .none => True
  | .looping r => Underway pool.urls r []
  | .waiting r idx endpoint _ =>
    Underway pool.urls r [endpoint.url] ∧ r.turns.length < pool.size ∧
      idx = (r.startIndex + r.turns.length) % pool.size ∧
      pool.urls[idx]? = some endpoint.url ∧ endpoint.state = .healthy ∧ pool.HealthyAt idx
  | .ended r (.ok response) =>
    TurnsRight pool.urls r.startIndex r.turns ∧ ∃ pre turn, r.turns = pre ++ [turn] ∧
      turn.result = some (.ok response) ∧ ∀ turn ∈ pre, ¬ turn.Succeeds
  | .ended r (.error _) =>
    TurnsRight pool.urls r.startIndex r.turns ∧ r.turns.length = pool.size ∧
      ∀ turn ∈ r.turns, ¬ turn.Succeeds

/-! ### Invariants -/

/-- An unhealthy endpoint has failed as often as the threshold says, and it is known when it has
failed last. -/
def EndpointStatus.Backed (failureThreshold : ℕ) (ep : EndpointStatus) : Prop :=
  ep.state = .unhealthy →
    failureThreshold ≤ ep.consecutiveFailures ∧ ∃ failedAt, ep.lastFailureAt = some failedAt

/-- The invariant of the machine. -/
structure PoolState.Sound (s : PoolState R) : Prop where
  backed : ∀ (idx : ℕ) ep, s.pool.endpoints[idx]? = some ep → ep.Backed s.pool.failureThreshold
  call : CallRight s.pool s.call

theorem EndpointStatus.backed_of_healthy {failureThreshold : ℕ} (h : ep.state = .healthy) :
    ep.Backed failureThreshold := fun hstate => absurd (h.symm.trans hstate) (by decide)

theorem EndpointStatus.Backed.recover {failureThreshold recoveryTimeoutMs : ℕ}
    (h : ep.Backed failureThreshold) :
    (ep.recover recoveryTimeoutMs now).Backed failureThreshold := by
  unfold EndpointStatus.recover
  split_ifs
  · exact backed_of_healthy rfl
  · exact h

theorem EndpointStatus.Backed.recordFailure {failureThreshold : ℕ}
    (h : ep.Backed failureThreshold) :
    (ep.recordFailure failureThreshold now).Backed failureThreshold := by
  intro hstate
  refine ⟨?_, now, rfl⟩
  by_cases hreached : failureThreshold ≤ ep.consecutiveFailures + 1
  · exact hreached
  · have hold : ep.state = .unhealthy := (if_neg hreached).symm.trans hstate
    exact (h hold).1.trans (Nat.le_succ _)

section Restored

variable (hpool : Restored now pool pool')

include hpool

theorem Restored.backed
    (h : ∀ (idx : ℕ) ep, pool.endpoints[idx]? = some ep → ep.Backed pool.failureThreshold) (idx : ℕ)
    (ep : EndpointStatus) (hget : pool'.endpoints[idx]? = some ep) :
    ep.Backed pool'.failureThreshold := by
  rw [hpool.get] at hget
  obtain ⟨ep, hep, rfl⟩ := Option.map_eq_some_iff.1 hget
  rw [hpool.like.failureThreshold]
  exact (h idx ep hep).recover

theorem Restored.healthyAt (h : pool.HealthyAt idx) : pool'.HealthyAt idx := by
  obtain ⟨ep, hget, hstate⟩ := h
  refine ⟨ep, ?_, hstate⟩
  rw [hpool.get, hget, Option.map_some, EndpointStatus.recover_of_healthy hstate]

theorem Restored.callRight {call : Call R} (h : CallRight pool call) : CallRight pool' call := by
  have hsize := hpool.like.size
  cases call with
  | none => trivial
  | looping r =>
    unfold CallRight
    rwa [hpool.like.urls]
  | waiting r idx endpoint sentAt =>
    unfold CallRight at h ⊢
    rw [hpool.like.urls, hsize]
    obtain ⟨hr, hlength, hidx, hurl, hstate, hhealthy⟩ := h
    exact ⟨hr, hlength, hidx, hurl, hstate, hpool.healthyAt hhealthy⟩
  | ended r result =>
    cases result with
    | ok response =>
      unfold CallRight
      rwa [hpool.like.urls]
    | error msg =>
      unfold CallRight
      rwa [hpool.like.urls, hsize]

end Restored

theorem RpcConnectionPool.url_of_get (h : pool.endpoints[idx]? = some ep) :
    pool.urls[idx]? = some ep.url := by
  rw [RpcConnectionPool.urls, List.getElem?_map, h, Option.map_some]

/-- A request goes on to its next turn. -/
theorem Underway.next {pending : List String} (h : Underway urls r pending) (hurls : urls.Nodup)
    (hlength : r.turns.length < urls.length)
    (hidx : turn.idx = (r.startIndex + r.turns.length) % urls.length)
    (hurl : urls[turn.idx]? = some turn.endpoint.url) (hpending : pending ⊆ [turn.endpoint.url])
    (hpassed : turn.result = none ↔ turn.endpoint.state ≠ .healthy) (hfails : ¬ turn.Succeeds) :
    Underway urls (r.next turn) [] where
  turns := h.turns.append hurls hlength hidx hurl hpassed
  unsuccessful := List.forall_mem_append.2 ⟨h.unsuccessful, List.forall_mem_singleton.2 hfails⟩
  offset := by
    simp only [Requesting.next, List.length_append, List.length_singleton, h.offset]
  tried := by
    intro url hurl
    simp only [Requesting.next, List.map_append, List.map_singleton, List.mem_append]
    exact .inl ((h.tried url hurl).imp_right fun hmem => hpending hmem)

/-- The first round. -/
theorem underway_start (urls : List String) (startIndex : ℕ) :
    Underway urls (⟨startIndex, 0, [], []⟩ : Requesting R) [] where
  turns := turnsRight_nil
  unsuccessful := List.forall_mem_nil _
  offset := rfl
  tried := List.forall_mem_nil _

/-- The endpoint that a request looks at has not had its turn. -/
theorem Underway.url_notMem_tried (h : Underway pool.urls r []) (hoffset : r.offset < pool.size)
    (hidx : idx = (r.startIndex + r.offset) % pool.size)
    (hurl : pool.urls[idx]? = some endpoint.url) : endpoint.url ∉ r.tried := by
  intro hmem
  rw [h.offset] at hoffset hidx
  rw [hidx, ← RpcConnectionPool.length_urls] at hurl
  rw [← RpcConnectionPool.length_urls] at hoffset
  rcases h.tried _ hmem with hturn | hpending
  · exact h.turns.url_notMem pool.nodup hoffset hurl hturn
  · exact absurd hpending List.not_mem_nil

namespace PoolState.Sound

theorem recordSuccess (h : s.Sound) (i : ℕ) (ep : EndpointStatus)
    (hget : (s.pool.recordSuccess idx s.now).endpoints[i]? = some ep) :
    ep.Backed s.pool.failureThreshold := by
  rw [RpcConnectionPool.recordSuccess, RpcConnectionPool.getElem?_record] at hget
  split_ifs at hget
  · obtain ⟨ep, -, rfl⟩ := Option.map_eq_some_iff.1 hget
    exact EndpointStatus.backed_of_healthy rfl
  · exact h.backed i ep hget

theorem recordFailure (h : s.Sound) (i : ℕ) (ep : EndpointStatus)
    (hget : (s.pool.recordFailure idx s.now).endpoints[i]? = some ep) :
    ep.Backed s.pool.failureThreshold := by
  rw [RpcConnectionPool.recordFailure, RpcConnectionPool.getElem?_record] at hget
  split_ifs at hget
  · obtain ⟨ep, hep, rfl⟩ := Option.map_eq_some_iff.1 hget
    exact (h.backed i ep hep).recordFailure
  · exact h.backed i ep hget

/-- An endpoint is passed over. -/
theorem passed (h : s.Sound) (hcall : s.call = .looping r) (hoffset : r.offset < s.pool.size)
    (hidx : idx = (r.startIndex + r.offset) % s.pool.size)
    (hget : (s.pool.maybeRecoverEndpoints s.now).endpoints[idx]? = some endpoint)
    (hpass : endpoint.url ∈ r.tried ∨ endpoint.state ≠ .healthy) :
    ({ s with
        pool := s.pool.maybeRecoverEndpoints s.now
        call := .looping (r.next ⟨idx, endpoint, s.now, none⟩) } : PoolState R).Sound := by
  have hright := h.call
  rw [hcall] at hright
  have hpool : Restored s.now s.pool (s.pool.maybeRecoverEndpoints s.now) :=
    restored_maybeRecoverEndpoints
  have hurl : s.pool.urls[idx]? = some endpoint.url :=
    hpool.like.urls ▸ RpcConnectionPool.url_of_get hget
  have hstate : endpoint.state ≠ .healthy :=
    hpass.resolve_left (Underway.url_notMem_tried hright hoffset hidx hurl)
  rw [hright.offset, ← RpcConnectionPool.length_urls] at hoffset hidx
  have hnext : Underway s.pool.urls (r.next ⟨idx, endpoint, s.now, none⟩) [] :=
    hright.next s.pool.nodup hoffset hidx hurl (List.nil_subset _) (iff_of_true rfl hstate) nofun
  refine ⟨hpool.backed h.backed, ?_⟩
  rw [← hpool.like.urls] at hnext
  exact hnext

/-- A request is sent. -/
theorem sent (h : s.Sound) (hcall : s.call = .looping r) (hoffset : r.offset < s.pool.size)
    (hidx : idx = (r.startIndex + r.offset) % s.pool.size)
    (hget : (s.pool.maybeRecoverEndpoints s.now).endpoints[idx]? = some endpoint)
    (hstate : endpoint.state = .healthy) :
    ({ s with
        pool := s.pool.maybeRecoverEndpoints s.now
        call := .waiting { r with tried := r.tried ++ [endpoint.url] } idx endpoint s.now } :
      PoolState R).Sound := by
  have hright := h.call
  rw [hcall] at hright
  have hpool : Restored s.now s.pool (s.pool.maybeRecoverEndpoints s.now) :=
    restored_maybeRecoverEndpoints
  have hsent : Underway s.pool.urls { r with tried := r.tried ++ [endpoint.url] }
      [endpoint.url] := by
    refine { hright with tried := List.forall_mem_append.2 ⟨fun url hmem => ?_, fun url => .inr⟩ }
    exact .inl ((hright.tried url hmem).resolve_right List.not_mem_nil)
  rw [hright.offset, ← hpool.like.size] at hoffset hidx
  rw [← hpool.like.urls] at hsent
  exact ⟨hpool.backed h.backed, hsent, hoffset, hidx, RpcConnectionPool.url_of_get hget, hstate,
    endpoint, hget, hstate⟩

/-- All endpoints have had their turn. -/
theorem exhausted (h : s.Sound) (hcall : s.call = .looping r) (hoffset : s.pool.size ≤ r.offset)
    (msg : String) : ({ s with call := .ended r (.error msg) } : PoolState R).Sound := by
  have hright := h.call
  rw [hcall] at hright
  refine ⟨h.backed, hright.turns, ?_, hright.unsuccessful⟩
  rw [hright.offset] at hoffset
  exact (hright.turns.length_le.trans_eq RpcConnectionPool.length_urls).antisymm hoffset

/-- A request succeeds. -/
theorem succeeded (h : s.Sound) {sentAt : ℕ} (hcall : s.call = .waiting r idx endpoint sentAt)
    (response : R) :
    ({ s with
        pool :=
          if r.offset = 0 then (s.pool.recordSuccess idx s.now).moveTo (idx + 1)
          else s.pool.recordSuccess idx s.now
        call := .ended (r.next ⟨idx, endpoint, sentAt, some (.ok response)⟩) (.ok response) } :
      PoolState R).Sound := by
  have hright := h.call
  rw [hcall] at hright
  obtain ⟨hr, hlength, hidx, hurl, hstate, -⟩ := hright
  rw [← RpcConnectionPool.length_urls] at hlength hidx
  have hturns : TurnsRight s.pool.urls r.startIndex
      (r.next ⟨idx, endpoint, sentAt, some (.ok response)⟩).turns :=
    hr.turns.append s.pool.nodup hlength hidx hurl (iff_of_false nofun (not_not.2 hstate))
  have hsuccess : ∃ pre turn,
      (r.next ⟨idx, endpoint, sentAt, some (.ok response)⟩).turns = pre ++ [turn] ∧
        turn.result = some (.ok response) ∧ ∀ turn ∈ pre, ¬ turn.Succeeds :=
    ⟨r.turns, _, rfl, rfl, hr.unsuccessful⟩
  have hlike : s.pool.Like (s.pool.recordSuccess idx s.now) := RpcConnectionPool.like_record _
  rw [← hlike.urls] at hturns
  by_cases hfirst : r.offset = 0
  · rw [if_pos hfirst]
    exact ⟨h.recordSuccess, hturns, hsuccess⟩
  · rw [if_neg hfirst]
    exact ⟨h.recordSuccess, hturns, hsuccess⟩

/-- An endpoint fails, and the request goes on. -/
theorem failed (h : s.Sound) {sentAt : ℕ} (hcall : s.call = .waiting r idx endpoint sentAt)
    (msg : String) :
    ({ s with
        pool := s.pool.recordFailure idx s.now
        call := .looping (r.next ⟨idx, endpoint, sentAt, some (.error msg)⟩) } :
      PoolState R).Sound := by
  have hright := h.call
  rw [hcall] at hright
  obtain ⟨hr, hlength, hidx, hurl, hstate, -⟩ := hright
  rw [← RpcConnectionPool.length_urls] at hlength hidx
  have hnext : Underway s.pool.urls (r.next ⟨idx, endpoint, sentAt, some (.error msg)⟩) [] :=
    hr.next s.pool.nodup hlength hidx hurl (List.Subset.refl _)
      (iff_of_false nofun (not_not.2 hstate)) nofun
  have hlike : s.pool.Like (s.pool.recordFailure idx s.now) := RpcConnectionPool.like_record _
  rw [← hlike.urls] at hnext
  exact ⟨h.recordFailure, hnext⟩

/-- Every step keeps the invariant. -/
theorem takes {s' : PoolState R} (h : s.Sound) (hstep : Takes s s') : s'.Sound := by
  cases hstep with
  | idle => exact h
  | asked hasked => exact ⟨hasked.backed h.backed, hasked.callRight h.call⟩
  | elapsed ms => exact ⟨h.backed, h.call⟩
  | requested => exact ⟨h.backed, underway_start _ _⟩
  | passed hcall hoffset hidx hget hpass => exact h.passed hcall hoffset hidx hget hpass
  | sent hcall hoffset hidx hget _ hstate => exact h.sent hcall hoffset hidx hget hstate
  | exhausted hcall hoffset => exact h.exhausted hcall hoffset _
  | succeeded hcall => exact h.succeeded hcall _
  | failed hcall => exact h.failed hcall _

end PoolState.Sound

/-! ### When a request is sent -/

/-- The endpoint that a step sends a request to, and the time. -/
def sends (s s' : PoolState R) : List (ℕ × ℕ) :=
  match s.call, s'.call with
  | .looping _, .waiting _ idx _ sentAt => [(idx, sentAt)]
  | _, _ => []

/-- What is known of an endpoint once it has become unhealthy: it is still so, since the same time,
or it was long enough. -/
def Rests (idx failedAt : ℕ) (s : PoolState R) : Prop :=
  failedAt + s.pool.recoveryTimeoutMs ≤ s.now ∨
    ∃ ep, s.pool.endpoints[idx]? = some ep ∧ ep.state = .unhealthy ∧
      ep.lastFailureAt = some failedAt

variable {s' : PoolState R} {failedAt time : ℕ}

/-- A request is sent to an endpoint that is healthy. -/
theorem Takes.of_mem_sends (hstep : Takes s s') (h : (idx, time) ∈ sends s s') :
    time = s.now ∧ (s.pool.maybeRecoverEndpoints s.now).HealthyAt idx := by
  have hsame : s'.call = s.call → sends s s' = [] := by
    intro hcall
    unfold sends
    rw [hcall]
    cases s.call <;> rfl
  cases hstep with
  | idle | asked | elapsed =>
    rw [hsame rfl] at h
    exact absurd h List.not_mem_nil
  | requested =>
    unfold sends at h
    cases hcall : s.call <;> simp only [hcall] at h <;> exact absurd h List.not_mem_nil
  | passed hcall | exhausted hcall | succeeded hcall | failed hcall =>
    simp only [sends, hcall] at h
    exact absurd h List.not_mem_nil
  | sent hcall _ _ hget _ hstate =>
    simp only [sends, hcall, List.mem_singleton, Prod.mk.injEq] at h
    obtain ⟨rfl, rfl⟩ := h
    exact ⟨rfl, _, hget, hstate⟩

/-- An endpoint is not restored before its time. -/
theorem EndpointStatus.recover_of_lt {recoveryTimeoutMs : ℕ}
    (hfailedAt : ep.lastFailureAt = some failedAt) (hlt : now < failedAt + recoveryTimeoutMs) :
    ep.recover recoveryTimeoutMs now = ep := by
  refine if_neg fun hrecovers => ?_
  obtain ⟨failedAt', hfailedAt', hle⟩ := hrecovers.2
  rw [hfailedAt] at hfailedAt'
  exact not_lt.2 hle (Option.some.inj hfailedAt' ▸ hlt)

namespace Rests

variable (h : Rests idx failedAt s)

include h

theorem restored (hpool : Restored s.now s.pool pool') (call : Call R) :
    Rests idx failedAt { s with pool := pool', call } := by
  unfold Rests
  rw [hpool.like.recoveryTimeoutMs]
  rcases le_or_gt (failedAt + s.pool.recoveryTimeoutMs) s.now with hle | hlt
  · exact .inl hle
  · obtain ⟨ep, hget, hstate, hfailedAt⟩ := h.resolve_left (not_le.2 hlt)
    refine .inr ⟨ep, ?_, hstate, hfailedAt⟩
    rw [hpool.get, hget, Option.map_some, EndpointStatus.recover_of_lt hfailedAt hlt]

/-- An endpoint that is restored has rested. -/
theorem le_now (hhealthy : (s.pool.maybeRecoverEndpoints s.now).HealthyAt idx) :
    failedAt + s.pool.recoveryTimeoutMs ≤ s.now := by
  by_contra hlt
  obtain ⟨ep, hget, hstate, hfailedAt⟩ := h.resolve_left hlt
  obtain ⟨ep', hget', hstate'⟩ := hhealthy
  rw [restored_maybeRecoverEndpoints.get, hget, Option.map_some,
    EndpointStatus.recover_of_lt hfailedAt (not_le.1 hlt)] at hget'
  obtain rfl := Option.some.inj hget'
  exact absurd (hstate'.symm.trans hstate) (by decide)

/-- What is recorded at another endpoint. -/
theorem record {f : EndpointStatus → EndpointStatus} (hf : ∀ ep, (f ep).url = ep.url) {i : ℕ}
    (hi : s.pool.HealthyAt i) (hpool : pool'.endpoints = (s.pool.record i f hf).endpoints)
    (hlike : pool'.recoveryTimeoutMs = s.pool.recoveryTimeoutMs) (call : Call R) :
    Rests idx failedAt { s with pool := pool', call } := by
  unfold Rests
  rw [hlike, hpool]
  refine h.imp_right fun ⟨ep, hget, hstate, hfailedAt⟩ => ⟨ep, ?_, hstate, hfailedAt⟩
  rw [RpcConnectionPool.getElem?_record, if_neg fun hid => ?_, hget]
  obtain ⟨ep', hget', hstate'⟩ := hi
  rw [hid, hget] at hget'
  obtain rfl := Option.some.inj hget'
  exact absurd (hstate'.symm.trans hstate) (by decide)

theorem takes (hsound : s.Sound) (hstep : Takes s s') : Rests idx failedAt s' := by
  have hright := hsound.call
  cases hstep with
  | idle | requested | exhausted => exact h
  | elapsed ms => exact h.imp_left fun hle => hle.trans (Nat.le_add_right _ _)
  | asked hpool => exact h.restored hpool _
  | passed | sent => exact h.restored restored_maybeRecoverEndpoints _
  | @succeeded r i sentAt endpoint response hcall =>
    rw [hcall] at hright
    refine h.record (EndpointStatus.url_recordSuccess s.now) hright.2.2.2.2.2 ?_ ?_ _ <;>
      split_ifs <;> rfl
  | failed hcall =>
    rw [hcall] at hright
    exact h.record (EndpointStatus.url_recordFailure _ s.now) hright.2.2.2.2.2 rfl rfl _

end Rests

theorem Takes.like (hstep : Takes s s') : s.pool.Like s'.pool := by
  cases hstep with
  | asked hpool => exact hpool.like
  | passed | sent => exact RpcConnectionPool.like_maybeRecoverEndpoints
  | idle | elapsed | requested | exhausted => exact .refl _
  | @failed _ idx =>
    have hlike : s.pool.Like (s.pool.recordFailure idx s.now) :=
      RpcConnectionPool.like_record _
    exact hlike
  | @succeeded _ idx =>
    have hlike : s.pool.Like (s.pool.recordSuccess idx s.now) :=
      RpcConnectionPool.like_record _
    dsimp only
    split_ifs
    · exact hlike.trans RpcConnectionPool.like_moveTo
    · exact hlike

/-- An endpoint that has become unhealthy rests before a request is sent to it. -/
theorem rests_before_sends (hsound : s.Sound) (h : Rests idx failedAt s)
    (inputs : List (PoolInput R)) :
    ∀ send ∈ history poolStep (fun s input => sends s (poolStep s input)) s inputs,
      send.1 = idx → failedAt + s.pool.recoveryTimeoutMs ≤ send.2 := by
  induction inputs generalizing s with
  | nil => exact fun send hsend => absurd hsend List.not_mem_nil
  | cons input inputs ih =>
    have hstep := takes_poolStep s input
    rintro ⟨idx', time⟩ hsend rfl
    rcases List.mem_append.1 hsend with hnow | hlater
    · obtain ⟨rfl, hhealthy⟩ := hstep.of_mem_sends hnow
      exact h.le_now hhealthy
    · rw [← hstep.like.recoveryTimeoutMs]
      exact ih (hsound.takes hstep) (h.takes hsound hstep) _ hlater rfl

/-! ### The course of a request -/

/-- The latest request, if there has been one. -/
def Call.requesting? : Call R → Option (Requesting R)
  | .none => Option.none
  | .looping r | .waiting r _ _ _ | .ended r _ => some r

/-- The latest request is under way. -/
def Call.Pending : Call R → Prop
  | .looping _ | .waiting _ _ _ _ => True
  | .none | .ended _ _ => False

/-- The input by which a request goes on: its next round, or the answer that it waits for. -/
def goesOn (s : PoolState R) (input : PoolInput R) : List (PoolInput R) :=
  match s.call, input with
  | .looping _, .advance | .waiting _ _ _ _, .answer _ => [input]
  | _, _ => []

/-- How often a request can still go on. An endpoint takes two steps, and the loop ends in a step
of its own. -/
def Call.stepsLeft (size : ℕ) : Call R → ℕ
  | .none | .ended _ _ => 0
  | .looping r => 2 * (size - r.offset) + 1
  | .waiting r _ _ _ => 2 * (size - r.offset)

/-- A round of the loop leaves fewer steps. -/
theorem advance_step (s : PoolState R) (r : Requesting R) :
    (∃ r', (advance s r).call.requesting? = some r' ∧ r'.startIndex = r.startIndex) ∧
      (advance s r).call.stepsLeft s.pool.size < (Call.looping r).stepsLeft s.pool.size := by
  unfold advance
  split_ifs with hoffset
  · dsimp only
    split
    · refine ⟨⟨_, rfl, rfl⟩, ?_⟩
      simp only [Call.stepsLeft]
      omega
    · split_ifs
      · refine ⟨⟨_, rfl, rfl⟩, ?_⟩
        simp only [Call.stepsLeft, Requesting.next]
        omega
      · exact ⟨⟨_, rfl, rfl⟩, Nat.lt_succ_self _⟩
  · exact ⟨⟨_, rfl, rfl⟩, Nat.succ_pos _⟩

/-- An answer leaves fewer steps. -/
theorem answer_step {sentAt : ℕ} (hoffset : r.offset < s.pool.size) (fetched : Fetched R) :
    (∃ r', (answer s r idx endpoint sentAt fetched).call.requesting? = some r' ∧
        r'.startIndex = r.startIndex) ∧
      (answer s r idx endpoint sentAt fetched).call.stepsLeft s.pool.size <
        (Call.waiting r idx endpoint sentAt).stepsLeft s.pool.size := by
  unfold answer
  dsimp only
  cases sendRequest endpoint fetched with
  | ok response =>
    refine ⟨⟨_, rfl, rfl⟩, ?_⟩
    simp only [Call.stepsLeft]
    omega
  | error msg =>
    refine ⟨⟨_, rfl, rfl⟩, ?_⟩
    simp only [Call.stepsLeft, Requesting.next]
    omega

/-- Nothing but a request changes where the latest one has started, and each step of it leaves
fewer. -/
theorem course_step (hsound : s.Sound) {input : PoolInput R} (hinput : input ≠ .request)
    (hr : s.call.requesting? = some r) :
    (∃ r', (poolStep s input).call.requesting? = some r' ∧ r'.startIndex = r.startIndex) ∧
      (goesOn s input).length + (poolStep s input).call.stepsLeft s.pool.size ≤
        s.call.stepsLeft s.pool.size := by
  have hright := hsound.call
  cases hcall : s.call with
  | none => simp [hcall, Call.requesting?] at hr
  | looping r' =>
    obtain rfl : r' = r := by simpa [hcall, Call.requesting?] using hr
    cases input with
    | request => exact absurd rfl hinput
    | advance =>
      obtain ⟨hstart, hsteps⟩ := advance_step s r'
      simp only [poolStep, hcall, goesOn]
      exact ⟨hstart, by rw [List.length_singleton]; omega⟩
    | answer | getStatus | activeUrl | healthyCount | elapse =>
      simp [poolStep, hcall, goesOn, Call.requesting?]
  | waiting r' idx endpoint sentAt =>
    obtain rfl : r' = r := by simpa [hcall, Call.requesting?] using hr
    rw [hcall] at hright
    have hoffset : r'.offset < s.pool.size := hright.1.offset.trans_lt hright.2.1
    cases input with
    | request => exact absurd rfl hinput
    | answer fetched =>
      obtain ⟨hstart, hsteps⟩ := answer_step hoffset fetched
      simp only [poolStep, hcall, goesOn]
      exact ⟨hstart, by rw [List.length_singleton]; omega⟩
    | advance | getStatus | activeUrl | healthyCount | elapse =>
      simp [poolStep, hcall, goesOn, Call.requesting?]
  | ended r' result =>
    obtain rfl : r' = r := by simpa [hcall, Call.requesting?] using hr
    cases input with
    | request => exact absurd rfl hinput
    | advance | answer | getStatus | activeUrl | healthyCount | elapse =>
      simp [poolStep, hcall, goesOn, Call.requesting?]

/-- A request starts where it has been made, and cannot go on forever. -/
theorem course (hsound : s.Sound) {inputs : List (PoolInput R)} (hinputs : .request ∉ inputs)
    (hr : s.call.requesting? = some r) :
    (∃ r', (after poolStep s inputs).call.requesting? = some r' ∧ r'.startIndex = r.startIndex) ∧
      (history poolStep goesOn s inputs).length +
          (after poolStep s inputs).call.stepsLeft s.pool.size ≤ s.call.stepsLeft s.pool.size := by
  induction inputs generalizing s r with
  | nil => exact ⟨⟨r, hr, rfl⟩, (Nat.zero_add _).le⟩
  | cons input inputs ih =>
    obtain ⟨hinput, hinputs⟩ := List.ne_and_not_mem_of_not_mem_cons hinputs
    have hstep := takes_poolStep s input
    obtain ⟨⟨r', hr', hstart⟩, hsteps⟩ := course_step hsound hinput.symm hr
    obtain ⟨⟨r'', hr'', hstart'⟩, hlater⟩ := ih (hsound.takes hstep) hinputs hr'
    refine ⟨⟨r'', hr'', hstart'.trans hstart⟩, ?_⟩
    rw [hstep.like.size] at hlater
    rw [history_cons, List.length_append, after_cons]
    omega

/-! ### Failover -/

/-- How a request that is made in a state is served, up to the next one: its turns go from the
pointer that it finds, they are as they should be, and the request has ended once it has gone on
twice for each endpoint and once more. Until then it can go on, by a round or by an answer. -/
structure Serves (s : PoolState R) (inputs : List (PoolInput R)) : Prop where
  start : ∃ r, (after poolStep (poolStep s .request) inputs).call.requesting? = some r ∧
    r.startIndex = s.pool.currentIndex
  right : CallRight (after poolStep (poolStep s .request) inputs).pool
    (after poolStep (poolStep s .request) inputs).call
  ends : 2 * s.pool.size + 1 ≤ (history poolStep goesOn (poolStep s .request) inputs).length →
    ¬ (after poolStep (poolStep s .request) inputs).call.Pending

/-- What is asked of a pool in one of its states: an unhealthy endpoint is so for a reason, the
latest request has done what it should, a request that is made now is served, and no request is
sent to an unhealthy endpoint, whatever happens from now on, before the time of recovery has passed
since it failed last. -/
structure FailsOver (s : PoolState R) : Prop where
  backed : ∀ ep ∈ s.pool.endpoints, ep.Backed s.pool.failureThreshold
  call : CallRight s.pool s.call
  serves : ¬ s.call.Pending → ∀ inputs, .request ∉ inputs → Serves s inputs
  rests : ∀ (idx failedAt : ℕ) ep, s.pool.endpoints[idx]? = some ep → ep.state = .unhealthy →
    ep.lastFailureAt = some failedAt → ∀ inputs,
      ∀ send ∈ history poolStep (fun s input => sends s (poolStep s input)) s inputs,
        send.1 = idx → failedAt + s.pool.recoveryTimeoutMs ≤ send.2

/-- A request that is made when none is under way. -/
theorem poolStep_request (h : ¬ s.call.Pending) :
    poolStep s .request = { s with call := .looping ⟨s.pool.currentIndex, 0, [], []⟩ } := by
  cases hcall : s.call with
  | none | ended => simp only [poolStep, hcall]
  | looping | waiting => exact absurd (hcall ▸ trivial) h

/-- Some step is left to a request that is under way. -/
theorem PoolState.Sound.stepsLeft_pos (h : s.Sound) (hpending : s.call.Pending) :
    0 < s.call.stepsLeft s.pool.size := by
  have hright := h.call
  cases hcall : s.call with
  | none | ended =>
    rw [hcall] at hpending
    exact hpending.elim
  | looping r => exact Nat.succ_pos _
  | waiting r idx endpoint sentAt =>
    rw [hcall] at hright
    have hoffset : r.offset < s.pool.size := hright.1.offset.trans_lt hright.2.1
    exact Nat.mul_pos Nat.two_pos (Nat.sub_pos_of_lt hoffset)

theorem PoolState.Sound.serves (h : s.Sound) (hpending : ¬ s.call.Pending)
    {inputs : List (PoolInput R)} (hinputs : .request ∉ inputs) : Serves s inputs := by
  have hstep := takes_poolStep s .request
  have hmade : (poolStep s .request).Sound := h.takes hstep
  have hlater : (after poolStep (poolStep s .request) inputs).Sound :=
    after_invariant (fun s input h => h.takes (takes_poolStep s input)) hmade inputs
  have hkeep : ∀ (t : PoolState R) input, t.pool.size = (poolStep s .request).pool.size →
      (poolStep t input).pool.size = (poolStep s .request).pool.size :=
    fun t input ht => (takes_poolStep t input).like.size.trans ht
  have hsize : (after poolStep (poolStep s .request) inputs).pool.size =
      (poolStep s .request).pool.size := after_invariant hkeep rfl inputs
  have hr : (poolStep s .request).call.requesting? = some ⟨s.pool.currentIndex, 0, [], []⟩ := by
    rw [poolStep_request hpending]
    rfl
  have hleft : (poolStep s .request).call.stepsLeft (poolStep s .request).pool.size =
      2 * s.pool.size + 1 := by
    rw [poolStep_request hpending]
    rfl
  obtain ⟨hstart, hsteps⟩ := course hmade hinputs hr
  refine ⟨hstart, hlater.call, fun hlength hstill => ?_⟩
  have hpos := hlater.stepsLeft_pos hstill
  rw [hsize] at hpos
  omega

theorem PoolState.Sound.failsOver (h : s.Sound) : FailsOver s where
  backed := by
    intro ep hep
    obtain ⟨idx, hget⟩ := List.mem_iff_getElem?.1 hep
    exact h.backed idx ep hget
  call := h.call
  serves := fun hpending _ hinputs => h.serves hpending hinputs
  rests := fun _ _ ep hget hstate hfailedAt inputs =>
    rests_before_sends h (.inr ⟨ep, hget, hstate, hfailedAt⟩) inputs

/-- The pool that the constructor makes. -/
theorem sound_create {config : RpcPoolConfig}
    (hpool : RpcConnectionPool.create config = .ok pool) (now : ℕ) :
    (⟨pool, now, .none⟩ : PoolState R).Sound := by
  refine ⟨fun idx ep hget => ?_, trivial⟩
  unfold RpcConnectionPool.create at hpool
  dsimp only at hpool
  split_ifs at hpool
  obtain rfl := Except.ok.inj hpool
  rw [List.getElem?_map] at hget
  obtain ⟨url, -, rfl⟩ := Option.map_eq_some_iff.1 hget
  exact EndpointStatus.backed_of_healthy rfl

/-- Two endpoints. -/
def samplePool : RpcConnectionPool where
  endpoints := [.unused "https://a.example", .unused "https://b.example"]
  currentIndex := 0
  failureThreshold := 1
  recoveryTimeoutMs := 60000
  nodup := by decide
  index_lt := by decide

/-- The first endpoint fails, and the second one answers. -/
def sampleFailover : List (PoolInput String) :=
  [.request, .advance, .answer (.response 500 (.error "")), .advance,
    .answer (.response 200 (.ok "result"))]

end SorobanPay.RpcPool
