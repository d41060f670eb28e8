import SorobanPay.Foundation.InsertionMap
import SorobanPay.Foundation.OrderedPages
import SorobanPay.Foundation.Run

/-!
# Calls that fall back to other endpoints

`RpcFallbackManager` keeps its endpoints in a map with the URL as key. A call takes those that are
available, sorted by priority, and tries one after the other. An endpoint that fails is not
available until the cached failure has expired; this is noticed only when availability is asked
for. Any number of calls are under way at once, and each marks the endpoints that fail it.

A URL that is configured twice is one endpoint, at its last place: the primary endpoint that is also
a fallback is tried as this fallback.

Servers, and what is asked of them, are the replies that come. The clock is not set back.

## Main definitions

* `RpcEndpoint`, `RpcFallbackManager`, `fallbackStep`: the endpoints, and what happens to them.
* `failureTimes`, `IsUp`: the failures since the last reset, and whether one is still cached.
* `Tried`: what a call makes of the replies to it.

## Main results

* `Kept.byPriority`: what a call tries.
* `rpc_fallback`: how every call goes.
-/

set_option autoImplicit false

namespace SorobanPay.RpcFallback

open Foundation

/-! ### The manager -/

structure RpcEndpoint where
  url : String
  priority : ℕ
  available : Bool
  lastChecked : Option ℕ
  deriving DecidableEq, Repr

namespace RpcEndpoint

/-- `isEndpointAvailable`, which leaves the endpoint with the answer as `available`. -/
def isEndpointAvailable (cacheExpiryMs now : ℕ) (endpoint : RpcEndpoint) : RpcEndpoint :=
  if endpoint.available then endpoint
  else
    match endpoint.lastChecked with
    | none => endpoint
    | some lastChecked =>
      if lastChecked ≠ 0 ∧ cacheExpiryMs < now - lastChecked then
        { endpoint with available := true }
      else endpoint

/-- `markUnavailable`. -/
def markUnavailable (now : ℕ) (endpoint : RpcEndpoint) : RpcEndpoint :=
  { endpoint with available := false, lastChecked := some now }

/-- An endpoint after `resetStatus`. -/
def resetStatus (endpoint : RpcEndpoint) : RpcEndpoint :=
  { endpoint with available := true, lastChecked := none }

end RpcEndpoint

/-- `RpcCallResult`. -/
structure RpcCallResult (Data : Type) where
  data : Data
  usedEndpoint : String
  retries : ℕ
  deriving DecidableEq, Repr

/-- A call of `executeWithFallback`: the endpoints that it took, and where it is. -/
structure RpcCall (Data : Type) where
  endpoints : List String
  retryCount : ℕ
  outcome : Option (Except String (RpcCallResult Data))

/-- The manager, with the clock and the calls so far. -/
structure RpcFallbackManager (Data : Type) where
  endpoints : InsertionMap String RpcEndpoint
  now : ℕ
  calls : List (RpcCall Data)

variable {Data : Type}

/-- The endpoints that the constructor sets, one after the other. -/
def configured (primary : String) (fallbacks : List String) : List RpcEndpoint :=
  ⟨primary, 0, true, none⟩ ::
    fallbacks.zipIdx.map fun fallback => ⟨fallback.1, fallback.2 + 1, true, none⟩

/-- The constructor. -/
def create (primary : String) (fallbacks : List String) (now : ℕ) : RpcFallbackManager Data :=
  ⟨.ofValues RpcEndpoint.url (configured primary fallbacks), now, []⟩

/-- `executeWithFallback`, up to the first request. -/
def startCall (endpoints : List String) : RpcCall Data :=
  ⟨endpoints, 0, if endpoints = [] then some (.error "No RPC endpoints available") else none⟩

/-- A reply, which ends the call or makes it turn to the next endpoint. -/
def RpcCall.settle (call : RpcCall Data) (reply : Except String Data) : RpcCall Data :=
  match call.outcome, call.endpoints[call.retryCount]?, reply with
  | none, some url, .ok data => { call with outcome := some (.ok ⟨data, url, call.retryCount⟩) }
  | none, some _, .error message =>
    { call with
      retryCount := call.retryCount + 1
      outcome :=
        if call.retryCount + 1 = call.endpoints.length then
          some (.error ("All RPC endpoints failed. Last error: " ++ message))
        else none }
  | _, _, _ => call

/-- The endpoint that a reply says has failed. -/
def RpcCall.failed (call : RpcCall Data) (reply : Except String Data) : Option String :=
  match call.outcome, reply with
  | none, .error _ => call.endpoints[call.retryCount]?
  | _, _ => none

/-- What happens: a call, the reply to the request of one, a look at the status, a reset, or time
that passes. -/
inductive FallbackAct (Data : Type)
  | call
  | settle (i : ℕ) (reply : Except String Data)
  | getStatus
  | resetStatus
  | wait (ms : ℕ)

namespace RpcFallbackManager

variable (cacheExpiryMs : ℕ) (manager : RpcFallbackManager Data)

/-- The endpoints after each has been asked whether it is available. -/
def checked : InsertionMap String RpcEndpoint :=
  manager.endpoints.mapValues fun _ endpoint =>
    endpoint.isEndpointAvailable cacheExpiryMs manager.now

/-- `getEndpointsByPriority`. -/
def getEndpointsByPriority : List RpcEndpoint :=
  ((manager.checked cacheExpiryMs).values.filter RpcEndpoint.available).mergeSort
    fun a b => a.priority ≤ b.priority

/-- `getStatus`. -/
def getStatus : List (String × Bool × ℕ) :=
  (manager.checked cacheExpiryMs).values.map fun endpoint =>
    (endpoint.url, endpoint.available, endpoint.priority)

/-- The endpoint that fails when a call is replied to. -/
def failing (i : ℕ) (reply : Except String Data) : Option String :=
  manager.calls[i]?.bind fun call => call.failed reply

end RpcFallbackManager

variable (cacheExpiryMs : ℕ)

def fallbackStep (manager : RpcFallbackManager Data) :
    FallbackAct Data → RpcFallbackManager Data
  | .call =>
    { manager with
      endpoints := manager.checked cacheExpiryMs
      calls := manager.calls ++
        [startCall ((manager.getEndpointsByPriority cacheExpiryMs).map RpcEndpoint.url)] }
  | .settle i reply =>
    { manager with
      endpoints :=
        match manager.failing i reply with
        | none => manager.endpoints
        | some url =>
          manager.endpoints.modify url fun endpoint => endpoint.markUnavailable manager.now
      calls := manager.calls.modify i fun call => call.settle reply }
  | .getStatus => { manager with endpoints := manager.checked cacheExpiryMs }
  | .resetStatus =>
    { manager with endpoints := manager.endpoints.mapValues fun _ endpoint => endpoint.resetStatus }
  | .wait ms => { manager with now := manager.now + ms }

/-! ### Failures -/

/-- What is noted of a run: the failures with their times, and the resets. -/
inductive Mark
  | failed (url : String) (time : ℕ)
  | reset
  deriving DecidableEq, Repr

def marks (manager : RpcFallbackManager Data) : FallbackAct Data → List Mark
  | .settle i reply =>
    match manager.failing i reply with
    | none => []
    | some url => [.failed url manager.now]
  | .resetStatus => [.reset]
  | .call | .getStatus | .wait _ => []

/-- The times at which an endpoint has failed since the last reset. -/
def failureTimes (url : String) (noted : List Mark) : List ℕ :=
  noted.foldl (fun times mark =>
    match mark with
    | .failed url' time => if url' = url then times ++ [time] else times
    | .reset => []) []

/-- No failure of the endpoint is cached. -/
def IsUp (noted : List Mark) (now : ℕ) (url : String) : Prop :=
  ∀ time ∈ failureTimes url noted, time + cacheExpiryMs < now

instance (noted : List Mark) (now : ℕ) (url : String) :
    Decidable (IsUp cacheExpiryMs noted now url) :=
  inferInstanceAs (Decidable (∀ time ∈ failureTimes url noted, time + cacheExpiryMs < now))

variable {cacheExpiryMs}

@[simp] theorem failureTimes_failed (noted : List Mark) (url url' : String) (time : ℕ) :
    failureTimes url (noted ++ [.failed url' time]) =
      if url' = url then failureTimes url noted ++ [time] else failureTimes url noted := by
  rw [failureTimes, List.foldl_append]
  rfl

@[simp] theorem failureTimes_reset (noted : List Mark) (url : String) :
    failureTimes url (noted ++ [.reset]) = [] := by
  rw [failureTimes, List.foldl_append]
  rfl

/-- What an endpoint knows of the times at which it has failed. -/
structure Knows (cacheExpiryMs now : ℕ) (times : List ℕ) (endpoint : RpcEndpoint) : Prop where
  past : ∀ time ∈ times, 0 < time ∧ time ≤ now
  up : endpoint.available = true → ∀ time ∈ times, time + cacheExpiryMs < now
  down : endpoint.available = false →
    ∃ last ∈ times, endpoint.lastChecked = some last ∧ ∀ time ∈ times, time ≤ last

namespace Knows

variable {now : ℕ} {times : List ℕ} {endpoint : RpcEndpoint}

/-- An expired failure is noticed. -/
theorem isEndpointAvailable (h : Knows cacheExpiryMs now times endpoint) :
    Knows cacheExpiryMs now times (endpoint.isEndpointAvailable cacheExpiryMs now) ∧
      ((endpoint.isEndpointAvailable cacheExpiryMs now).available = true ↔
        ∀ time ∈ times, time + cacheExpiryMs < now) := by
  rw [RpcEndpoint.isEndpointAvailable]
  by_cases havailable : endpoint.available = true
  · rw [if_pos havailable]
    exact ⟨h, fun _ => h.up havailable, fun _ => havailable⟩
  · rw [if_neg havailable]
    obtain ⟨last, hmem, hlast, hle⟩ := h.down (by simpa using havailable)
    have hpositive := (h.past last hmem).1
    rw [hlast]
    dsimp only
    split_ifs with hexpired
    · have hall : ∀ time ∈ times, time + cacheExpiryMs < now := fun time htime => by
        have := hle time htime
        omega
      exact ⟨⟨h.past, fun _ => hall, nofun⟩, fun _ => hall, fun _ => rfl⟩
    · refine ⟨h, fun hup => absurd hup havailable, fun hall => ?_⟩
      have := hall last hmem
      omega

theorem wait (h : Knows cacheExpiryMs now times endpoint) (ms : ℕ) :
    Knows cacheExpiryMs (now + ms) times endpoint := by
  refine ⟨fun time htime => ?_, fun hup time htime => ?_, h.down⟩
  · have := h.past time htime
    omega
  · have := h.up hup time htime
    omega

theorem markUnavailable (h : Knows cacheExpiryMs now times endpoint) (hnow : 0 < now) :
    Knows cacheExpiryMs now (times ++ [now]) (endpoint.markUnavailable now) := by
  refine ⟨fun time htime => ?_, nofun, fun _ => ⟨now, by simp, rfl, fun time htime => ?_⟩⟩
  · rcases List.mem_append.1 htime with htime | htime
    · exact h.past time htime
    · rw [List.mem_singleton.1 htime]
      exact ⟨hnow, le_rfl⟩
  · rcases List.mem_append.1 htime with htime | htime
    · exact (h.past time htime).2
    · exact (List.mem_singleton.1 htime).le

theorem resetStatus (endpoint : RpcEndpoint) :
    Knows cacheExpiryMs now [] endpoint.resetStatus :=
  ⟨by simp, by simp, nofun⟩

end Knows

/-! ### Endpoints -/

/-- What is never changed of an endpoint. -/
def RpcEndpoint.place (endpoint : RpcEndpoint) : String × ℕ := (endpoint.url, endpoint.priority)

/-- The endpoints are those that were configured, and each knows of its failures. -/
structure Kept (cacheExpiryMs : ℕ) (config : List RpcEndpoint) (noted : List Mark) (now : ℕ)
    (endpoints : InsertionMap String RpcEndpoint) : Prop where
  started : 0 < now
  places : endpoints.values.map RpcEndpoint.place =
    (InsertionMap.ofValues RpcEndpoint.url config).values.map RpcEndpoint.place
  knows : ∀ url endpoint, endpoints.get url = some endpoint →
    endpoint.url = url ∧ Knows cacheExpiryMs now (failureTimes url noted) endpoint

namespace Kept

variable {config : List RpcEndpoint} {noted noted' : List Mark} {now : ℕ}
  {endpoints : InsertionMap String RpcEndpoint}

theorem mapValues (h : Kept cacheExpiryMs config noted now endpoints)
    {f : RpcEndpoint → RpcEndpoint} (hplace : ∀ endpoint, (f endpoint).place = endpoint.place)
    (hknows : ∀ url endpoint, Knows cacheExpiryMs now (failureTimes url noted) endpoint →
      Knows cacheExpiryMs now (failureTimes url noted') (f endpoint)) :
    Kept cacheExpiryMs config noted' now (endpoints.mapValues fun _ => f) := by
  refine ⟨h.started, ?_, fun url endpoint hget => ?_⟩
  · rw [← h.places]
    simp only [InsertionMap.values, InsertionMap.mapValues, List.map_map]
    exact List.map_congr_left fun entry _ => hplace entry.2
  · rw [InsertionMap.get_mapValues] at hget
    obtain ⟨old, hold, rfl⟩ := Option.map_eq_some_iff.1 hget
    obtain ⟨hurl, hold⟩ := h.knows url old hold
    exact ⟨(congrArg Prod.fst (hplace old)).trans hurl, hknows url old hold⟩

theorem place_isEndpointAvailable (endpoint : RpcEndpoint) :
    (endpoint.isEndpointAvailable cacheExpiryMs now).place = endpoint.place := by
  unfold RpcEndpoint.isEndpointAvailable
  split_ifs
  · rfl
  · split
    · rfl
    · split_ifs <;> rfl

/-- Asking for the availability of all endpoints. -/
theorem checked {manager : RpcFallbackManager Data}
    (h : Kept cacheExpiryMs config noted manager.now manager.endpoints) :
    Kept cacheExpiryMs config noted manager.now (manager.checked cacheExpiryMs) :=
  h.mapValues place_isEndpointAvailable fun _ _ hknows => hknows.isEndpointAvailable.1

/-- The answer is whether a failure is cached. -/
theorem available_iff {manager : RpcFallbackManager Data}
    (h : Kept cacheExpiryMs config noted manager.now manager.endpoints) {endpoint : RpcEndpoint}
    (hmem : endpoint ∈ (manager.checked cacheExpiryMs).values) :
    endpoint.available = true ↔ IsUp cacheExpiryMs noted manager.now endpoint.url := by
  obtain ⟨url, hget⟩ := InsertionMap.mem_values_iff.1 hmem
  rw [RpcFallbackManager.checked, InsertionMap.get_mapValues] at hget
  obtain ⟨old, hold, rfl⟩ := Option.map_eq_some_iff.1 hget
  obtain ⟨rfl, hknows⟩ := h.knows url old hold
  rw [show (old.isEndpointAvailable cacheExpiryMs manager.now).url = old.url from
    congrArg Prod.fst (place_isEndpointAvailable old)]
  exact hknows.isEndpointAvailable.2

/-- **The order of the endpoints.** A call takes the URLs that are configured, without those of
which a failure is cached, in the order in which they come last. -/
theorem byPriority {manager : RpcFallbackManager Data}
    (hsorted : config.Pairwise fun a b => a.priority < b.priority)
    (h : Kept cacheExpiryMs config noted manager.now manager.endpoints) :
    (manager.getEndpointsByPriority cacheExpiryMs).map RpcEndpoint.url =
      (config.map RpcEndpoint.url).dedup.filter fun url =>
        IsUp cacheExpiryMs noted manager.now url := by
  let up : String → Bool := fun url => IsUp cacheExpiryMs noted manager.now url
  let lasts := (InsertionMap.lasts RpcEndpoint.url config).map RpcEndpoint.place
  have hlasts : lasts.Pairwise fun a b => a.2 < b.2 :=
    List.pairwise_map.2 (hsorted.sublist InsertionMap.lasts_sublist)
  replace hlasts := hlasts.filter (up ∘ Prod.fst)
  have hvalues : ((manager.checked cacheExpiryMs).values.filter RpcEndpoint.available).map
      RpcEndpoint.place =
        ((manager.checked cacheExpiryMs).values.map RpcEndpoint.place).filter
          (up ∘ Prod.fst) := by
    rw [List.filter_map]
    refine congrArg _ (List.filter_congr fun endpoint hmem => ?_)
    rw [Bool.eq_iff_iff, h.available_iff hmem]
    exact decide_eq_true_iff.symm
  have hperm : ((manager.getEndpointsByPriority cacheExpiryMs).map RpcEndpoint.place).Perm
      (lasts.filter (up ∘ Prod.fst)) := by
    refine ((List.mergeSort_perm _ _).map _).trans ?_
    rw [hvalues, h.checked.places]
    exact (InsertionMap.perm_values_ofValues.map _).filter _
  have hanswer : (manager.getEndpointsByPriority cacheExpiryMs).Pairwise
      fun a b => a.priority ≤ b.priority := by
    refine (List.pairwise_mergeSort (fun a b c hab hbc => ?_) (fun a b => ?_) _).imp
      fun h => of_decide_eq_true h
    · exact decide_eq_true ((of_decide_eq_true hab).trans (of_decide_eq_true hbc))
    · simpa using le_total a.priority b.priority
  have hordered : IsOrdering (· ≤ ·) Prod.snd (lasts.filter (up ∘ Prod.fst))
      ((manager.getEndpointsByPriority cacheExpiryMs).map RpcEndpoint.place) :=
    ⟨hperm, List.pairwise_map.2 hanswer⟩
  have heq : (manager.getEndpointsByPriority cacheExpiryMs).map RpcEndpoint.place =
      lasts.filter (up ∘ Prod.fst) :=
    hordered.unique (fun _ _ => le_antisymm) (List.pairwise_map.2 (hlasts.imp ne_of_lt))
      ⟨.refl _, hlasts.imp le_of_lt⟩
  calc (manager.getEndpointsByPriority cacheExpiryMs).map RpcEndpoint.url
      = ((manager.getEndpointsByPriority cacheExpiryMs).map RpcEndpoint.place).map Prod.fst := by
        rw [List.map_map]
        rfl
    _ = (lasts.map Prod.fst).filter fun url => IsUp cacheExpiryMs noted manager.now url := by
        rw [heq]
        exact List.filter_map.symm
    _ = (config.map RpcEndpoint.url).dedup.filter
          fun url => IsUp cacheExpiryMs noted manager.now url := by
        rw [← InsertionMap.map_lasts, List.map_map]
        rfl

theorem modify (h : Kept cacheExpiryMs config noted now endpoints) (url : String) :
    Kept cacheExpiryMs config (noted ++ [.failed url now]) now
      (endpoints.modify url fun endpoint => endpoint.markUnavailable now) := by
  refine ⟨h.started, ?_, fun url' endpoint hget => ?_⟩
  · rw [← h.places, InsertionMap.modify]
    cases hget : endpoints.get url with
    | none => rfl
    | some endpoint => exact InsertionMap.map_values_set _ hget rfl
  · rw [InsertionMap.get_modify] at hget
    rw [failureTimes_failed]
    split_ifs at hget with hurl
    · obtain ⟨old, hold, rfl⟩ := Option.map_eq_some_iff.1 hget
      obtain ⟨hurl', hknows⟩ := h.knows url' old hold
      rw [if_pos hurl.symm]
      exact ⟨hurl', hknows.markUnavailable h.started⟩
    · rw [if_neg fun heq => hurl heq.symm]
      exact h.knows url' endpoint hget

/-- **A step.** -/
theorem step {manager : RpcFallbackManager Data}
    (h : Kept cacheExpiryMs config noted manager.now manager.endpoints) (act : FallbackAct Data) :
    Kept cacheExpiryMs config (noted ++ marks manager act)
      (fallbackStep cacheExpiryMs manager act).now
      (fallbackStep cacheExpiryMs manager act).endpoints := by
  cases act with
  | call =>
    rw [marks, List.append_nil]
    exact h.checked
  | settle i reply =>
    rw [marks, fallbackStep]
    dsimp only
    cases manager.failing i reply with
    | none =>
      rw [List.append_nil]
      exact h
    | some url => exact h.modify url
  | getStatus =>
    rw [marks, List.append_nil]
    exact h.checked
  | resetStatus =>
    refine h.mapValues (fun _ => rfl) fun url endpoint _ => ?_
    rw [marks, failureTimes_reset]
    exact .resetStatus endpoint
  | wait ms =>
    rw [marks, List.append_nil]
    exact ⟨Nat.add_pos_left h.started ms, h.places, fun url endpoint hget =>
      ⟨(h.knows url endpoint hget).1, (h.knows url endpoint hget).2.wait ms⟩⟩

/-- **A run.** -/
theorem after {manager : RpcFallbackManager Data}
    (h : Kept cacheExpiryMs config noted manager.now manager.endpoints)
    (acts : List (FallbackAct Data)) :
    Kept cacheExpiryMs config (noted ++ history (fallbackStep cacheExpiryMs) marks manager acts)
      (Foundation.after (fallbackStep cacheExpiryMs) manager acts).now
      (Foundation.after (fallbackStep cacheExpiryMs) manager acts).endpoints := by
  induction acts generalizing manager noted with
  | nil =>
    rw [history_nil, List.append_nil]
    exact h
  | cons act acts ih =>
    rw [history_cons, ← List.append_assoc, after_cons]
    exact ih (h.step act)

end Kept

theorem pairwise_configured (primary : String) (fallbacks : List String) :
    (configured primary fallbacks).Pairwise fun a b => a.priority < b.priority := by
  rw [configured, List.pairwise_cons, List.pairwise_map]
  constructor
  · intro endpoint hendpoint
    obtain ⟨fallback, -, rfl⟩ := List.mem_map.1 hendpoint
    exact Nat.succ_pos _
  · have hindex : (fallbacks.zipIdx.map Prod.snd).Pairwise (· < ·) := by
      rw [List.zipIdx_map_snd]
      exact List.pairwise_lt_range'
    exact (List.pairwise_map.1 hindex).imp Nat.succ_lt_succ

theorem url_configured (primary : String) (fallbacks : List String) :
    (configured primary fallbacks).map RpcEndpoint.url = primary :: fallbacks := by
  rw [configured, List.map_cons, List.map_map]
  exact congrArg _ (List.zipIdx_map_fst 0 fallbacks)

theorem kept_create (primary : String) (fallbacks : List String) {now : ℕ} (hnow : 0 < now) :
    Kept cacheExpiryMs (configured primary fallbacks) [] now
      (create primary fallbacks now : RpcFallbackManager Data).endpoints := by
  refine ⟨hnow, rfl, fun url endpoint hget => ?_⟩
  obtain ⟨hurl, hmem⟩ := InsertionMap.key_of_get_ofValues hget
  have havailable : endpoint.available = true := by
    rcases List.mem_cons.1 hmem with rfl | hmem
    · rfl
    · obtain ⟨fallback, -, rfl⟩ := List.mem_map.1 hmem
      rfl
  exact ⟨hurl, by simp [failureTimes], by simp [failureTimes], by simp [havailable]⟩

/-! ### Calls -/

/-- What a call makes of the replies to it: endpoint after endpoint fails, until one answers or
none is left. -/
inductive Tried (endpoints : List String) :
    List (Except String Data) → Option (Except String (RpcCallResult Data)) → Prop
  | unavailable (replies : List (Except String Data)) (h : endpoints = []) :
    Tried endpoints replies (some (.error "No RPC endpoints available"))
  | trying (errors : List String) (h : errors.length < endpoints.length) :
    Tried endpoints (errors.map .error) none
  | used (errors : List String) (data : Data) (rest : List (Except String Data)) (url : String)
      (h : endpoints[errors.length]? = some url) :
    Tried endpoints (errors.map .error ++ .ok data :: rest)
      (some (.ok ⟨data, url, errors.length⟩))
  | exhausted (errors : List String) (message : String) (rest : List (Except String Data))
      (h : errors.length + 1 = endpoints.length) :
    Tried endpoints (errors.map .error ++ .error message :: rest)
      (some (.error ("All RPC endpoints failed. Last error: " ++ message)))

/-- A call with the replies to it so far. -/
structure Goes (endpoints : List String) (replies : List (Except String Data))
    (call : RpcCall Data) : Prop where
  endpoints_eq : call.endpoints = endpoints
  tried : Tried endpoints replies call.outcome
  counts : call.outcome = none → call.retryCount = replies.length

theorem goes_startCall (endpoints : List String) :
    Goes endpoints [] (startCall endpoints : RpcCall Data) := by
  refine ⟨rfl, ?_, fun _ => rfl⟩
  rw [startCall]
  split_ifs with hempty
  · exact .unavailable [] hempty
  · exact .trying [] (List.length_pos_iff.2 hempty)

theorem Goes.settle {endpoints : List String} {replies : List (Except String Data)}
    {call : RpcCall Data} (h : Goes endpoints replies call) (reply : Except String Data) :
    Goes endpoints (replies ++ [reply]) (call.settle reply) := by
  obtain ⟨rfl, htried, hcounts⟩ := h
  have hended : ∀ result, call.outcome = some result →
      Tried call.endpoints (replies ++ [reply]) (some result) →
      Goes call.endpoints (replies ++ [reply]) (call.settle reply) := by
    intro result hresult htried
    have hsettle : call.settle reply = call := by
      unfold RpcCall.settle
      rw [hresult]
    rw [hsettle]
    exact ⟨rfl, hresult ▸ htried, fun hnone => by rw [hresult] at hnone; cases hnone⟩
  cases houtcome : call.outcome with
  | some result =>
    rw [houtcome] at htried
    refine hended result houtcome ?_
    cases htried with
    | unavailable replies h => exact .unavailable _ h
    | used errors data rest url h =>
      rw [List.append_assoc]
      exact .used errors data (rest ++ [reply]) url h
    | exhausted errors message rest h =>
      rw [List.append_assoc]
      exact .exhausted errors message (rest ++ [reply]) h
  | none =>
    have hretries := hcounts houtcome
    rw [houtcome] at htried
    cases htried with
    | trying errors h =>
      rw [List.length_map] at hretries
      obtain ⟨url, hurl⟩ : ∃ url, call.endpoints[errors.length]? = some url :=
        ⟨_, List.getElem?_eq_getElem h⟩
      unfold RpcCall.settle
      rw [houtcome, hretries, hurl]
      cases reply with
      | ok data => exact ⟨rfl, .used errors data [] url hurl, nofun⟩
      | error message =>
        dsimp only
        split_ifs with hlast
        · exact ⟨rfl, .exhausted errors message [] hlast, nofun⟩
        · refine ⟨rfl, ?_, fun _ => by simp⟩
          have htrying : Tried call.endpoints ((errors ++ [message]).map .error)
              (none : Option (Except String (RpcCallResult Data))) :=
            .trying _ (by rw [List.length_append, List.length_singleton]; omega)
          rwa [List.map_append] at htrying

/-- The replies to a call. -/
def repliesTo (i : ℕ) (acts : List (FallbackAct Data)) : List (Except String Data) :=
  acts.filterMap fun
    | .settle j reply => if j = i then some reply else none
    | _ => none

variable {endpoints : List String} {replies : List (Except String Data)} {call : RpcCall Data}
  {manager : RpcFallbackManager Data} {i : ℕ}

/-- A step takes a call on by the reply to it. -/
theorem goes_fallbackStep (h : Goes endpoints replies call) (hget : manager.calls[i]? = some call)
    (act : FallbackAct Data) :
    ∃ call', (fallbackStep cacheExpiryMs manager act).calls[i]? = some call' ∧
      Goes endpoints (replies ++ repliesTo i [act]) call' := by
  cases act with
  | settle j reply =>
    rw [fallbackStep, List.getElem?_modify, hget]
    by_cases hj : j = i
    · refine ⟨call.settle reply, by simp [hj], ?_⟩
      have hreplies : repliesTo i [.settle j reply] = [reply] := by simp [repliesTo, hj]
      exact hreplies ▸ h.settle reply
    · refine ⟨call, by simp [hj], ?_⟩
      have hreplies : repliesTo i [.settle j reply] = [] := by simp [repliesTo, hj]
      rwa [hreplies, List.append_nil]
  | call =>
    rw [show repliesTo i [.call] = ([] : List (Except String Data)) from rfl, List.append_nil]
    exact ⟨call, (List.getElem?_append_left (List.getElem?_eq_some_iff.1 hget).1).trans hget, h⟩
  | getStatus | resetStatus | wait ms =>
    rw [show repliesTo i [_] = ([] : List (Except String Data)) from rfl, List.append_nil]
    exact ⟨call, hget, h⟩

/-- **How a call goes** depends on nothing but the replies to it. -/
theorem goes_after (h : Goes endpoints replies call) (hget : manager.calls[i]? = some call)
    (acts : List (FallbackAct Data)) :
    ∃ call', (after (fallbackStep cacheExpiryMs) manager acts).calls[i]? = some call' ∧
      Goes endpoints (replies ++ repliesTo i acts) call' := by
  induction acts generalizing manager call replies with
  | nil =>
    rw [show repliesTo i [] = ([] : List (Except String Data)) from rfl, List.append_nil]
    exact ⟨call, hget, h⟩
  | cons act acts ih =>
    obtain ⟨call', hget', hgoes⟩ := goes_fallbackStep h hget act
    obtain ⟨call'', hget'', hgoes'⟩ := ih hgoes hget'
    refine ⟨call'', hget'', ?_⟩
    rwa [List.append_assoc, repliesTo, repliesTo, ← List.filterMap_append,
      List.singleton_append] at hgoes'

/-! ### All calls -/

/-- The manager after a run. -/
def fallbackRun (cacheExpiryMs : ℕ) (primary : String) (fallbacks : List String) (now : ℕ)
    (acts : List (FallbackAct Data)) : RpcFallbackManager Data :=
  after (fallbackStep cacheExpiryMs) (create primary fallbacks now) acts

/-- What a run has noted. -/
def notedBy (cacheExpiryMs : ℕ) (primary : String) (fallbacks : List String) (now : ℕ)
    (acts : List (FallbackAct Data)) : List Mark :=
  history (fallbackStep cacheExpiryMs) marks (create primary fallbacks now) acts

/-- **Calls with fallback**, for every order of calls, replies, resets and looks at the status. A
call takes the configured URLs, a repeated one at its last place, without those that have failed
any call since the last reset and not longer ago than a failure is cached. It tries these one after
the other: it ends with the first that answers, or with the error of the last if all of them fail,
whatever the other calls do meanwhile. The status says of each endpoint whether a failure of it is
cached. -/
theorem rpc_fallback (cacheExpiryMs : ℕ) (primary : String) (fallbacks : List String) {now : ℕ}
    (hnow : 0 < now) (pre post : List (FallbackAct Data)) :
    (∃ call, (fallbackRun cacheExpiryMs primary fallbacks now (pre ++ .call :: post)).calls[
        (fallbackRun cacheExpiryMs primary fallbacks now pre).calls.length]? = some call ∧
      call.endpoints = ((primary :: fallbacks).dedup.filter fun url =>
        IsUp cacheExpiryMs (notedBy cacheExpiryMs primary fallbacks now pre)
          (fallbackRun cacheExpiryMs primary fallbacks now pre).now url) ∧
      Tried call.endpoints
        (repliesTo (fallbackRun cacheExpiryMs primary fallbacks now pre).calls.length post)
        call.outcome) ∧
    ∀ url available priority, (url, available, priority) ∈
        (fallbackRun cacheExpiryMs primary fallbacks now pre).getStatus cacheExpiryMs →
      (available = true ↔ IsUp cacheExpiryMs (notedBy cacheExpiryMs primary fallbacks now pre)
        (fallbackRun cacheExpiryMs primary fallbacks now pre).now url) := by
  have hcreate : Kept cacheExpiryMs (configured primary fallbacks) []
      (create primary fallbacks now : RpcFallbackManager Data).now
      (create primary fallbacks now : RpcFallbackManager Data).endpoints :=
    kept_create primary fallbacks hnow
  have hkept : Kept cacheExpiryMs (configured primary fallbacks)
      (notedBy cacheExpiryMs primary fallbacks now pre)
      (fallbackRun cacheExpiryMs primary fallbacks now pre).now
      (fallbackRun cacheExpiryMs primary fallbacks now pre).endpoints :=
    hcreate.after pre
  constructor
  · rw [fallbackRun, after_append, after_cons]
    change ∃ call, (after (fallbackStep cacheExpiryMs) (fallbackStep cacheExpiryMs
      (fallbackRun cacheExpiryMs primary fallbacks now pre) .call) post).calls[_]? = _ ∧ _
    have hstart : (fallbackStep cacheExpiryMs
        (fallbackRun cacheExpiryMs primary fallbacks now pre) .call).calls[
          (fallbackRun cacheExpiryMs primary fallbacks now pre).calls.length]? =
        some (startCall (((fallbackRun cacheExpiryMs primary fallbacks now
          pre).getEndpointsByPriority cacheExpiryMs).map RpcEndpoint.url)) :=
      List.getElem?_concat_length
    obtain ⟨call, hget, hgoes⟩ := goes_after (goes_startCall _) hstart post
    refine ⟨call, hget, ?_, ?_⟩
    · rw [hgoes.endpoints_eq, hkept.byPriority (pairwise_configured primary fallbacks),
        url_configured]
    · exact hgoes.endpoints_eq ▸ hgoes.tried
  · intro url available priority hmem
    obtain ⟨endpoint, hendpoint, heq⟩ := List.mem_map.1 hmem
    obtain ⟨rfl, rfl, rfl⟩ : endpoint.url = url ∧ endpoint.available = available ∧
      endpoint.priority = priority := by simpa using heq
    exact hkept.available_iff hendpoint

theorem rpc_fallback_sample : ∃ call, (fallbackRun 60000 "main" ["spare", "main"] 5
      [.wait 3, .call, .settle 0 (.error "down"), .settle 0 (.ok 7)]).calls[0]? = some call ∧
    call.endpoints = ["spare", "main"] ∧
    Tried call.endpoints [.error "down", .ok 7] call.outcome := by
  obtain ⟨⟨call, hget, hendpoints, htried⟩, -⟩ := rpc_fallback 60000 "main" ["spare", "main"]
    (show 0 < 5 by decide) [.wait 3] [.settle 0 (.error "down"), .settle 0 (.ok 7)]
  exact ⟨call, hget, hendpoints.trans (by decide), htried⟩

end SorobanPay.RpcFallback
