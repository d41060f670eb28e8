import SorobanPay.Foundation.InsertionMap
import SorobanPay.Foundation.Run

/-!
# Rate limiters

`rateLimiter.ts` makes three limiters, for public endpoints, for authentication and for exports.
Each has a maximum of requests for a window of a minute. When Redis is there, each keeps its counts
by a `RateLimiterRedis` of its own, under the same prefix and under the address of the client.

`RateLimiterRedis` is not part of the repository. It is taken as an atomic counter for each prefix
and key, which starts a window when it is created and is gone when the window is over.
`express-rate-limit` calls `increment` for every request that is not skipped, and answers 429 when
there are more hits than the maximum.

## Main definitions

* `consume`, `increment`, `handle`: what becomes of a request.
* `Independent`: a limiter answers 429 only for too many requests through this limiter.
* `RoomLeft`: the requests through other limiters leave room for those through this one.

## Main results

* `LimiterInv.step`: a counter counts the requests of its window, through whatever limiter.
* `rate_limiters_independent_iff`: limiters are independent in the runs in which there is room.
-/

set_option autoImplicit false

namespace SorobanPay.RateLimiter

open Foundation

/-! ### Counters -/

/-- A counter in Redis. -/
structure Counter where
  consumedPoints : ℕ
  createdAt : ℕ
  expiresAt : ℕ
  deriving DecidableEq, Repr

/-- The options of a `RateLimiterRedis`, with the duration in seconds. -/
structure LimiterOptions where
  keyPrefix : String
  points : ℕ
  duration : ℕ

structure RateLimiterRes where
  consumedPoints : ℕ
  msBeforeNext : ℕ
  deriving DecidableEq, Repr

/-- How `consume` ends: it resolves, it rejects with a result since the points are used up, or it
rejects with another error. -/
inductive Consumed
  | resolved (res : RateLimiterRes)
  | limited (res : RateLimiterRes)
  | failed

abbrev Counters := InsertionMap (String × String) Counter

/-- The counter whose window is not over. -/
def liveCounter (counters : Counters) (keyPrefix key : String) (nowMs : ℕ) : Option Counter :=
  (counters.get (keyPrefix, key)).filter fun counter => nowMs < counter.expiresAt

/-- The counter after one more point. -/
def countedBy (options : LimiterOptions) (counters : Counters) (key : String) (nowMs : ℕ) :
    Counter :=
  match liveCounter counters options.keyPrefix key nowMs with
  | some counter => { counter with consumedPoints := counter.consumedPoints + 1 }
  | none => ⟨1, nowMs, nowMs + options.duration * 1000⟩

/-- `consume` of a `RateLimiterRedis`, for one point. -/
def consume (options : LimiterOptions) (counters : Counters) (key : String) (nowMs : ℕ) :
    Counters × Consumed :=
  let counter := countedBy options counters key nowMs
  let res : RateLimiterRes := ⟨counter.consumedPoints, counter.expiresAt - nowMs⟩
  (counters.set (options.keyPrefix, key) counter,
    if counter.consumedPoints ≤ options.points then .resolved res else .limited res)

structure ClientRateLimitInfo where
  totalHits : ℕ
  resetTime : Option ℕ
  deriving DecidableEq, Repr

/-- `increment` of the `RedisStoreAdapter`, which lets requests through when Redis fails. -/
def increment (consumed : Consumed) (nowMs : ℕ) : ClientRateLimitInfo :=
  match consumed with
  | .resolved res | .limited res => ⟨res.consumedPoints, some (nowMs + res.msBeforeNext)⟩
  | .failed => ⟨1, none⟩

/-! ### Limiters -/

/-- What is read of the environment, with the addresses of `RATE_LIMIT_ALLOWLIST` as a list. -/
structure Env where
  redisPrefix : Option String
  allowlistedIps : List String

def Env.keyPrefix (env : Env) : String := env.redisPrefix.getD "sorobanpay:rl:"

def isAllowlisted (env : Env) (ip : String) : Bool := env.allowlistedIps.contains ip

structure Limiter where
  windowMs : ℕ
  max : ℕ
  deriving DecidableEq, Repr

def publicLimiter : Limiter := ⟨60 * 1000, 60⟩

def authLimiter : Limiter := ⟨60 * 1000, 10⟩

def exportLimiter : Limiter := ⟨60 * 1000, 1⟩

inductive LimiterName
  | publicLimiter
  | authLimiter
  | exportLimiter
  deriving DecidableEq, Repr

def LimiterName.limiter : LimiterName → Limiter
  | .publicLimiter => RateLimiter.publicLimiter
  | .authLimiter => RateLimiter.authLimiter
  | .exportLimiter => RateLimiter.exportLimiter

/-- The options that the constructor of `RedisStoreAdapter` passes on. -/
def Limiter.options (limiter : Limiter) (env : Env) : LimiterOptions where
  keyPrefix := env.keyPrefix
  points := limiter.max
  duration := limiter.windowMs / 1000

/-- The answer of `make429Handler`. -/
structure TooManyRequests where
  retryAfter : ℕ
  error : String
  message : String
  deriving DecidableEq, Repr

def make429 (windowMs : ℕ) : TooManyRequests :=
  let retryAfterSec := (windowMs + 999) / 1000
  { retryAfter := retryAfterSec
    error := "Too Many Requests"
    message := "Rate limit exceeded. Please wait " ++ toString retryAfterSec ++
      " seconds before retrying." }

/-! ### Requests -/

/-- A request of a client through a limiter, some time after the last one. -/
structure Request where
  limiter : LimiterName
  ip : String
  elapsedMs : ℕ

/-- A request that has passed through a limiter, and when. -/
structure Hit where
  limiter : LimiterName
  ip : String
  timeMs : ℕ
  deriving DecidableEq, Repr

structure LimiterState where
  counters : Counters
  nowMs : ℕ
  hits : List Hit

def LimiterState.initial : LimiterState := ⟨.empty, 0, []⟩

section Env

variable (env : Env) (s : LimiterState) (r : Request)

/-- The time of a request. -/
def Request.time : ℕ := s.nowMs + r.elapsedMs

/-- What becomes of Redis and of the request: it is passed on, or answered. -/
def handle : LimiterState × Option TooManyRequests :=
  let limiter := r.limiter.limiter
  if isAllowlisted env r.ip then ({ s with nowMs := r.time s }, none)
  else
    let consumed := consume (limiter.options env) s.counters r.ip (r.time s)
    ({ counters := consumed.1
       nowMs := r.time s
       hits := s.hits ++ [⟨r.limiter, r.ip, r.time s⟩] },
      if limiter.max < (increment consumed.2 (r.time s)).totalHits then
        some (make429 limiter.windowMs)
      else none)

def limiterStep : LimiterState := (handle env s r).1

/-- The requests of a client since some time, through one limiter. -/
def LimiterState.hitsThrough (name : LimiterName) (ip : String) (since : ℕ) : ℕ :=
  s.hits.countP fun hit => hit.limiter = name ∧ hit.ip = ip ∧ since ≤ hit.timeMs

/-- The requests of a client since some time, through all limiters. -/
def LimiterState.hitsOf (ip : String) (since : ℕ) : ℕ :=
  s.hits.countP fun hit => hit.ip = ip ∧ since ≤ hit.timeMs

/-! ### What is to hold -/

/-- A request is answered by 429 only if more requests of the client than the maximum have passed
through the same limiter in the window in which it has been counted. -/
def Independent : Prop :=
  (handle env s r).2.isSome = true →
    ∀ counter ∈ (limiterStep env s r).counters.get (env.keyPrefix, r.ip),
      r.limiter.limiter.max <
        (limiterStep env s r).hitsThrough r.limiter r.ip counter.createdAt

/-- If a limiter has room for a request of the client in the window that is running, then so it has
when the requests through the other limiters are counted, too. -/
def RoomLeft : Prop :=
  isAllowlisted env r.ip = false →
    ∀ counter ∈ liveCounter s.counters env.keyPrefix r.ip (r.time s),
      s.hitsThrough r.limiter r.ip counter.createdAt < r.limiter.limiter.max →
        s.hitsOf r.ip counter.createdAt < r.limiter.limiter.max

end Env

/-! ### Windows -/

variable {env : Env} {s : LimiterState} {r : Request} {name : LimiterName} {ip : String}
  {since : ℕ}

variable (env) in
/-- The counter of a client counts the requests since it was created, and every request of the
client was before the end of its window. -/
structure LimiterInv (s : LimiterState) : Prop where
  counts : ∀ ip counter, s.counters.get (env.keyPrefix, ip) = some counter →
    counter.createdAt ≤ s.nowMs ∧ counter.consumedPoints = s.hitsOf ip counter.createdAt
  hits : ∀ hit ∈ s.hits, hit.timeMs ≤ s.nowMs ∧
    ∃ counter, s.counters.get (env.keyPrefix, hit.ip) = some counter ∧
      hit.timeMs < counter.expiresAt

theorem liveCounter_eq_some {counters : Counters} {keyPrefix key : String} {nowMs : ℕ}
    {counter : Counter} : liveCounter counters keyPrefix key nowMs = some counter ↔
      counters.get (keyPrefix, key) = some counter ∧ nowMs < counter.expiresAt := by
  simp [liveCounter, Option.filter_eq_some_iff]

/-- A counter is created when the window of the last one is over. -/
theorem liveCounter_eq_none {counters : Counters} {keyPrefix key : String} {nowMs : ℕ}
    (h : liveCounter counters keyPrefix key nowMs = none) {counter : Counter}
    (hcounter : counters.get (keyPrefix, key) = some counter) : counter.expiresAt ≤ nowMs := by
  by_contra hlt
  have hlive := liveCounter_eq_some.2 ⟨hcounter, not_le.1 hlt⟩
  exact absurd (h.symm.trans hlive) (by simp)

theorem limiterStep_of_allowlisted (h : isAllowlisted env r.ip = true) :
    limiterStep env s r = { s with nowMs := r.time s } := by
  simp only [limiterStep, handle, h, if_true]

/-- The counter of a request. -/
def Request.counter (env : Env) (s : LimiterState) (r : Request) : Counter :=
  countedBy (r.limiter.limiter.options env) s.counters r.ip (r.time s)

theorem limiterStep_of_counted (h : isAllowlisted env r.ip = false) :
    limiterStep env s r =
      ⟨s.counters.set (env.keyPrefix, r.ip) (r.counter env s), r.time s,
        s.hits ++ [⟨r.limiter, r.ip, r.time s⟩]⟩ := by
  simp only [limiterStep, handle, h, Bool.false_eq_true, if_false, consume, Limiter.options,
    Request.counter]

/-- The hits that are counted are the consumed points, whether `consume` resolves or rejects. -/
theorem totalHits_consume (options : LimiterOptions) (counters : Counters) (key : String)
    (nowMs : ℕ) : (increment (consume options counters key nowMs).2 nowMs).totalHits =
      (countedBy options counters key nowMs).consumedPoints := by
  unfold consume
  dsimp only
  split_ifs <;> rfl

theorem isSome_handle_iff : (handle env s r).2.isSome = true ↔
    isAllowlisted env r.ip = false ∧
      r.limiter.limiter.max < (r.counter env s).consumedPoints := by
  cases h : isAllowlisted env r.ip with
  | true => simp [handle, h]
  | false =>
    simp only [handle, h, Bool.false_eq_true, if_false, totalHits_consume, true_and]
    split_ifs with hmax
    · simp only [Option.isSome_some, true_iff]
      exact hmax
    · simp only [Option.isSome_none, Bool.false_eq_true, false_iff]
      exact hmax

/-- The counter of a request in a window that is running. -/
theorem counter_of_live {counter : Counter}
    (h : liveCounter s.counters env.keyPrefix r.ip (r.time s) = some counter) :
    r.counter env s = { counter with consumedPoints := counter.consumedPoints + 1 } := by
  simp only [Request.counter, countedBy, Limiter.options, h]

/-- The counter of a request that starts a window. -/
theorem counter_of_none (h : liveCounter s.counters env.keyPrefix r.ip (r.time s) = none) :
    r.counter env s =
      ⟨1, r.time s, r.time s + r.limiter.limiter.windowMs / 1000 * 1000⟩ := by
  simp only [Request.counter, countedBy, Limiter.options, h]

theorem time_le (s : LimiterState) (r : Request) : s.nowMs ≤ r.time s := Nat.le_add_right _ _

namespace LimiterInv

theorem initial : LimiterInv env .initial :=
  ⟨fun _ _ h => by simp [LimiterState.initial] at h, fun _ h => by simp [LimiterState.initial] at h⟩

/-- Nothing has been counted in a window that has not started. -/
theorem hitsOf_eq_zero (h : LimiterInv env s)
    (hnone : liveCounter s.counters env.keyPrefix r.ip (r.time s) = none) :
    s.hitsOf r.ip (r.time s) = 0 := by
  refine List.countP_eq_zero.2 fun hit hhit hcounted => ?_
  obtain ⟨hip, hsince⟩ := of_decide_eq_true hcounted
  obtain ⟨-, counter, hcounter, hlt⟩ := h.hits hit hhit
  rw [hip] at hcounter
  have hover := liveCounter_eq_none hnone hcounter
  omega

/-- The counter of a request counts it and the ones before it. -/
theorem counter (h : LimiterInv env s) :
    (r.counter env s).createdAt ≤ r.time s ∧ r.time s < (r.counter env s).expiresAt ∧
      (r.counter env s).consumedPoints = s.hitsOf r.ip (r.counter env s).createdAt + 1 := by
  cases hlive : liveCounter s.counters env.keyPrefix r.ip (r.time s) with
  | none =>
    have hwindow : 0 < r.limiter.limiter.windowMs / 1000 * 1000 := by
      cases r.limiter <;> decide
    rw [counter_of_none hlive]
    refine ⟨le_rfl, by dsimp only; omega, ?_⟩
    rw [h.hitsOf_eq_zero hlive]
  | some counter =>
    obtain ⟨hcounter, hlt⟩ := liveCounter_eq_some.1 hlive
    obtain ⟨hcreated, hcounts⟩ := h.counts r.ip counter hcounter
    rw [counter_of_live hlive]
    exact ⟨hcreated.trans (time_le s r), hlt, congrArg (· + 1) hcounts⟩

theorem step (h : LimiterInv env s) (r : Request) : LimiterInv env (limiterStep env s r) := by
  cases hallowed : isAllowlisted env r.ip with
  | true =>
    rw [limiterStep_of_allowlisted hallowed]
    refine ⟨fun ip counter hcounter => ?_, fun hit hhit => ?_⟩
    · exact ⟨(h.counts ip counter hcounter).1.trans (time_le s r), (h.counts ip counter hcounter).2⟩
    · exact ⟨(h.hits hit hhit).1.trans (time_le s r), (h.hits hit hhit).2⟩
  | false =>
    obtain ⟨hcreated, hexpires, hcounts⟩ := h.counter (r := r)
    rw [limiterStep_of_counted hallowed]
    refine ⟨fun ip counter hcounter => ?_, fun hit hhit => ?_⟩
    · simp only [InsertionMap.get_set, Prod.mk.injEq, true_and] at hcounter
      split_ifs at hcounter with hip
      · obtain rfl := Option.some.inj hcounter
        refine ⟨hcreated, ?_⟩
        rw [hcounts, hip, LimiterState.hitsOf, LimiterState.hitsOf, List.countP_append,
          List.countP_singleton, if_pos (by simpa using hcreated)]
      · obtain ⟨hold, holdCounts⟩ := h.counts ip counter hcounter
        refine ⟨hold.trans (time_le s r), ?_⟩
        have hne : r.ip ≠ ip := fun heq => hip heq.symm
        rw [holdCounts, LimiterState.hitsOf, LimiterState.hitsOf, List.countP_append,
          List.countP_singleton, if_neg (by simp [hne]), Nat.add_zero]
    · -- a hit of the client of the request is before the end of the window of the request
      have hnow : hit.timeMs ≤ r.time s := by
        rcases List.mem_append.1 hhit with hhit | hhit
        · exact (h.hits hit hhit).1.trans (time_le s r)
        · rw [List.mem_singleton.1 hhit]
      refine ⟨hnow, ?_⟩
      simp only [InsertionMap.get_set, Prod.mk.injEq, true_and]
      split_ifs with hip
      · exact ⟨_, rfl, hnow.trans_lt hexpires⟩
      · rcases List.mem_append.1 hhit with hhit | hhit
        · exact (h.hits hit hhit).2
        · exact absurd (congrArg Hit.ip (List.mem_singleton.1 hhit)) hip

end LimiterInv

/-! ### Independence -/

/-- The requests through the limiter of a request, after it. -/
theorem hitsThrough_limiterStep (hallowed : isAllowlisted env r.ip = false)
    (hsince : since ≤ r.time s) :
    (limiterStep env s r).hitsThrough r.limiter r.ip since =
      s.hitsThrough r.limiter r.ip since + 1 := by
  rw [limiterStep_of_counted hallowed, LimiterState.hitsThrough, LimiterState.hitsThrough,
    List.countP_append, List.countP_singleton, if_pos (by simpa using hsince)]

/-- A limiter is independent of the others at a request if and only if they leave it room. -/
theorem independent_iff (h : LimiterInv env s) : Independent env s r ↔ RoomLeft env s r := by
  unfold Independent RoomLeft
  rw [isSome_handle_iff]
  cases hallowed : isAllowlisted env r.ip with
  | true => simp
  | false =>
    obtain ⟨hcreated, -, hcounts⟩ := h.counter (r := r)
    have hget : (limiterStep env s r).counters.get (env.keyPrefix, r.ip) =
        some (r.counter env s) := by
      rw [limiterStep_of_counted hallowed, InsertionMap.get_set, if_pos rfl]
    simp only [hget, Option.mem_some_iff, forall_eq', true_and, forall_const, hcounts,
      hitsThrough_limiterStep hallowed hcreated]
    cases hlive : liveCounter s.counters env.keyPrefix r.ip (r.time s) with
    | none =>
      have hmax : 0 < r.limiter.limiter.max := by cases r.limiter <;> decide
      have hzero := h.hitsOf_eq_zero hlive
      rw [counter_of_none hlive, hzero]
      exact iff_of_true (fun hlt => by omega) (by simp)
    | some counter =>
      rw [counter_of_live hlive]
      simp only [Option.mem_some_iff, forall_eq']
      omega

/-- **Limiters.** Along a run of requests of any clients, a limiter answers 429 only for too many
requests of the client through this limiter in its window if and only if at every request of the
run the other limiters leave it room. -/
theorem rate_limiters_independent_iff (env : Env) (rs : List Request) :
    Along (limiterStep env) (Independent env) .initial rs ↔
      Along (limiterStep env) (RoomLeft env) .initial rs :=
  along_iff_of_invariant (LimiterInv env) (fun _ _ h => independent_iff h)
    (fun _ r h _ => h.step r) .initial

/-- One request to a public endpoint, and one for an export. -/
def sampleRequests : List Request :=
  [⟨.publicLimiter, "10.0.0.1", 0⟩, ⟨.exportLimiter, "10.0.0.1", 1⟩]

/-- The export is refused though it is the first one. -/
theorem not_rate_limiters_independent :
    (handle ⟨none, []⟩ (after (limiterStep ⟨none, []⟩) .initial (sampleRequests.take 1))
        ⟨.exportLimiter, "10.0.0.1", 1⟩).2 = some (make429 60000) ∧
      ¬ Along (limiterStep ⟨none, []⟩) (Independent ⟨none, []⟩) .initial sampleRequests := by
  refine ⟨by decide, fun h => ?_⟩
  have hsecond := h.2.1 (by decide) ⟨2, 0, 60000⟩ (by decide)
  exact absurd hsecond (by decide)

end SorobanPay.RateLimiter
