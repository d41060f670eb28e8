import SorobanPay.Backend.CircuitBreaker
import SorobanPay.Foundation.InsertionMap

/-!
# The two layers of the cache

`cacheSet` and `cacheDel` write to Redis and to a map in memory, and `cacheGet` prefers what it
finds in Redis. A command that fails, or that the circuit breaker does not let through, changes
nothing in Redis, and nobody is told; once Redis answers again it may answer with a value that has
been replaced or removed. `fresh_iff` says when `cacheGet` returns no such value. The map in memory
alone never does.

Commands do not overlap, and one that fails has no effect. Redis loses entries when they expire, and
may lose them at any time.

## Main definitions

* `Entry`, `InMemoryFallbackCache`, `RedisStore`: the layers.
* `cacheGet`, `cacheSet`, `cacheDel`: the operations.
* `Notes`: the last value of each key, and whether the last write of the key has reached Redis.
* `Fresh`: `cacheGet` returns the last value or none.
* `ReachedIfRead`: Redis does not answer with an entry whose last write it has missed.

## Main results

* `CacheSound.step`: the map in memory only holds last values, and Redis does for the keys whose
  last write has reached it.
* `fresh_iff`: when `cacheGet` returns the last value or none.
-/

set_option autoImplicit false

namespace SorobanPay.Redis

open Foundation

/-! ### The layers -/

/-- A value and when it expires. -/
structure Entry where
  value : String
  expiresAt : ℕ
  deriving DecidableEq, Repr

/-- The largest number of entries in memory. -/
def maxEntries : ℕ := 1000

/-- The map in memory. -/
abbrev InMemoryFallbackCache : Type := InsertionMap String Entry

namespace InMemoryFallbackCache

/-- The oldest entry is given up when there are many. -/
def evict (m : InMemoryFallbackCache) : InMemoryFallbackCache :=
  if maxEntries ≤ m.entries.length then (m.entries.head?).elim m fun entry => m.erase entry.1 else m

def set (m : InMemoryFallbackCache) (key value : String) (ttlSeconds now : ℕ) :
    InMemoryFallbackCache :=
  InsertionMap.set m.evict key ⟨value, now + ttlSeconds * 1000⟩

/-- An entry that has expired is removed. -/
def get (m : InMemoryFallbackCache) (key : String) (now : ℕ) :
    InMemoryFallbackCache × Option String :=
  match InsertionMap.get m key with
  | none => (m, none)
  | some entry => if entry.expiresAt < now then (m.erase key, none) else (m, some entry.value)

end InMemoryFallbackCache

/-- What Redis holds. -/
abbrev RedisStore : Type := InsertionMap String Entry

namespace RedisStore

def get (redis : RedisStore) (key : String) (now : ℕ) : Option String :=
  ((InsertionMap.get redis key).filter fun entry => now < entry.expiresAt).map Entry.value

def set (redis : RedisStore) (key value : String) (ex now : ℕ) : RedisStore :=
  InsertionMap.set redis key ⟨value, now + ex * 1000⟩

end RedisStore

/-! ### The operations -/

/-- How a command ends, and how long it takes. -/
structure CommandEnd where
  error : Option String := none
  elapsed : ℕ := 0
  deriving DecidableEq, Repr

/-- The client, the layers and the clock. -/
structure CacheState where
  breaker : CircuitBreaker
  keyPrefix : String
  redis : RedisStore
  fallbackCache : InMemoryFallbackCache
  now : ℕ

/-- The key in Redis. -/
def CacheState.ns (s : CacheState) (key : String) : String := s.keyPrefix ++ ":" ++ key

/-- The command is sent, and does not fail. -/
def CacheState.Executes (s : CacheState) (command : CommandEnd) : Prop :=
  (s.breaker.allowCall s.now).2 = true ∧ command.error = none

instance (s : CacheState) (command : CommandEnd) : Decidable (s.Executes command) :=
  inferInstanceAs (Decidable (_ ∧ _))

/-- A command, sent by `withFallback`. -/
def CacheState.send {T : Type} (s : CacheState) (command : CommandEnd)
    (f : RedisStore → ℕ → RedisStore × T) (fallback : T) : CacheState × T :=
  let result : Except String (RedisStore × T) :=
    match command.error with
    | none => .ok (f s.redis (s.now + command.elapsed))
    | some msg => .error msg
  let ended := withFallback s.breaker s.now command.elapsed result (s.redis, fallback)
  ({ s with breaker := ended.1, redis := ended.2.1, now := s.now + command.elapsed }, ended.2.2)

def cacheGet (s : CacheState) (key : String) (command : CommandEnd) : CacheState × Option String :=
  let sent := s.send command (fun redis now => (redis, redis.get (s.ns key) now)) none
  match sent.2 with
  | some value => (sent.1, some value)
  | none =>
    let found := sent.1.fallbackCache.get key sent.1.now
    ({ sent.1 with fallbackCache := found.1 }, found.2)

def cacheSet (s : CacheState) (key value : String) (ttlSeconds : ℕ) (command : CommandEnd) :
    CacheState :=
  let sent := s.send command (fun redis now => (redis.set (s.ns key) value ttlSeconds now, ())) ()
  { sent.1 with fallbackCache := sent.1.fallbackCache.set key value ttlSeconds sent.1.now }

def cacheDel (s : CacheState) (key : String) (command : CommandEnd) : CacheState :=
  let sent := s.send command (fun redis _ => (redis.erase (s.ns key), ())) ()
  { sent.1 with fallbackCache := sent.1.fallbackCache.erase key }

/-! ### Runs -/

/-- What is noted of the writes so far: the last value of each key, if it has not been removed, and
whether the last write of the key has reached Redis. -/
structure Notes where
  latest : String → Option String := fun _ => none
  reached : String → Bool := fun _ => true

/-- A write of a key is noted. -/
def Notes.write (notes : Notes) (key : String) (value : Option String) (reached : Bool) :
    Notes where
  latest := Function.update notes.latest key value
  reached := Function.update notes.reached key reached

/-- The cache, and the notes. -/
structure NotedCache where
  cache : CacheState
  notes : Notes

/-- What can happen next: one of the operations, a loss in Redis, or time passes. -/
inductive CacheInput
  | cacheGet (key : String) (command : CommandEnd)
  | cacheSet (key value : String) (ttlSeconds : ℕ) (command : CommandEnd)
  | cacheDel (key : String) (command : CommandEnd)
  | lose (redisKey : String)
  | elapse (ms : ℕ)

def cacheStep (s : NotedCache) : CacheInput → NotedCache
  | .cacheGet key command => { s with cache := (cacheGet s.cache key command).1 }
  | .cacheSet key value ttlSeconds command =>
    { cache := cacheSet s.cache key value ttlSeconds command
      notes := s.notes.write key (some value) (s.cache.Executes command) }
  | .cacheDel key command =>
    { cache := cacheDel s.cache key command
      notes := s.notes.write key none (s.cache.Executes command) }
  | .lose redisKey =>
    { s with cache := { s.cache with redis := s.cache.redis.erase redisKey } }
  | .elapse ms => { s with cache := { s.cache with now := s.cache.now + ms } }

/-- Nothing has been written. -/
def NotedCache.empty (breaker : CircuitBreaker) (keyPrefix : String) (now : ℕ) : NotedCache where
  cache := ⟨breaker, keyPrefix, .empty, .empty, now⟩
  notes := {}

/-- What `cacheGet` returns is the last value of the key. -/
def Fresh (s : NotedCache) (input : CacheInput) : Prop :=
  ∀ key command, input = .cacheGet key command →
    ∀ value ∈ (cacheGet s.cache key command).2, s.notes.latest key = some value

/-- If Redis answers `cacheGet` with a value, then it has seen the last write of the key, or the
value that has been written is the same. -/
def ReachedIfRead (s : NotedCache) (input : CacheInput) : Prop :=
  ∀ key command, input = .cacheGet key command → s.cache.Executes command →
    ∀ value ∈ s.cache.redis.get (s.cache.ns key) (s.cache.now + command.elapsed),
      s.notes.reached key = true ∨ s.notes.latest key = some value

/-! ### What the operations do -/

variable {s : CacheState} {noted : NotedCache} {command : CommandEnd} {key key' value : String}
  {now ttlSeconds : ℕ} {m : InMemoryFallbackCache} {entry : Entry}

/-- Keys are told apart in Redis. -/
theorem CacheState.ns_injective (s : CacheState) : Function.Injective s.ns :=
  fun _ _ h => (String.append_right_inj _).1 h

section Send

variable {T : Type} {f : RedisStore → ℕ → RedisStore × T} {fallback : T}

theorem send_of_executes (h : s.Executes command) :
    (s.send command f fallback).1.redis = (f s.redis (s.now + command.elapsed)).1 ∧
      (s.send command f fallback).2 = (f s.redis (s.now + command.elapsed)).2 := by
  simp only [CacheState.send, withFallback, h.1, h.2, if_true, and_self]

theorem send_of_not_executes (h : ¬ s.Executes command) :
    (s.send command f fallback).1.redis = s.redis ∧
      (s.send command f fallback).2 = fallback := by
  unfold CacheState.send withFallback
  by_cases hasked : (s.breaker.allowCall s.now).2 = true
  · obtain ⟨msg, hmsg⟩ := Option.ne_none_iff_exists'.1 fun hnone => h ⟨hasked, hnone⟩
    simp only [hasked, hmsg, if_true, and_self]
  · simp only [hasked, Bool.false_eq_true, if_false, and_self]

end Send

namespace InMemoryFallbackCache

theorem of_get_erase (h : InsertionMap.get (m.erase key') key = some entry) :
    InsertionMap.get m key = some entry := by
  rw [InsertionMap.get_erase] at h
  split_ifs at h
  exact h

/-- Nothing is found that was not there. -/
theorem of_get_evict (h : InsertionMap.get m.evict key = some entry) :
    InsertionMap.get m key = some entry := by
  unfold evict at h
  split_ifs at h
  · cases hhead : m.entries.head? with
    | none => rwa [hhead] at h
    | some oldest =>
      rw [hhead] at h
      exact of_get_erase h
  · exact h

theorem get_set (h : InsertionMap.get (m.set key' value ttlSeconds now) key = some entry) :
    key = key' ∧ entry.value = value ∨ key ≠ key' ∧ InsertionMap.get m key = some entry := by
  unfold set at h
  rw [InsertionMap.get_set] at h
  split_ifs at h with hkey
  · obtain rfl := Option.some.inj h
    exact .inl ⟨hkey, rfl⟩
  · exact .inr ⟨hkey, of_get_evict h⟩

/-- What is read is there, and what is there afterwards was there before. -/
theorem get_cases (m : InMemoryFallbackCache) (key : String) (now : ℕ) :
    (∀ value ∈ (m.get key now).2, ∃ entry, InsertionMap.get m key = some entry ∧
        entry.value = value) ∧
      ∀ key' entry, InsertionMap.get (m.get key now).1 key' = some entry →
        InsertionMap.get m key' = some entry := by
  unfold get
  cases hget : InsertionMap.get m key with
  | none => exact ⟨fun _ hvalue => absurd hvalue (Option.not_mem_none _), fun _ _ h => h⟩
  | some entry =>
    dsimp only
    split_ifs
    · exact ⟨fun _ hvalue => absurd hvalue (Option.not_mem_none _), fun _ _ h => of_get_erase h⟩
    · exact ⟨fun value hvalue => ⟨entry, rfl, Option.some.inj hvalue⟩, fun _ _ h => h⟩

end InMemoryFallbackCache

/-! ### What `cacheGet` does -/

/-- The command of `cacheGet` finds a value in Redis, or none. -/
def CacheState.found (s : CacheState) (key : String) (command : CommandEnd) : Option String :=
  if s.Executes command then s.redis.get (s.ns key) (s.now + command.elapsed) else none

theorem CacheState.get_of_found (h : s.found key command = some value) :
    s.redis.get (s.ns key) (s.now + command.elapsed) = some value := by
  unfold CacheState.found at h
  split_ifs at h
  exact h

/-- The command of `cacheGet` reads, and does nothing else. -/
theorem send_get (s : CacheState) (key : String) (command : CommandEnd) :
    (s.send command (fun redis now => (redis, redis.get (s.ns key) now)) none).1.redis = s.redis ∧
      (s.send command (fun redis now => (redis, redis.get (s.ns key) now)) none).2 =
        s.found key command := by
  unfold CacheState.found
  by_cases h : s.Executes command
  · rw [if_pos h]
    exact send_of_executes h
  · rw [if_neg h]
    exact send_of_not_executes h

/-- `cacheGet` returns what it finds in Redis, and looks into the map in memory otherwise. -/
theorem cacheGet_of_found (h : s.found key command = some value) :
    (cacheGet s key command).2 = some value ∧
      (cacheGet s key command).1.fallbackCache = s.fallbackCache := by
  have hresult := (send_get s key command).2
  rw [h] at hresult
  unfold cacheGet
  simp only [hresult]
  exact ⟨trivial, rfl⟩

theorem cacheGet_of_not_found (h : s.found key command = none) :
    (cacheGet s key command).2 = (s.fallbackCache.get key (s.now + command.elapsed)).2 ∧
      (cacheGet s key command).1.fallbackCache =
        (s.fallbackCache.get key (s.now + command.elapsed)).1 := by
  have hresult := (send_get s key command).2
  rw [h] at hresult
  unfold cacheGet
  simp only [hresult]
  exact ⟨rfl, rfl⟩

/-- `cacheGet` leaves Redis alone. -/
theorem cacheGet_redis (s : CacheState) (key : String) (command : CommandEnd) :
    (cacheGet s key command).1.redis = s.redis ∧
      (cacheGet s key command).1.keyPrefix = s.keyPrefix := by
  have hredis := (send_get s key command).1
  unfold cacheGet
  dsimp only
  split
  · exact ⟨hredis, rfl⟩
  · exact ⟨hredis, rfl⟩

/-- `cacheGet` adds nothing to the map in memory. -/
theorem of_get_cacheGet
    (h : InsertionMap.get (cacheGet s key command).1.fallbackCache key' = some entry) :
    InsertionMap.get s.fallbackCache key' = some entry := by
  cases hfound : s.found key command with
  | some value => rwa [(cacheGet_of_found hfound).2] at h
  | none =>
    rw [(cacheGet_of_not_found hfound).2] at h
    exact (s.fallbackCache.get_cases key _).2 key' entry h

theorem redis_cacheSet (s : CacheState) (key value : String) (ttlSeconds : ℕ)
    (command : CommandEnd) :
    (cacheSet s key value ttlSeconds command).redis =
      if s.Executes command then
        s.redis.set (s.ns key) value ttlSeconds (s.now + command.elapsed)
      else s.redis := by
  unfold cacheSet
  dsimp only
  split_ifs with h
  · exact (send_of_executes h).1
  · exact (send_of_not_executes h).1

theorem redis_cacheDel (s : CacheState) (key : String) (command : CommandEnd) :
    (cacheDel s key command).redis =
      if s.Executes command then s.redis.erase (s.ns key) else s.redis := by
  unfold cacheDel
  dsimp only
  split_ifs with h
  · exact (send_of_executes h).1
  · exact (send_of_not_executes h).1

/-- What Redis holds after `cacheSet` is the new entry, or one that was there and has not been
replaced. -/
theorem of_get_cacheSet
    (h : InsertionMap.get (cacheSet s key value ttlSeconds command).redis (s.ns key') =
      some entry) :
    key' = key ∧ entry.value = value ∨
      (key' = key → ¬ s.Executes command) ∧ InsertionMap.get s.redis (s.ns key') = some entry := by
  rw [redis_cacheSet] at h
  split_ifs at h with hexecutes
  · rw [RedisStore.set, InsertionMap.get_set] at h
    split_ifs at h with hkey
    · obtain rfl := Option.some.inj h
      exact .inl ⟨s.ns_injective hkey, rfl⟩
    · exact .inr ⟨fun heq => absurd (congrArg s.ns heq) hkey, h⟩
  · exact .inr ⟨fun _ => hexecutes, h⟩

theorem of_get_cacheDel
    (h : InsertionMap.get (cacheDel s key command).redis (s.ns key') = some entry) :
    (key' = key → ¬ s.Executes command) ∧ InsertionMap.get s.redis (s.ns key') = some entry := by
  rw [redis_cacheDel] at h
  split_ifs at h with hexecutes
  · rw [InsertionMap.get_erase] at h
    split_ifs at h with hkey
    exact ⟨fun heq => absurd (congrArg s.ns heq) hkey, h⟩
  · exact ⟨fun _ => hexecutes, h⟩

/-! ### Invariants -/

/-- The map in memory holds last values only, and Redis does for the keys whose last write has
reached it. -/
structure CacheSound (noted : NotedCache) : Prop where
  redis : ∀ key entry, InsertionMap.get noted.cache.redis (noted.cache.ns key) = some entry →
    noted.notes.reached key = true → noted.notes.latest key = some entry.value
  fallback : ∀ key entry, InsertionMap.get noted.cache.fallbackCache key = some entry →
    noted.notes.latest key = some entry.value

theorem Notes.latest_write (notes : Notes) (key key' : String) (value : Option String)
    (reached : Bool) : (notes.write key value reached).latest key' =
      if key' = key then value else notes.latest key' :=
  Function.update_apply ..

theorem Notes.reached_write (notes : Notes) (key key' : String) (value : Option String)
    (reached : Bool) : (notes.write key value reached).reached key' =
      if key' = key then reached else notes.reached key' :=
  Function.update_apply ..

namespace CacheSound

theorem cacheGet (h : CacheSound noted) (key : String) (command : CommandEnd) :
    CacheSound (cacheStep noted (.cacheGet key command)) := by
  obtain ⟨hredis, hprefix⟩ := cacheGet_redis noted.cache key command
  refine ⟨fun key' entry hentry => ?_, fun key' entry hentry => ?_⟩
  · refine h.redis key' entry ?_
    rw [← hredis]
    unfold CacheState.ns at hentry ⊢
    rw [← hprefix]
    exact hentry
  · exact h.fallback key' entry (of_get_cacheGet hentry)

/-- A write of a key: each layer holds the new value of the key or an entry that was there, the map
in memory none of this key, and Redis only if the write has not reached it. -/
theorem write (h : CacheSound noted) {cache : CacheState} {value : Option String} {reached : Bool}
    (hredis : ∀ key' entry, InsertionMap.get cache.redis (cache.ns key') = some entry →
      key' = key ∧ some entry.value = value ∨
        (key' = key → reached = false) ∧
          InsertionMap.get noted.cache.redis (noted.cache.ns key') = some entry)
    (hfallback : ∀ key' entry, InsertionMap.get cache.fallbackCache key' = some entry →
      key' = key ∧ some entry.value = value ∨
        key' ≠ key ∧ InsertionMap.get noted.cache.fallbackCache key' = some entry) :
    CacheSound ⟨cache, noted.notes.write key value reached⟩ := by
  refine ⟨fun key' entry hentry hreached => ?_, fun key' entry hentry => ?_⟩
  · rw [Notes.reached_write] at hreached
    rw [Notes.latest_write]
    rcases hredis key' entry hentry with ⟨hkey, hvalue⟩ | ⟨hmissed, hold⟩
    · rw [if_pos hkey, hvalue]
    · by_cases hkey : key' = key
      · rw [if_pos hkey, hmissed hkey] at hreached
        exact absurd hreached Bool.false_ne_true
      · rw [if_neg hkey] at hreached ⊢
        exact h.redis key' entry hold hreached
  · rw [Notes.latest_write]
    rcases hfallback key' entry hentry with ⟨hkey, hvalue⟩ | ⟨hkey, hold⟩
    · rw [if_pos hkey, hvalue]
    · rw [if_neg hkey]
      exact h.fallback key' entry hold

theorem cacheSet (h : CacheSound noted) (key value : String) (ttlSeconds : ℕ)
    (command : CommandEnd) :
    CacheSound (cacheStep noted (.cacheSet key value ttlSeconds command)) := by
  refine h.write (fun key' entry hentry => ?_) fun key' entry hentry => ?_
  · refine (of_get_cacheSet hentry).imp (And.imp_right (congrArg some)) (And.imp_left ?_)
    exact fun hmissed hkey => decide_eq_false (hmissed hkey)
  · exact (InMemoryFallbackCache.get_set hentry).imp_left (And.imp_right (congrArg some))

theorem cacheDel (h : CacheSound noted) (key : String) (command : CommandEnd) :
    CacheSound (cacheStep noted (.cacheDel key command)) := by
  refine h.write (fun key' entry hentry => .inr ?_) fun key' entry hentry => .inr ?_
  · obtain ⟨hmissed, hold⟩ := of_get_cacheDel hentry
    exact ⟨fun hkey => decide_eq_false (hmissed hkey), hold⟩
  · have hentry : InsertionMap.get (noted.cache.fallbackCache.erase key) key' = some entry := hentry
    rw [InsertionMap.get_erase] at hentry
    split_ifs at hentry with hkey
    exact ⟨hkey, hentry⟩

theorem step (h : CacheSound noted) (input : CacheInput) : CacheSound (cacheStep noted input) := by
  cases input with
  | cacheGet key command => exact h.cacheGet key command
  | cacheSet key value ttlSeconds command => exact h.cacheSet key value ttlSeconds command
  | cacheDel key command => exact h.cacheDel key command
  | lose redisKey =>
    exact ⟨fun key entry hentry => h.redis key entry (InMemoryFallbackCache.of_get_erase hentry),
      h.fallback⟩
  | elapse ms => exact ⟨h.redis, h.fallback⟩

theorem empty (breaker : CircuitBreaker) (keyPrefix : String) (now : ℕ) :
    CacheSound (.empty breaker keyPrefix now) :=
  ⟨nofun, nofun⟩

end CacheSound

/-! ### When the cache is fresh -/

theorem RedisStore.of_get {redis : RedisStore} (h : redis.get key now = some value) :
    ∃ entry, InsertionMap.get redis key = some entry ∧ entry.value = value := by
  obtain ⟨entry, hentry, hvalue⟩ := Option.map_eq_some_iff.1 h
  exact ⟨entry, (Option.filter_eq_some_iff.1 hentry).1, hvalue⟩

/-- What the map in memory answers is the last value. -/
theorem CacheSound.fallback_fresh (h : CacheSound noted)
    (hvalue : value ∈ (noted.cache.fallbackCache.get key now).2) :
    noted.notes.latest key = some value := by
  obtain ⟨entry, hentry, rfl⟩ := (noted.cache.fallbackCache.get_cases key now).1 value hvalue
  exact h.fallback key entry hentry

theorem fresh_cacheGet (noted : NotedCache) (key : String) (command : CommandEnd) :
    Fresh noted (.cacheGet key command) ↔
      ∀ value ∈ (cacheGet noted.cache key command).2, noted.notes.latest key = some value :=
  ⟨fun h => h key command rfl, fun h _ _ hinput => by cases hinput; exact h⟩

theorem reachedIfRead_cacheGet (noted : NotedCache) (key : String) (command : CommandEnd) :
    ReachedIfRead noted (.cacheGet key command) ↔ ∀ value ∈ noted.cache.found key command,
      noted.notes.reached key = true ∨ noted.notes.latest key = some value := by
  unfold CacheState.found
  refine ⟨fun h value hvalue => ?_, fun h _ _ hinput hexecutes value hvalue => ?_⟩
  · split_ifs at hvalue with hexecutes
    · exact h key command rfl hexecutes value hvalue
    · exact absurd hvalue nofun
  · cases hinput
    exact h value (by rwa [if_pos hexecutes])

theorem fresh_cacheGet_iff (h : CacheSound noted) (key : String) (command : CommandEnd) :
    Fresh noted (.cacheGet key command) ↔ ReachedIfRead noted (.cacheGet key command) := by
  rw [fresh_cacheGet, reachedIfRead_cacheGet]
  cases hfound : noted.cache.found key command with
  | none =>
    rw [(cacheGet_of_not_found hfound).1]
    exact iff_of_true (fun value hvalue => h.fallback_fresh hvalue) nofun
  | some value =>
    simp only [(cacheGet_of_found hfound).1, Option.mem_some_iff, forall_eq']
    refine ⟨.inr, fun hnoted => hnoted.elim (fun hreached => ?_) id⟩
    obtain ⟨entry, hentry, rfl⟩ := RedisStore.of_get (CacheState.get_of_found hfound)
    exact h.redis key entry hentry hreached

/-- **A fresh cache.** Whatever the commands do, `cacheGet` never returns a value that has been
replaced or removed exactly if, whenever its command finds a value in Redis, the last write of the
key has reached Redis, or was of the same value. -/
theorem fresh_iff (breaker : CircuitBreaker) (keyPrefix : String) (now : ℕ)
    (inputs : List CacheInput) :
    Along cacheStep Fresh (.empty breaker keyPrefix now) inputs ↔
      Along cacheStep ReachedIfRead (.empty breaker keyPrefix now) inputs := by
  refine along_iff_of_invariant CacheSound (fun noted input h => ?_) (fun noted input h _ =>
    h.step input) (.empty breaker keyPrefix now)
  cases input with
  | cacheGet key command => exact fresh_cacheGet_iff h key command
  | cacheSet | cacheDel | lose | elapse => exact iff_of_true nofun nofun

/-- The second `cacheSet` fails in Redis, or `cacheDel` does, and `cacheGet` returns the first
value. -/
theorem not_fresh :
    ¬ Along cacheStep Fresh (.empty {} "sorobanpay" 0)
        [.cacheSet "k" "v1" 300 {}, .cacheSet "k" "v2" 300 { error := some "ETIMEDOUT" },
          .cacheGet "k" {}] ∧
      ¬ Along cacheStep Fresh (.empty {} "sorobanpay" 0)
        [.cacheSet "k" "v1" 300 {}, .cacheDel "k" { error := some "ETIMEDOUT" },
          .cacheGet "k" {}] := by
  constructor
  · rintro ⟨-, -, hread, -⟩
    have hlatest := hread "k" {} rfl "v1" (by decide)
    exact absurd hlatest (by decide)
  · rintro ⟨-, -, hread, -⟩
    have hlatest := hread "k" {} rfl "v1" (by decide)
    exact absurd hlatest (by decide)

end SorobanPay.Redis
