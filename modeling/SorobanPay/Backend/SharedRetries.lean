import Mathlib.Data.List.Infix
import SorobanPay.Foundation.Interleaving
import SorobanPay.Foundation.Run

/-!
# Retries that are shared

`withRetry` of `lib/retry.ts` calls a function until it succeeds, until it fails in a way that is
not transient, or until it has been called `maxAttempts` times. Under an idempotency key the promise
of these attempts is kept in `_cache`, and later calls under the key are given the same promise.
When the attempts have failed, a reaction to their promise takes it out again; until this reaction
runs, other calls may still be given the promise that has failed.

So the attempts under one key never overlap, and once they have succeeded there are no more.

The function that is called does not call `withRetry` under its own key while it runs, and nobody
calls `clearRetryCache`.

## Main definitions

* `RetryOptions`, `isTransient`, `afterReply`: the loop of attempts.
* `Attempts`, `attemptsTurn`, `retryStep`: the calls of a process.
* `Ran`: what the replies of the function make of the attempts.

## Main results

* `Cached.step`: the promises of a key that may still succeed are those of `_cache`.
* `ran_step`: one reply after the other.
* `withRetry_shared`: the attempts of every run.
-/

set_option autoImplicit false

namespace SorobanPay.SharedRetries

open Foundation

/-- `RetryOptions`, with the defaults of `withRetry`. -/
structure RetryOptions where
  maxAttempts : ℕ := 4
  baseDelayMs : ℕ := 500
  maxDelayMs : ℕ := 10000
  idempotencyKey : Option String := none
  deriving DecidableEq, Repr

/-- The key, if there is one: an empty text is none. -/
def RetryOptions.key (opts : RetryOptions) : Option String :=
  opts.idempotencyKey.filter (· ≠ "")

/-- What a transient failure says of itself. -/
def transientTexts : List String :=
  ["timeout", "econnrefused", "econnreset", "network", "rate limit", "too many requests", "503",
    "502", "429"]

/-- `isTransient`, of the message in lower case. -/
def isTransient (msg : String) : Bool := transientTexts.any fun text => text.toList <:+: msg.toList

/-- Where the loop of attempts is: it waits for the function or for a timer, or it is over. -/
inductive Progress (Value Err : Type)
  | calling (i : ℕ)
  | sleeping (i : ℕ) (lastError : Err) (delay : ℕ)
  | resolved (value : Value)
  | rejected (attempts : ℕ) (lastError : Option Err)
  deriving DecidableEq, Repr

variable {Value Err : Type}

/-- The condition of the loop. A `RetryExhaustedError` says that there were `maxAttempts`. -/
def enter (opts : RetryOptions) (i : ℕ) (lastError : Option Err) : Progress Value Err :=
  if i < opts.maxAttempts then .calling i else .rejected opts.maxAttempts lastError

/-- What is made of a reply of the function; `message` is the text of an error in lower case. -/
def afterReply (message : Err → String) (opts : RetryOptions) (i : ℕ) :
    Except Err Value → Progress Value Err
  | .ok value => .resolved value
  | .error err =>
    if ¬ isTransient (message err) ∨ i + 1 = opts.maxAttempts then
      .rejected opts.maxAttempts (some err)
    else .sleeping i err (min (opts.baseDelayMs * 2 ^ i) opts.maxDelayMs)

/-- The attempts of a call, and whether the reaction to their failure has run. -/
structure Attempts (Value Err : Type) where
  options : RetryOptions
  progress : Progress Value Err
  reacted : Bool
  deriving DecidableEq, Repr

/-- `_cache`, with the attempts whose promise it holds, and for each call its key and the attempts
whose promise it has been given. -/
structure RetryCache where
  cache : String → Option ℕ
  promises : List (Option String × ℕ)

/-- The function replies, a timer fires, or the reaction to a failure runs. -/
inductive AttemptEvent (Value Err : Type)
  | reply (result : Except Err Value)
  | wake
  | react

/-- A turn of some attempts. -/
def attemptsTurn (message : Err → String) (s : RetryCache) (a : Attempts Value Err) :
    AttemptEvent Value Err → RetryCache × Attempts Value Err
  | .reply result =>
    match a.progress with
    | .calling i => (s, { a with progress := afterReply message a.options i result })
    | _ => (s, a)
  | .wake =>
    match a.progress with
    | .sleeping i err _ => (s, { a with progress := enter a.options (i + 1) (some err) })
    | _ => (s, a)
  | .react =>
    match a.progress, a.reacted, a.options.key with
    | .rejected _ _, false, some key =>
      ({ s with cache := Function.update s.cache key none }, { a with reacted := true })
    | _, _, _ => (s, a)

inductive RetryAct (Value Err : Type)
  | withRetry (opts : RetryOptions)
  | turn (i : ℕ) (event : AttemptEvent Value Err)

abbrev RetryPool (Value Err : Type) : Type := Pool RetryCache (Attempts Value Err)

/-- A call of `withRetry`, or a turn. -/
def retryStep (message : Err → String) (p : RetryPool Value Err) :
    RetryAct Value Err → RetryPool Value Err
  | .withRetry opts =>
    match opts.key.bind p.shared.cache with
    | some i => p.act fun s => { s with promises := s.promises ++ [(opts.key, i)] }
    | none =>
      let i := p.calls.length
      (p.act fun s =>
        { cache := (opts.key).elim s.cache fun key => Function.update s.cache key (some i)
          promises := s.promises ++ [(opts.key, i)] }).start ⟨opts, enter opts 0 none, false⟩
  | .turn i event => p.resume (attemptsTurn message) i event

/-- No call has been made. -/
def noRetries (Value Err : Type) : RetryPool Value Err := .idle ⟨fun _ => none, []⟩

/-- The reply, if the attempts have waited for it. -/
def heard : AttemptEvent Value Err → Progress Value Err → List (Except Err Value)
  | .reply result, .calling _ => [result]
  | _, _ => []

/-- The replies that attempts have waited for, with the attempts. -/
def replied (p : RetryPool Value Err) : RetryAct Value Err → List (ℕ × Except Err Value)
  | .withRetry _ => []
  | .turn i event => ((p.calls[i]?).elim [] fun a => heard event a.progress).map (Prod.mk i)

/-! ### One promise for a key -/

def Progress.Rejected : Progress Value Err → Prop
  | .rejected _ _ => True
  | _ => False

/-- The promises that may still be kept are those in `_cache`, every promise has been given under
its own key, and only the last attempts of a key may still succeed. -/
structure Cached (p : RetryPool Value Err) : Prop where
  live : ∀ (i : ℕ) (a : Attempts Value Err) key, p.calls[i]? = some a → a.options.key = some key →
    a.reacted = false → p.shared.cache key = some i
  found : ∀ key i, p.shared.cache key = some i → ∃ a, p.calls[i]? = some a ∧
    a.options.key = some key ∧ a.reacted = false
  ended : ∀ (i : ℕ) (a : Attempts Value Err), p.calls[i]? = some a → a.reacted = true →
    a.progress.Rejected
  given : ∀ key i, (key, i) ∈ p.shared.promises → ∃ a, p.calls[i]? = some a ∧ a.options.key = key
  earlier : ∀ (i j : ℕ) (a b : Attempts Value Err) key, i < j → p.calls[i]? = some a →
    p.calls[j]? = some b → a.options.key = some key → b.options.key = some key → a.reacted = true

variable {message : Err → String} {p : RetryPool Value Err}

theorem cached_noRetries : Cached (noRetries Value Err) := by
  refine ⟨fun i a key h => ?_, nofun, fun i a h => ?_, fun key i h => ?_,
    fun i j a b key _ h => ?_⟩ <;>
    simp [noRetries, Pool.idle] at h

/-- What a turn can do: nothing, go on with attempts that are not over, or react to a failure. -/
theorem attemptsTurn_cases (message : Err → String) (s : RetryCache) (a : Attempts Value Err)
    (event : AttemptEvent Value Err) :
    attemptsTurn message s a event = (s, a) ∨
      (¬ a.progress.Rejected ∧ (∀ value, a.progress ≠ .resolved value) ∧
        ∃ progress, attemptsTurn message s a event = (s, { a with progress := progress })) ∨
      (a.progress.Rejected ∧ a.reacted = false ∧ ∃ key, a.options.key = some key ∧
        attemptsTurn message s a event =
          ({ s with cache := Function.update s.cache key none }, { a with reacted := true })) := by
  obtain ⟨options, progress, reacted⟩ := a
  cases event with
  | reply result =>
    cases progress with
    | calling i => exact .inr (.inl ⟨nofun, nofun, _, rfl⟩)
    | _ => exact .inl rfl
  | wake =>
    cases progress with
    | sleeping i err delay => exact .inr (.inl ⟨nofun, nofun, _, rfl⟩)
    | _ => exact .inl rfl
  | react =>
    cases progress with
    | rejected attempts lastError =>
      cases reacted with
      | true => exact .inl rfl
      | false =>
        cases hkey : options.key with
        | none => exact .inl (by simp [attemptsTurn, hkey])
        | some key => exact .inr (.inr ⟨trivial, rfl, key, rfl, by simp [attemptsTurn, hkey]⟩)
    | _ => exact .inl rfl

/-- Attempts stay those of the options that they have been started with. -/
theorem options_attemptsTurn {s : RetryCache} {a : Attempts Value Err}
    {event : AttemptEvent Value Err} :
    (attemptsTurn message s a event).2.options = a.options := by
  rcases attemptsTurn_cases message s a event with h | ⟨-, -, progress, h⟩ | ⟨-, -, key, -, h⟩ <;>
    rw [h]

theorem promises_attemptsTurn {s : RetryCache} {a : Attempts Value Err}
    {event : AttemptEvent Value Err} :
    (attemptsTurn message s a event).1.promises = s.promises := by
  rcases attemptsTurn_cases message s a event with h | ⟨-, -, progress, h⟩ | ⟨-, -, key, -, h⟩ <;>
    rw [h]

namespace Cached

variable {i : ℕ} {a : Attempts Value Err}

/-- What is given stays given when attempts take a turn. -/
theorem given_set (h : Cached p) (ha : p.calls[i]? = some a) (b : Attempts Value Err)
    (hb : b.options = a.options) {key : Option String} {j : ℕ}
    (hmem : (key, j) ∈ p.shared.promises) :
    ∃ c, (p.calls.set i b)[j]? = some c ∧ c.options.key = key := by
  obtain ⟨c, hc, hkey⟩ := h.given key j hmem
  by_cases hij : i = j
  · subst hij
    obtain rfl := Option.some.inj (ha.symm.trans hc)
    exact ⟨b, List.getElem?_set_self (List.getElem?_eq_some_iff.1 ha).1, hb ▸ hkey⟩
  · exact ⟨c, (List.getElem?_set_ne hij).trans hc, hkey⟩

/-- Attempts that are not over go on. -/
theorem progress (h : Cached p) (ha : p.calls[i]? = some a) (hopen : ¬ a.progress.Rejected)
    (progress : Progress Value Err) :
    Cached ⟨p.shared, p.calls.set i { a with progress := progress }⟩ := by
  have hlive : a.reacted = false := by
    by_contra hreacted
    exact hopen (h.ended i a ha (Bool.eq_true_of_not_eq_false hreacted))
  refine ⟨fun j b key hb hkey hreacted => ?_, fun key j hj => ?_, fun j b hb hreacted => ?_,
    fun key j hmem => h.given_set ha { a with progress } rfl hmem,
    fun j k b c key hlt hb hc hkey hkey' => ?_⟩
  · rcases Pool.getElem?_set hb with ⟨rfl, rfl⟩ | ⟨-, hb⟩
    · exact h.live j a key ha hkey hlive
    · exact h.live j b key hb hkey hreacted
  · obtain ⟨b, hb, hkey, hreacted⟩ := h.found key j hj
    by_cases hij : i = j
    · subst hij
      obtain rfl := Option.some.inj (ha.symm.trans hb)
      exact ⟨_, List.getElem?_set_self (List.getElem?_eq_some_iff.1 ha).1, hkey, hlive⟩
    · exact ⟨b, (List.getElem?_set_ne hij).trans hb, hkey, hreacted⟩
  · rcases Pool.getElem?_set hb with ⟨rfl, rfl⟩ | ⟨-, hb⟩
    · exact absurd (hlive.symm.trans hreacted) (by decide)
    · exact h.ended j b hb hreacted
  · rcases Pool.getElem?_set hb with ⟨rfl, rfl⟩ | ⟨-, hb'⟩ <;>
      rcases Pool.getElem?_set hc with ⟨rfl, rfl⟩ | ⟨-, hc'⟩
    · exact absurd hlt (lt_irrefl _)
    · exact h.earlier j k a c key hlt ha hc' hkey hkey'
    · exact h.earlier j k b a key hlt hb' ha hkey hkey'
    · exact h.earlier j k b c key hlt hb' hc' hkey hkey'

/-- The reaction to a failure takes the promise out. -/
theorem react (h : Cached p) (ha : p.calls[i]? = some a) (hover : a.progress.Rejected)
    (hlive : a.reacted = false) {key : String} (hkey : a.options.key = some key) :
    Cached ⟨{ p.shared with cache := Function.update p.shared.cache key none },
      p.calls.set i { a with reacted := true }⟩ := by
  have hheld := h.live i a key ha hkey hlive
  refine ⟨fun j b key' hb hkey' hreacted => ?_, fun key' j hj => ?_, fun j b hb hreacted => ?_,
    fun key' j hmem => h.given_set ha { a with reacted := true } rfl hmem,
    fun j k b c key' hlt hb hc hkey' hkey'' => ?_⟩
  · rcases Pool.getElem?_set hb with ⟨rfl, rfl⟩ | ⟨hji, hb⟩
    · cases hreacted
    · have hheld' := h.live j b key' hb hkey' hreacted
      have hne : key' ≠ key := by
        rintro rfl
        exact hji (Option.some.inj (hheld'.symm.trans hheld))
      exact (Function.update_of_ne hne none p.shared.cache).trans hheld'
  · have hne : key' ≠ key := by
      rintro rfl
      simp at hj
    obtain ⟨b, hb, hkey', hreacted⟩ := h.found key' j
      ((Function.update_of_ne hne none p.shared.cache).symm.trans hj)
    have hij : i ≠ j := by
      rintro rfl
      obtain rfl := Option.some.inj (ha.symm.trans hb)
      exact hne (Option.some.inj (hkey'.symm.trans hkey))
    exact ⟨b, (List.getElem?_set_ne hij).trans hb, hkey', hreacted⟩
  · rcases Pool.getElem?_set hb with ⟨rfl, rfl⟩ | ⟨-, hb⟩
    · exact hover
    · exact h.ended j b hb hreacted
  · rcases Pool.getElem?_set hb with ⟨rfl, rfl⟩ | ⟨-, hb'⟩
    · rfl
    · rcases Pool.getElem?_set hc with ⟨rfl, rfl⟩ | ⟨-, hc'⟩
      · exact h.earlier j k b a key' hlt hb' ha hkey' hkey''
      · exact h.earlier j k b c key' hlt hb' hc' hkey' hkey''

/-- A call under a key whose promise is kept is given this promise. -/
theorem join (h : Cached p) {opts : RetryOptions}
    (hi : opts.key.bind p.shared.cache = some i) :
    Cached (p.act fun s => { s with promises := s.promises ++ [(opts.key, i)] }) := by
  refine ⟨h.live, h.found, h.ended, fun key j hmem => ?_, h.earlier⟩
  rcases List.mem_append.1 hmem with hmem | hmem
  · exact h.given key j hmem
  · obtain ⟨rfl, rfl⟩ := Prod.mk.inj (List.mem_singleton.1 hmem)
    obtain ⟨key, hkey, hcache⟩ := Option.bind_eq_some_iff.1 hi
    obtain ⟨b, hb, hkey', -⟩ := h.found key j hcache
    exact ⟨b, hb, hkey'.trans hkey.symm⟩

/-- A call under a key without a promise, or without a key, starts attempts. -/
theorem fresh (h : Cached p) {opts : RetryOptions} (hnone : opts.key.bind p.shared.cache = none)
    (progress : Progress Value Err) :
    Cached ((p.act fun s =>
      { cache := (opts.key).elim s.cache fun key =>
          Function.update s.cache key (some p.calls.length)
        promises := s.promises ++ [(opts.key, p.calls.length)] }).start
      ⟨opts, progress, false⟩) := by
  have hnew : ∀ a : Attempts Value Err, (p.calls ++ [a])[p.calls.length]? = some a :=
    fun a => List.getElem?_concat_length
  have hold : ∀ {j : ℕ} {b : Attempts Value Err} (a : Attempts Value Err),
      p.calls[j]? = some b → (p.calls ++ [a])[j]? = some b :=
    fun a hb => (List.getElem?_append_left (List.getElem?_eq_some_iff.1 hb).1).trans hb
  -- a key that is there has no promise yet
  have hcache : ∀ {key j}, p.shared.cache key = some j → opts.key ≠ some key := by
    rintro key j hj hkey
    rw [hkey, Option.bind_some, hj] at hnone
    cases hnone
  have hkept : ∀ {key j}, p.shared.cache key = some j →
      ((opts.key).elim p.shared.cache fun key' =>
        Function.update p.shared.cache key' (some p.calls.length)) key = some j := by
    intro key j hj
    cases hkey : opts.key with
    | none => exact hj
    | some key' =>
      have hne : key ≠ key' := by
        rintro rfl
        exact hcache hj hkey
      exact (Function.update_of_ne hne _ p.shared.cache).trans hj
  refine ⟨fun j b key hb hkey hreacted => ?_, fun key j hj => ?_, fun j b hb hreacted => ?_,
    fun key j hmem => ?_, fun j k b c key hlt hb hc hkey hkey' => ?_⟩
  · rcases Pool.getElem?_start hb with hb | ⟨rfl, rfl⟩
    · exact hkept (h.live j b key hb hkey hreacted)
    · have hkey : opts.key = some key := hkey
      simp [Pool.act, hkey]
  · by_cases hkey : opts.key = some key
    · have hj : j = p.calls.length := by simpa [Pool.act, hkey] using hj.symm
      exact ⟨_, hj ▸ hnew _, hkey, rfl⟩
    · have hj : p.shared.cache key = some j := by
        cases hopts : opts.key with
        | none => simpa [Pool.act, hopts] using hj
        | some key' =>
          have hne : key ≠ key' := fun heq => hkey (hopts.trans (congrArg some heq.symm))
          simpa [Pool.act, hopts, Function.update_of_ne hne] using hj
      obtain ⟨b, hb, hkey', hreacted⟩ := h.found key j hj
      exact ⟨b, hold _ hb, hkey', hreacted⟩
  · rcases Pool.getElem?_start hb with hb | ⟨rfl, rfl⟩
    · exact h.ended j b hb hreacted
    · cases hreacted
  · rcases List.mem_append.1 hmem with hmem | hmem
    · obtain ⟨b, hb, hkey⟩ := h.given key j hmem
      exact ⟨b, hold _ hb, hkey⟩
    · obtain ⟨rfl, rfl⟩ := Prod.mk.inj (List.mem_singleton.1 hmem)
      exact ⟨_, hnew _, rfl⟩
  · rcases Pool.getElem?_start hb with hb | ⟨rfl, rfl⟩ <;>
      rcases Pool.getElem?_start hc with hc | ⟨rfl, rfl⟩
    · exact h.earlier j k b c key hlt hb hc hkey hkey'
    · by_contra hlive
      exact hcache (h.live j b key hb hkey (Bool.eq_false_of_not_eq_true hlive)) hkey'
    · exact absurd hlt (List.getElem?_eq_some_iff.1 hc).1.not_gt
    · exact absurd hlt (lt_irrefl _)

theorem turn (h : Cached p) (i : ℕ) (event : AttemptEvent Value Err) :
    Cached (p.resume (attemptsTurn message) i event) := by
  cases ha : p.calls[i]? with
  | none =>
    rw [Pool.resume_of_none ha]
    exact h
  | some a =>
    rcases attemptsTurn_cases message p.shared a event with
      heq | ⟨hopen, -, progress, heq⟩ | ⟨hover, hlive, key, hkey, heq⟩
    · rw [Pool.resume_of_same ha heq]
      exact h
    · rw [Pool.resume_of_some ha, heq]
      exact h.progress ha hopen progress
    · rw [Pool.resume_of_some ha, heq]
      exact h.react ha hover hlive hkey

theorem step (h : Cached p) (act : RetryAct Value Err) : Cached (retryStep message p act) := by
  cases act with
  | withRetry opts =>
    cases hcached : opts.key.bind p.shared.cache with
    | none =>
      rw [retryStep, hcached]
      exact h.fresh hcached _
    | some i =>
      rw [retryStep, hcached]
      exact h.join hcached
  | turn i event => exact h.turn i event

end Cached

/-! ### One reply after the other -/

/-- What the replies of the function make of attempts: all but the last one were transient failures,
and a success, a failure that is not transient, or the last one that there may be, ends them. -/
def Ran (message : Err → String) (opts : RetryOptions) (results : List (Except Err Value))
    (progress : Progress Value Err) : Prop :=
  ∃ errs : List Err, (∀ err ∈ errs, isTransient (message err) = true) ∧
    match progress with
    | .calling i => results = errs.map .error ∧ errs.length = i ∧ i < opts.maxAttempts
    | .sleeping i err delay => results = errs.map .error ∧ errs.getLast? = some err ∧
        errs.length = i + 1 ∧ i + 1 < opts.maxAttempts ∧
        delay = min (opts.baseDelayMs * 2 ^ i) opts.maxDelayMs
    | .resolved value => results = errs.map .error ++ [.ok value] ∧ errs.length < opts.maxAttempts
    | .rejected attempts none => results = [] ∧ opts.maxAttempts = 0 ∧ attempts = 0
    | .rejected attempts (some err) => results = errs.map .error ++ [.error err] ∧
        attempts = opts.maxAttempts ∧ errs.length < opts.maxAttempts ∧
        (errs.length + 1 < opts.maxAttempts → isTransient (message err) = false)

/-- The replies to some attempts. -/
def repliesTo (i : ℕ) (log : List (ℕ × Except Err Value)) : List (Except Err Value) :=
  log.filterMap fun reply => if reply.1 = i then some reply.2 else none

theorem repliesTo_append (i : ℕ) (log log' : List (ℕ × Except Err Value)) :
    repliesTo i (log ++ log') = repliesTo i log ++ repliesTo i log' := List.filterMap_append

variable {opts : RetryOptions} {results : List (Except Err Value)} {i : ℕ}

theorem ran_enter : Ran message opts ([] : List (Except Err Value)) (enter opts 0 none) := by
  refine ⟨[], by simp, ?_⟩
  rw [enter]
  split_ifs with hpos
  · exact ⟨rfl, rfl, hpos⟩
  · exact ⟨rfl, by omega, by omega⟩

theorem Ran.reply (h : Ran message opts results (.calling i : Progress Value Err))
    (result : Except Err Value) :
    Ran message opts (results ++ [result]) (afterReply message opts i result) := by
  obtain ⟨errs, htransient, rfl, rfl, hlt⟩ := h
  cases result with
  | ok value => exact ⟨errs, htransient, rfl, hlt⟩
  | error err =>
    rw [afterReply]
    split_ifs with hstop
    · refine ⟨errs, htransient, rfl, rfl, hlt, fun hless => ?_⟩
      rcases hstop with hstop | hstop
      · exact Bool.eq_false_of_not_eq_true hstop
      · omega
    · rw [not_or, not_not] at hstop
      refine ⟨errs ++ [err], ?_, by simp, by simp, by simp, by omega, rfl⟩
      exact List.forall_mem_append.2 ⟨htransient, by simpa using hstop.1⟩

theorem Ran.wake {err : Err} {delay : ℕ}
    (h : Ran message opts results (.sleeping i err delay : Progress Value Err)) :
    Ran message opts results (enter opts (i + 1) (some err) : Progress Value Err) := by
  obtain ⟨errs, htransient, rfl, -, hlength, hlt, -⟩ := h
  refine ⟨errs, htransient, ?_⟩
  rw [enter, if_pos hlt]
  exact ⟨rfl, hlength, hlt⟩

/-- The attempts, and the replies to them so far. -/
def AllRan (message : Err → String) (t : RetryPool Value Err × List (ℕ × Except Err Value)) :
    Prop :=
  (∀ reply ∈ t.2, reply.1 < t.1.calls.length) ∧
    ∀ (i : ℕ) (a : Attempts Value Err), t.1.calls[i]? = some a →
      Ran message a.options (repliesTo i t.2) a.progress

/-- A turn makes of attempts what its reply does, if there is one. -/
theorem ran_turn {a : Attempts Value Err} (s : RetryCache) (event : AttemptEvent Value Err)
    (h : Ran message a.options results a.progress) :
    Ran message a.options (results ++ heard event a.progress)
      (attemptsTurn message s a event).2.progress := by
  obtain ⟨options, progress, reacted⟩ := a
  cases event with
  | reply result =>
    cases progress with
    | calling i => exact h.reply result
    | _ => simpa [heard, attemptsTurn] using h
  | wake =>
    cases progress with
    | sleeping i err delay => simpa [heard, attemptsTurn] using h.wake
    | _ => simpa [heard, attemptsTurn] using h
  | react =>
    have hsame : (attemptsTurn message s ⟨options, progress, reacted⟩ .react).2.progress =
        progress := by
      rw [attemptsTurn]
      split <;> rfl
    simpa [hsame, heard] using h

theorem repliesTo_map_mk (i j : ℕ) (results : List (Except Err Value)) :
    repliesTo i (results.map (Prod.mk j)) = if j = i then results else [] := by
  rw [repliesTo, List.filterMap_map]
  split_ifs with hji <;> simp [hji]

theorem AllRan.step {t : RetryPool Value Err × List (ℕ × Except Err Value)}
    (h : AllRan message t) (act : RetryAct Value Err) :
    AllRan message (logged (retryStep message) replied t act) := by
  obtain ⟨p, log⟩ := t
  obtain ⟨hknown, hran⟩ := h
  cases act with
  | withRetry opts =>
    have hlog : log ++ replied p (.withRetry opts) = log := List.append_nil _
    rw [logged, hlog]
    cases hcached : opts.key.bind p.shared.cache with
    | some i =>
      simp only [retryStep, hcached]
      exact ⟨hknown, hran⟩
    | none =>
      simp only [retryStep, hcached]
      refine ⟨fun reply hreply => ?_, fun i a ha => ?_⟩
      · have hlt : reply.1 < p.calls.length := hknown reply hreply
        simp only [Pool.start, Pool.act, List.length_append, List.length_singleton]
        omega
      · rcases Pool.getElem?_start ha with ha | ⟨rfl, rfl⟩
        · exact hran i a ha
        · have hnone : repliesTo p.calls.length log = [] := by
            refine List.filterMap_eq_nil_iff.2 fun reply hreply => if_neg ?_
            exact (hknown reply hreply).ne
          rw [show (p.act _).calls.length = p.calls.length from rfl, hnone]
          exact ran_enter
  | turn j event =>
    rw [logged, retryStep]
    cases ha : p.calls[j]? with
    | none =>
      rw [Pool.resume_of_none ha, replied, ha, Option.elim_none, List.map_nil, List.append_nil]
      exact ⟨hknown, hran⟩
    | some a =>
      rw [Pool.resume_of_some ha, replied, ha, Option.elim_some]
      have hlt := (List.getElem?_eq_some_iff.1 ha).1
      refine ⟨fun reply hreply => ?_, fun i b hb => ?_⟩
      · rw [List.length_set]
        rcases List.mem_append.1 hreply with hreply | hreply
        · exact hknown reply hreply
        · obtain ⟨result, -, rfl⟩ := List.mem_map.1 hreply
          exact hlt
      · rw [repliesTo_append, repliesTo_map_mk]
        rcases Pool.getElem?_set hb with ⟨rfl, rfl⟩ | ⟨hij, hb⟩
        · rw [if_pos rfl, options_attemptsTurn]
          exact ran_turn p.shared event (hran i a ha)
        · rw [if_neg (Ne.symm hij), List.append_nil]
          exact hran i b hb

/-! ### After a success -/

/-- Attempts under a key have succeeded, and their promise is the one that is given from the `n`-th
call on. -/
structure Succeeded (i : ℕ) (a : Attempts Value Err) (key : String) (n : ℕ)
    (p : RetryPool Value Err) : Prop where
  cached : Cached p
  there : p.calls[i]? = some a
  counted : n ≤ p.shared.promises.length
  shared : ∀ j, (some key, j) ∈ p.shared.promises.drop n → j = i

/-- A call under the key of attempts that have not failed is given their promise. -/
theorem Cached.retryStep_eq (h : Cached p) {a : Attempts Value Err} {key : String}
    (ha : p.calls[i]? = some a) (hkey : a.options.key = some key) (hopen : ¬ a.progress.Rejected)
    (hopts : opts.key = some key) :
    retryStep message p (.withRetry opts) =
      p.act fun s => { s with promises := s.promises ++ [(some key, i)] } := by
  have hlive : a.reacted = false := by
    by_contra hreacted
    exact hopen (h.ended i a ha (Bool.eq_true_of_not_eq_false hreacted))
  simp only [retryStep, hopts, Option.bind_some, h.live i a key ha hkey hlive]

variable (message) in
/-- A call is given one promise. -/
theorem promises_withRetry (p : RetryPool Value Err) (opts : RetryOptions) :
    ∃ j, (retryStep message p (.withRetry opts)).shared.promises =
      p.shared.promises ++ [(opts.key, j)] := by
  cases hcached : opts.key.bind p.shared.cache with
  | some j => exact ⟨j, by simp only [retryStep, hcached, Pool.act]⟩
  | none => exact ⟨p.calls.length, by simp only [retryStep, hcached, Pool.shared_start, Pool.act]⟩

theorem promises_turn {j : ℕ} {event : AttemptEvent Value Err} :
    (retryStep message p (.turn j event)).shared.promises = p.shared.promises := by
  rw [retryStep, Pool.shared_resume]
  cases p.calls[j]? with
  | none => rfl
  | some b => exact promises_attemptsTurn

variable (message) in
theorem exists_promises_append (p : RetryPool Value Err) (act : RetryAct Value Err) :
    ∃ given, (retryStep message p act).shared.promises = p.shared.promises ++ given := by
  cases act with
  | withRetry opts =>
    obtain ⟨j, hgiven⟩ := promises_withRetry message p opts
    exact ⟨_, hgiven⟩
  | turn j event => exact ⟨[], by rw [promises_turn, List.append_nil]⟩

theorem Succeeded.step {a : Attempts Value Err} {key : String} {n : ℕ} {value : Value}
    (h : Succeeded i a key n p) (hkey : a.options.key = some key)
    (hvalue : a.progress = .resolved value) (act : RetryAct Value Err) :
    Succeeded i a key n (retryStep message p act) := by
  have hopen : ¬ a.progress.Rejected := hvalue ▸ nofun
  refine ⟨h.cached.step act, ?_, ?_, ?_⟩
  · cases act with
    | withRetry opts =>
      cases hcached : opts.key.bind p.shared.cache with
      | some j =>
        simp only [retryStep, hcached]
        exact h.there
      | none =>
        simp only [retryStep, hcached]
        exact Pool.getElem?_start_of_some h.there
    | turn j event =>
      by_cases hij : j = i
      · subst hij
        rcases attemptsTurn_cases message p.shared a event with
          heq | ⟨-, hnot, -⟩ | ⟨hover, -⟩
        · rw [retryStep, Pool.resume_of_same h.there heq]
          exact h.there
        · exact absurd hvalue (hnot value)
        · exact absurd hover hopen
      · exact (Pool.getElem?_resume_of_ne hij).trans h.there
  · obtain ⟨given, hgiven⟩ := exists_promises_append message p act
    rw [hgiven, List.length_append]
    exact h.counted.trans (Nat.le_add_right _ _)
  · intro j hj
    cases act with
    | withRetry opts =>
      by_cases hopts : opts.key = some key
      · rw [h.cached.retryStep_eq h.there hkey hopen hopts] at hj
        change _ ∈ (p.shared.promises ++ [(some key, i)]).drop n at hj
        rw [List.drop_append_of_le_length h.counted] at hj
        rcases List.mem_append.1 hj with hj | hj
        · exact h.shared j hj
        · simpa using hj
      · obtain ⟨j', hgiven⟩ := promises_withRetry message p opts
        rw [hgiven, List.drop_append_of_le_length h.counted] at hj
        rcases List.mem_append.1 hj with hj | hj
        · exact h.shared j hj
        · exact absurd (Prod.mk.inj (List.mem_singleton.1 hj)).1.symm hopts
    | turn j' event =>
      rw [promises_turn] at hj
      exact h.shared j hj

/-- **Shared retries.** After any calls, replies and timers: of the attempts under one key, all but
the last have failed; attempts have had the replies that they should, never more than `maxAttempts`,
and of these only the last one can be a success. While the attempts of a key have not failed, a call
under the key is given their promise and starts none. And when they have succeeded, this is what all
later calls under the key are given. -/
theorem withRetry_shared (message : Err → String) (acts : List (RetryAct Value Err)) :
    let p := after (retryStep message) (noRetries Value Err) acts
    (∀ (i j : ℕ) (a b : Attempts Value Err) key, i < j → p.calls[i]? = some a →
      p.calls[j]? = some b → a.options.key = some key → b.options.key = some key →
        a.progress.Rejected) ∧
    (∀ (i : ℕ) (a : Attempts Value Err), p.calls[i]? = some a →
      Ran message a.options
        (repliesTo i (history (retryStep message) replied (noRetries Value Err) acts))
        a.progress) ∧
    ∀ (i : ℕ) (a : Attempts Value Err) key, p.calls[i]? = some a → a.options.key = some key →
      (¬ a.progress.Rejected → ∀ opts : RetryOptions, opts.key = some key →
        retryStep message p (.withRetry opts) =
          p.act fun s => { s with promises := s.promises ++ [(some key, i)] }) ∧
      ∀ value, a.progress = .resolved value → ∀ acts',
        let q := after (retryStep message) p acts'
        q.calls[i]? = some a ∧
          ∀ j, (some key, j) ∈ q.shared.promises.drop p.shared.promises.length → j = i := by
  intro p
  have hcached : Cached p := after_invariant (fun _ act h => h.step act) cached_noRetries acts
  have hran : AllRan message (after (logged (retryStep message) replied)
      (noRetries Value Err, []) acts) :=
    after_invariant (fun _ act h => h.step act)
      ⟨by simp, fun i a h => by simp [noRetries, Pool.idle] at h⟩ acts
  rw [after_logged, List.nil_append] at hran
  refine ⟨fun i j a b key hlt ha hb hkey hkey' => ?_, hran.2, fun i a key ha hkey =>
    ⟨fun hopen opts hopts => hcached.retryStep_eq ha hkey hopen hopts,
      fun value hvalue acts' => ?_⟩⟩
  · exact hcached.ended i a ha (hcached.earlier i j a b key hlt ha hb hkey hkey')
  · have hend : Succeeded i a key p.shared.promises.length (after (retryStep message) p acts') :=
      after_invariant (fun _ act h => h.step hkey hvalue act)
        ⟨hcached, ha, le_rfl, by simp⟩ acts'
    exact ⟨hend.there, hend.shared⟩

end SorobanPay.SharedRetries
