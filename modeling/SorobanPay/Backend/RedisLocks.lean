import SorobanPay.Foundation.Interleaving
import SorobanPay.Foundation.Run
import SorobanPay.Foundation.Transaction

/-!
# Locks in Redis

A lock is a key of Redis that holds the token of its holder until it expires. `releaseLock` should
delete it only if the token is that of the caller. It reads the token and deletes the key by two
commands, and in between the lock may expire and be acquired by another client.
`releases_own_iff` says when a release deletes no lock but that of its token.

The calls for one resource are followed from one command to the next. A command takes effect as a
whole, fails, or takes effect without a reply; that a caller does not wait any longer does not stop
the call. A call that the circuit breaker refuses sends no command and is left out.

## Main definitions

* `LockStore`, `lockStep`: the key, and the calls.
* `ReleasesOwn`: a release deletes no lock with another token.
* `NotTakenOver`: the lock that a release deletes has not been acquired since it read the token.

## Main results

* `releases_own_iff`: when a release deletes no lock with another token.
-/

set_option autoImplicit false

namespace SorobanPay.Redis

open Foundation

/-! ### Commands and calls -/

/-- A lock as Redis keeps it, with the number of acquisitions before it. -/
structure StoredLock where
  token : String
  order : ℕ
  deriving DecidableEq, Repr

/-- The key of the resource, and the tokens that have been stored there, in order. -/
structure LockStore where
  stored : Option StoredLock
  acquired : List String
  deriving DecidableEq, Repr

/-- What a call waits for: `acquireLock` for its `SET NX`, and `releaseLock` for its `GET` or its
`DEL`, with the number of acquisitions that there had been at its `GET`. -/
inductive LockCall
  | settingNx (token : String)
  | getting (token : String)
  | deleting (token : String) (since : ℕ)
  | acquireEnded (token : Option String)
  | releaseEnded
  deriving DecidableEq, Repr

/-- A command of a call is answered. -/
def lockTurn (s : LockStore) : LockCall → DbReply → LockStore × LockCall
  | .settingNx token, reply =>
    if reply.outcome = .failed ∨ s.stored ≠ none then (s, .acquireEnded none)
    else
      (⟨some ⟨token, s.acquired.length⟩, s.acquired ++ [token]⟩,
        .acquireEnded (if reply.outcome = .acknowledged then some token else none))
  | .getting token, reply =>
    (s,
      if reply.outcome = .acknowledged ∧ s.stored.map StoredLock.token = some token then
        .deleting token s.acquired.length
      else .releaseEnded)
  | .deleting _ _, reply =>
    (if reply.outcome = .failed then s else { s with stored := none }, .releaseEnded)
  | .acquireEnded token, _ => (s, .acquireEnded token)
  | .releaseEnded, _ => (s, .releaseEnded)

/-- What can happen next: one of the two is called, a command is answered, or the lock expires. -/
inductive LockInput
  | acquireLock
  | releaseLock (token : String)
  | answer (i : ℕ) (reply : DbReply)
  | expire
  deriving DecidableEq

/-- The tokens are made by the calls, one for each. -/
def lockStep (tokens : ℕ → String) (p : Pool LockStore LockCall) :
    LockInput → Pool LockStore LockCall
  | .acquireLock => p.start (.settingNx (tokens p.calls.length))
  | .releaseLock token => p.start (.getting token)
  | .answer i reply => p.resume lockTurn i reply
  | .expire => p.act fun s => { s with stored := none }

/-- A `DEL` of this release takes effect in this step. -/
def Deletes (p : Pool LockStore LockCall) (input : LockInput) (token : String) (since : ℕ) : Prop :=
  ∃ i reply, input = .answer i reply ∧ p.calls[i]? = some (.deleting token since) ∧
    reply.outcome ≠ .failed

/-- A release deletes no lock with another token. -/
def ReleasesOwn (p : Pool LockStore LockCall) (input : LockInput) : Prop :=
  ∀ token since, Deletes p input token since → ∀ lock ∈ p.shared.stored, lock.token = token

/-- A release deletes no lock that has been acquired since its `GET`. -/
def NotTakenOver (p : Pool LockStore LockCall) (input : LockInput) : Prop :=
  ∀ token since, Deletes p input token since → ∀ lock ∈ p.shared.stored, lock.order < since

/-! ### Turns -/

variable {tokens : ℕ → String} {p : Pool LockStore LockCall} {s s' : LockStore} {call : LockCall}
  {token : String} {since : ℕ}

/-- A turn acquires the lock. -/
structure Acquires (s : LockStore) (token : String) (result : LockStore × LockCall) : Prop where
  shared : result.1 = ⟨some ⟨token, s.acquired.length⟩, s.acquired ++ [token]⟩
  ended : ∃ ended, result.2 = .acquireEnded ended

/-- A turn leaves the lock or deletes it, and may find that it holds the token. -/
structure Leaves (s : LockStore) (result : LockStore × LockCall) : Prop where
  acquired : result.1.acquired = s.acquired
  stored : ∀ lock ∈ result.1.stored, lock ∈ s.stored
  settingNx : ∀ token, result.2 ≠ .settingNx token
  deleting : ∀ token since, result.2 = .deleting token since →
    s.stored.map StoredLock.token = some token ∧ since = s.acquired.length

theorem lockTurn_cases (s : LockStore) (call : LockCall) (reply : DbReply) :
    (∃ token, call = .settingNx token ∧ Acquires s token (lockTurn s call reply)) ∨
      Leaves s (lockTurn s call reply) := by
  cases call with
  | settingNx token =>
    simp only [lockTurn]
    split_ifs
    · exact .inr ⟨rfl, fun _ h => h, nofun, nofun⟩
    · exact .inl ⟨token, rfl, rfl, _, rfl⟩
    · exact .inl ⟨token, rfl, rfl, _, rfl⟩
  | getting token =>
    simp only [lockTurn]
    split_ifs with hfound
    · refine .inr ⟨rfl, fun _ h => h, nofun, fun token' since heq => ?_⟩
      obtain ⟨rfl, rfl⟩ := LockCall.deleting.inj heq
      exact ⟨hfound.2, rfl⟩
    · exact .inr ⟨rfl, fun _ h => h, nofun, nofun⟩
  | deleting token since =>
    simp only [lockTurn]
    split_ifs
    · exact .inr ⟨rfl, fun _ h => h, nofun, nofun⟩
    · exact .inr ⟨rfl, nofun, nofun, nofun⟩
  | acquireEnded | releaseEnded => exact .inr ⟨rfl, fun _ h => h, nofun, nofun⟩

/-! ### Invariants -/

/-- The lock that is stored is one that has been acquired. -/
def LockStore.Sound (s : LockStore) : Prop :=
  ∀ lock ∈ s.stored, s.acquired[lock.order]? = some lock.token

/-- What is known of a release that has found its token: it had been stored by then, and if the lock
is still the one that was stored then, it is its own. -/
structure Found (s : LockStore) (token : String) (since : ℕ) : Prop where
  le_length : since ≤ s.acquired.length
  acquired : ∃ k < since, s.acquired[k]? = some token
  own : ∀ lock ∈ s.stored, lock.order < since → lock.token = token

/-- A release is to find its token now. -/
theorem Found.now (h : s.Sound) (hstored : s.stored.map StoredLock.token = some token) :
    Found s token s.acquired.length := by
  obtain ⟨lock, hlock, rfl⟩ := Option.map_eq_some_iff.1 hstored
  have hget := h lock hlock
  have hlt : lock.order < s.acquired.length := (List.getElem?_eq_some_iff.1 hget).1
  refine ⟨le_rfl, ⟨lock.order, hlt, hget⟩, fun lock' hlock' _ => ?_⟩
  rw [Option.some.inj (hlock.symm.trans hlock')]

/-- The lock is left or deleted. -/
theorem Found.left (h : Found s token since) (hacquired : s'.acquired = s.acquired)
    (hstored : ∀ lock ∈ s'.stored, lock ∈ s.stored) : Found s' token since :=
  ⟨hacquired ▸ h.le_length, hacquired ▸ h.acquired,
    fun lock hlock => h.own lock (hstored lock hlock)⟩

/-- The lock is acquired, and later than what the release has found. -/
theorem Found.acquire (h : Found s token since) (token' : String) :
    Found ⟨some ⟨token', s.acquired.length⟩, s.acquired ++ [token']⟩ token since := by
  obtain ⟨k, hk, hget⟩ := h.acquired
  refine ⟨?_, ⟨k, hk, ?_⟩, fun lock hlock hsince => ?_⟩
  · rw [List.length_append]
    exact h.le_length.trans (Nat.le_add_right _ _)
  · exact (List.getElem?_append_left (hk.trans_le h.le_length)).trans hget
  · obtain rfl := Option.some.inj hlock
    exact absurd h.le_length (not_le.2 hsince)

/-- A release that waits for its `DEL` has found its token. -/
def LockCall.Sound (s : LockStore) (call : LockCall) : Prop :=
  ∀ token since, call = .deleting token since → Found s token since

/-- The token that a call is to store. -/
def LockCall.own : LockCall → Option String
  | .settingNx token => some token
  | .getting _ | .deleting _ _ | .acquireEnded _ | .releaseEnded => none

theorem LockCall.own_eq_none (h : ∀ token, call ≠ .settingNx token) : call.own = none := by
  cases call with
  | settingNx token => exact absurd rfl (h token)
  | getting | deleting | acquireEnded | releaseEnded => rfl

/-- The store and the calls are sound, and no token is stored twice. -/
structure LockInv (tokens : ℕ → String) (p : Pool LockStore LockCall) : Prop where
  holds : p.Holds LockStore.Sound LockCall.Sound fun _ _ _ => True
  spending : p.Spending tokens LockCall.own LockStore.acquired

namespace LockInv

theorem idle (tokens : ℕ → String) : LockInv tokens (.idle ⟨none, []⟩) :=
  ⟨Pool.holds_idle nofun, .idle rfl⟩

/-- A call is made. -/
theorem start (h : LockInv tokens p) (hdeleting : ∀ token since, call ≠ .deleting token since)
    (hown : ∀ token ∈ call.own, token = tokens p.calls.length) : LockInv tokens (p.start call) :=
  ⟨h.holds.start (fun token since heq => absurd heq (hdeleting token since)) fun _ _ _ =>
    ⟨trivial, trivial⟩, h.spending.start hown⟩

theorem holds_answer (h : LockInv tokens p) (i : ℕ) (reply : DbReply) :
    (p.resume lockTurn i reply).Holds LockStore.Sound LockCall.Sound fun _ _ _ => True := by
  refine h.holds.resume (fun call _ => ?_) (fun call _ j other _ hother => ?_)
    fun _ _ _ _ _ => trivial
  · rcases lockTurn_cases p.shared call reply with ⟨token, -, hshared, ended, hended⟩ | hleaves
    · rw [hshared, hended]
      refine ⟨fun lock hlock => ?_, nofun⟩
      obtain rfl := Option.some.inj hlock
      exact List.getElem?_concat_length
    · refine ⟨fun lock hlock => ?_, fun token since heq => ?_⟩
      · rw [hleaves.acquired]
        exact h.holds.shared lock (hleaves.stored lock hlock)
      · obtain ⟨hstored, rfl⟩ := hleaves.deleting token since heq
        exact (Found.now h.holds.shared hstored).left hleaves.acquired hleaves.stored
  · refine ⟨fun token since heq => ?_, trivial, trivial⟩
    have hfound : Found p.shared token since := h.holds.each j other hother token since heq
    rcases lockTurn_cases p.shared call reply with ⟨token', -, hshared, -⟩ | hleaves
    · rw [hshared]
      exact hfound.acquire token'
    · exact hfound.left hleaves.acquired hleaves.stored

theorem spending_answer (h : LockInv tokens p) (htokens : Function.Injective tokens) (i : ℕ)
    (reply : DbReply) :
    (p.resume lockTurn i reply).Spending tokens LockCall.own LockStore.acquired := by
  refine h.spending.resume htokens fun call _ => ?_
  rcases lockTurn_cases p.shared call reply with ⟨token, rfl, hshared, ended, hended⟩ | hleaves
  · rw [hshared, hended]
    exact ⟨nofun, .inr ⟨token, rfl, rfl, rfl⟩⟩
  · rw [LockCall.own_eq_none hleaves.settingNx]
    exact ⟨nofun, .inl hleaves.acquired⟩

theorem expire (h : LockInv tokens p) :
    LockInv tokens (p.act fun s => { s with stored := none }) :=
  ⟨h.holds.act nofun (fun _ _ hcall token since heq => (hcall token since heq).left rfl nofun)
    fun _ _ _ => trivial, h.spending.act rfl⟩

theorem step (h : LockInv tokens p) (htokens : Function.Injective tokens) (input : LockInput) :
    LockInv tokens (lockStep tokens p input) := by
  cases input with
  | acquireLock => exact h.start nofun fun token heq => (Option.some.inj heq).symm
  | releaseLock token => exact h.start nofun nofun
  | answer i reply => exact ⟨h.holds_answer i reply, h.spending_answer htokens i reply⟩
  | expire => exact h.expire

end LockInv

/-! ### Releases -/

/-- A lock that has been acquired since has another token. -/
theorem releasesOwn_iff (h : LockInv tokens p) (input : LockInput) :
    ReleasesOwn p input ↔ NotTakenOver p input := by
  refine forall₃_congr fun token since hdeletes => forall₂_congr fun lock hlock => ?_
  obtain ⟨i, reply, -, hcall, -⟩ := hdeletes
  obtain ⟨-, ⟨k, hk, hget⟩, hown⟩ := h.holds.each i _ hcall token since rfl
  refine ⟨fun htoken => ?_, fun hlt => hown lock hlock hlt⟩
  have hlock := h.holds.shared lock hlock
  rw [htoken] at hlock
  have hnodup : p.shared.acquired.Nodup := h.spending.nodup
  have hsame : k = lock.order :=
    (List.getElem?_inj (List.getElem?_eq_some_iff.1 hget).1 hnodup).1 (hget.trans hlock.symm)
  exact hsame ▸ hk

/-- **Releasing a lock.** However the commands of the calls and the expiry of the lock are ordered,
a release deletes no lock with another token exactly if the lock that is there when its `DEL` takes
effect has not been acquired since its `GET`. -/
theorem releases_own_iff (htokens : Function.Injective tokens) (inputs : List LockInput) :
    Along (lockStep tokens) ReleasesOwn (.idle ⟨none, []⟩) inputs ↔
      Along (lockStep tokens) NotTakenOver (.idle ⟨none, []⟩) inputs :=
  along_iff_of_invariant (LockInv tokens) (fun _ input h => releasesOwn_iff h input)
    (fun _ input h _ => h.step htokens input) (.idle tokens)

def sampleTokens (i : ℕ) : String := String.ofList (List.replicate i 't')

theorem sampleTokens_injective : Function.Injective sampleTokens := by
  intro i j h
  have hlists : List.replicate i 't' = List.replicate j 't' := String.ofList_injective h
  simpa using congrArg List.length hlists

/-- A lock expires between the `GET` and the `DEL` of its release. -/
def sampleTakeover : List LockInput :=
  [.acquireLock, .answer 0 .done, .releaseLock (sampleTokens 0), .answer 1 .done, .expire]

theorem releases_own_sample :
    Along (lockStep sampleTokens) ReleasesOwn (.idle ⟨none, []⟩)
        (sampleTakeover ++ [.answer 1 .done]) ↔
      Along (lockStep sampleTokens) NotTakenOver (.idle ⟨none, []⟩)
        (sampleTakeover ++ [.answer 1 .done]) :=
  releases_own_iff sampleTokens_injective _

/-- Another client acquires the lock before the `DEL`, which deletes it. -/
theorem not_releases_own :
    ¬ Along (lockStep sampleTokens) ReleasesOwn (.idle ⟨none, []⟩)
      (sampleTakeover ++ [.acquireLock, .answer 2 .done, .answer 1 .done]) := by
  intro h
  have hlast := (along_append.1 h).2.2.2.1
  have hown := hlast (sampleTokens 0) 1 ⟨1, .done, rfl, by decide, by decide⟩ ⟨sampleTokens 2, 1⟩
    (by decide)
  exact absurd (sampleTokens_injective hown) (by decide)

end SorobanPay.Redis
