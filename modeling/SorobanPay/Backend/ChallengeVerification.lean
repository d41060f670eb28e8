import SorobanPay.Backend.AuthChallenges

/-!
# Challenges are verified soundly

What a successful verification of a challenge shows: the challenge was the last one of the account
and still pending when it was taken out of Redis, the account has signed its nonce, and no other
verification succeeds with it. Calls for other accounts do not matter.

A verification consumes the challenge when its `GETDEL` takes effect, and decides later. What it
knows of the challenge is about the events up to that `GETDEL`, and these do not change any more.

## Main definitions

* `Turns`: what the turn of a call can do.
* `AuthInv`: the invariant of the store and the calls.

## Main results

* `AuthInv.step`: what every step keeps.
* `Pending.nonce_ne`: challenges that have been consumed separately have different nonces.
* `verify_challenge`: challenges are verified soundly, once, and independently of other accounts.
-/

set_option autoImplicit false

namespace SorobanPay.Auth

open Foundation

section Sdk

variable {Tx Hash Sig Key : Type} (sdk : StellarSdk Tx Hash Sig Key)

/-! ### Turns -/

/-- What the turn of a call can do. -/
inductive Turns (s : AuthStore) : AuthCall Tx → AuthStore × AuthCall Tx → Prop
  | set (record : ChallengeRecord) (result : Except Thrown ChallengeRecord) :
      Turns s (.setting record) (s.set record, .generated result)
  | notSet (record : ChallengeRecord) (err : Thrown) :
      Turns s (.setting record) (s, .generated (.error err))
  | getdel (tx : Tx) : Turns s (.gettingDel tx) (s.getdel (sdk.source tx),
      .got tx s.log.length (s.stored.get (challengeKey (sdk.source tx))))
  | lost (tx : Tx) (err : Thrown) : Turns s (.gettingDel tx) (s.getdel (sdk.source tx),
      .verified tx s.log.length (.error err))
  | refused (tx : Tx) (err : Thrown) : Turns s (.gettingDel tx) (s, .refused err)
  | checked (tx : Tx) (since : ℕ) (raw : Option ChallengeRecord) (err : Thrown) :
      Turns s (.got tx since raw)
        (s, .verified tx since (raw.elim (.error err) (checkRecord sdk tx)))
  | ended (call : AuthCall Tx) (h : call.account sdk = none) : Turns s call (s, call)

variable {sdk} {s s' : AuthStore} {call call' : AuthCall Tx} {tx : Tx} {account account' : String}
  {record : ChallengeRecord} {log : List AuthEvent} {event : AuthEvent} {nonce : String} {since : ℕ}
  {randomBytes : ℕ → List UInt8} {p : Pool AuthStore (AuthCall Tx)}

variable (sdk) in
theorem turns_authTurn (s : AuthStore) (call : AuthCall Tx) (reply : DbReply) :
    Turns sdk s call (authTurn sdk s call reply) := by
  cases call with
  | setting record =>
    simp only [authTurn]
    split_ifs with hfailed hdone
    · exact absurd (hfailed.symm.trans hdone) (by decide)
    · exact .notSet record _
    · exact .set record _
    · exact .set record _
  | gettingDel tx =>
    simp only [authTurn]
    split_ifs
    · exact .refused tx _
    · exact .getdel tx
    · exact .lost tx _
  | got tx since raw => exact .checked tx since raw _
  | generated | verified | refused => exact .ended _ rfl

/-- A record passes only with its nonce and a valid signature. -/
theorem checkRecord_eq_ok (h : checkRecord sdk tx record = .ok account) :
    account = sdk.source tx ∧ submittedNonce (sdk.operations tx) = some record.nonce ∧
      ∃ keypair, sdk.fromPublicKey (sdk.source tx) = .ok keypair ∧
        signatureValid sdk keypair tx = true := by
  unfold checkRecord at h
  cases hnonce : submittedNonce (sdk.operations tx) with
  | none => simp only [hnonce, reduceCtorEq] at h
  | some nonce =>
    cases hkey : sdk.fromPublicKey (sdk.source tx) with
    | error message =>
      simp only [hnonce, hkey] at h
      split_ifs at h
    | ok keypair =>
      simp only [hnonce, hkey] at h
      split_ifs at h with hne hempty hvalid
      refine ⟨(Except.ok.inj h).symm, ?_, keypair, rfl, hvalid⟩
      rw [not_not.1 hne]

theorem signatureValid_iff {keypair : Key} : signatureValid sdk keypair tx = true ↔
    ∃ sig ∈ sdk.signatures tx, sdk.verify keypair (sdk.hash tx) sig = .ok true := by
  unfold signatureValid
  rw [List.any_eq_true]
  refine exists_congr fun sig => and_congr_right fun _ => ?_
  cases sdk.verify keypair (sdk.hash tx) sig with
  | error message => simp
  | ok valid => simp

/-! ### The store -/

theorem challengeKey_injective : Function.Injective challengeKey :=
  fun _ _ h => (String.append_right_inj _).1 h

theorem pending_concat : Pending (log ++ [event]) account nonce ↔
    event = .generated account nonce ∨ Pending log account nonce ∧ event.account ≠ account :=
  raised_concat

/-- Redis holds the challenges that are pending. -/
def AuthStore.Sound (s : AuthStore) : Prop :=
  ∀ account nonce, (s.stored.get (challengeKey account)).map ChallengeRecord.nonce = some nonce ↔
    Pending s.log account nonce

namespace AuthStore

theorem stored_set (s : AuthStore) (record : ChallengeRecord) (account : String) :
    (s.set record).stored.get (challengeKey account) =
      if account = record.account then some record else s.stored.get (challengeKey account) := by
  simp only [set, InsertionMap.get_set, challengeKey_injective.eq_iff]

theorem stored_getdel (s : AuthStore) (account account' : String) :
    (s.getdel account).stored.get (challengeKey account') =
      if account' = account then none else s.stored.get (challengeKey account') := by
  simp only [getdel, InsertionMap.get_erase, challengeKey_injective.eq_iff]

theorem stored_expire (s : AuthStore) (account account' : String) :
    (s.expire account).stored.get (challengeKey account') =
      if account' = account then none else s.stored.get (challengeKey account') := by
  simp only [expire, InsertionMap.get_erase, challengeKey_injective.eq_iff]

namespace Sound

theorem empty : AuthStore.empty.Sound :=
  fun _ _ => iff_of_false nofun not_raised_nil

theorem set (h : s.Sound) (record : ChallengeRecord) : (s.set record).Sound := by
  intro account nonce
  have hlog : (s.set record).log = s.log ++ [.generated record.account record.nonce] := rfl
  rw [stored_set, hlog, pending_concat, ← h account nonce]
  split_ifs with haccount
  · subst haccount
    simp [AuthEvent.account]
  · have hne : record.account ≠ account := fun heq => haccount heq.symm
    simp [AuthEvent.account, hne]

/-- The challenge of an account is removed. -/
theorem remove (h : s.Sound) (event : AuthEvent)
    (hevent : ∀ nonce, event ≠ .generated event.account nonce)
    (hlog : s'.log = s.log ++ [event])
    (hstored : ∀ account, s'.stored.get (challengeKey account) =
      if account = event.account then none else s.stored.get (challengeKey account)) :
    s'.Sound := by
  intro account nonce
  rw [hstored, hlog, pending_concat, ← h account nonce]
  split_ifs with haccount
  · subst haccount
    refine iff_of_false (by simp) fun hor => ?_
    exact hor.elim (hevent nonce) fun hand => hand.2 rfl
  · have hne : event.account ≠ account := fun heq => haccount heq.symm
    have hother : event ≠ .generated account nonce := fun heq => hne (heq ▸ rfl)
    simp [hne, hother]

theorem getdel (h : s.Sound) (account : String) : (s.getdel account).Sound :=
  h.remove (.consumed account) nofun rfl (s.stored_getdel account)

theorem expire (h : s.Sound) (account : String) : (s.expire account).Sound :=
  h.remove (.expired account) nofun rfl (s.stored_expire account)

end Sound

end AuthStore

/-- A turn adds to what has happened. -/
theorem Turns.log_eq {result : AuthStore × AuthCall Tx} (h : Turns sdk s call result) :
    ∃ events, result.1.log = s.log ++ events := by
  cases h with
  | set record | getdel tx | lost tx => exact ⟨_, rfl⟩
  | notSet | refused | checked | ended => exact ⟨[], (List.append_nil _).symm⟩

theorem Turns.store_sound {result : AuthStore × AuthCall Tx} (h : Turns sdk s call result)
    (hs : s.Sound) : result.1.Sound := by
  cases h with
  | set record => exact hs.set record
  | getdel tx | lost tx => exact hs.getdel (sdk.source tx)
  | notSet | refused | checked | ended => exact hs

/-! ### Invariants -/

variable (sdk) in
/-- A verification has consumed the challenge of its account, and found it if it was pending; if it
has succeeded, the nonces agree and a signature is valid. -/
def AuthCall.Sound (s : AuthStore) : AuthCall Tx → Prop
  | .got tx since raw => s.log[since]? = some (.consumed (sdk.source tx)) ∧
      ∀ record ∈ raw, Pending (s.log.take since) (sdk.source tx) record.nonce
  | .verified tx since result => s.log[since]? = some (.consumed (sdk.source tx)) ∧
      ∀ account, result = .ok account → account = sdk.source tx ∧
        ∃ nonce, Pending (s.log.take since) account nonce ∧
          submittedNonce (sdk.operations tx) = some nonce ∧
            ∃ keypair, sdk.fromPublicKey account = .ok keypair ∧
              signatureValid sdk keypair tx = true
  | .setting _ | .gettingDel _ | .generated _ | .refused _ => True

/-- The event by which a verification has consumed a challenge. -/
def AuthCall.readAt : AuthCall Tx → Option ℕ
  | .got _ since _ | .verified _ since _ => some since
  | .setting _ | .gettingDel _ | .generated _ | .refused _ => none

/-- The nonce that a call is to store. -/
def AuthCall.own : AuthCall Tx → Option String
  | .setting record => some record.nonce
  | .gettingDel _ | .got _ _ _ | .generated _ | .verified _ _ _ | .refused _ => none

def AuthEvent.generatedNonce : AuthEvent → Option String
  | .generated _ nonce => some nonce
  | .consumed _ | .expired _ => none

/-- The nonces of the challenges so far. -/
def AuthStore.nonces (s : AuthStore) : List String := s.log.filterMap AuthEvent.generatedNonce

namespace AuthCall

theorem Sound.readAt_lt (h : call.Sound sdk s) (hsince : since ∈ call.readAt) :
    since < s.log.length := by
  cases call with
  | got tx since' raw =>
    obtain rfl := Option.some.inj hsince
    exact (List.getElem?_eq_some_iff.1 h.1).1
  | verified tx since' result =>
    obtain rfl := Option.some.inj hsince
    exact (List.getElem?_eq_some_iff.1 h.1).1
  | setting | gettingDel | generated | refused => exact absurd hsince nofun

/-- What has happened stays so. -/
theorem Sound.append (h : call.Sound sdk s) {events : List AuthEvent}
    (hlog : s'.log = s.log ++ events) : call.Sound sdk s' := by
  have hget : ∀ since event, s.log[since]? = some event → s'.log[since]? = some event ∧
      s'.log.take since = s.log.take since := by
    intro since event hevent
    have hlt : since < s.log.length := (List.getElem?_eq_some_iff.1 hevent).1
    rw [hlog]
    exact ⟨(List.getElem?_append_left hlt).trans hevent, List.take_append_of_le_length hlt.le⟩
  cases call with
  | got tx since raw =>
    obtain ⟨hsince, htake⟩ := hget since _ h.1
    exact ⟨hsince, fun record hrecord => htake ▸ h.2 record hrecord⟩
  | verified tx since result =>
    obtain ⟨hsince, htake⟩ := hget since _ h.1
    refine ⟨hsince, fun account haccount => ?_⟩
    rw [htake]
    exact h.2 account haccount
  | setting | gettingDel | generated | refused => trivial

end AuthCall

theorem Turns.call_sound {result : AuthStore × AuthCall Tx} (h : Turns sdk s call result)
    (hs : s.Sound) (hcall : call.Sound sdk s) : result.2.Sound sdk result.1 := by
  cases h with
  | set | notSet | refused => trivial
  | getdel tx =>
    refine ⟨List.getElem?_concat_length, fun record hrecord => ?_⟩
    have htake : (s.getdel (sdk.source tx)).log.take s.log.length = s.log := List.take_left' rfl
    rw [htake]
    exact (hs _ _).1 (congrArg (Option.map ChallengeRecord.nonce) hrecord)
  | lost tx err => exact ⟨List.getElem?_concat_length, nofun⟩
  | checked tx since raw err =>
    refine ⟨hcall.1, fun account haccount => ?_⟩
    cases raw with
    | none => exact absurd haccount nofun
    | some record =>
      obtain ⟨rfl, hnonce, hsigned⟩ := checkRecord_eq_ok haccount
      exact ⟨rfl, record.nonce, hcall.2 record rfl, hnonce, hsigned⟩
  | ended => exact hcall

/-- A turn consumes a challenge by a new event, or not at all. -/
theorem Turns.readAt {result : AuthStore × AuthCall Tx} (h : Turns sdk s call result) {n : ℕ}
    (hn : n ∈ result.2.readAt) : n ∈ call.readAt ∨ n = s.log.length := by
  cases h with
  | set | notSet | refused => exact absurd hn nofun
  | getdel | lost => exact .inr (Option.some.inj hn).symm
  | checked | ended => exact .inl hn

/-- A turn generates nothing, or the challenge of the call. -/
theorem Turns.nonces {result : AuthStore × AuthCall Tx} (h : Turns sdk s call result) :
    (∀ nonce ∈ result.2.own, nonce ∈ call.own) ∧ (result.1.nonces = s.nonces ∨
      ∃ nonce ∈ call.own, result.1.nonces = s.nonces ++ [nonce] ∧ result.2.own = none) := by
  cases h with
  | set record result =>
    refine ⟨nofun, .inr ⟨record.nonce, rfl, ?_, rfl⟩⟩
    simp [AuthStore.nonces, AuthStore.set, AuthEvent.generatedNonce]
  | getdel | lost =>
    refine ⟨nofun, .inl ?_⟩
    simp [AuthStore.nonces, AuthStore.getdel, AuthEvent.generatedNonce]
  | notSet | refused | checked => exact ⟨nofun, .inl rfl⟩
  | ended => exact ⟨fun _ h => h, .inl rfl⟩

variable (sdk randomBytes) in
/-- The store and the calls are sound, no two verifications have consumed a challenge by the same
event, and no nonce is used twice. -/
structure AuthInv (p : Pool AuthStore (AuthCall Tx)) : Prop where
  holds : p.Holds AuthStore.Sound (AuthCall.Sound sdk)
    fun _ call call' => ∀ n ∈ call.readAt, n ∉ call'.readAt
  spending : p.Spending (fun i => hexText (randomBytes i)) AuthCall.own AuthStore.nonces

theorem AuthCall.sound_of_readAt (h : call.readAt = none) : call.Sound sdk s := by
  cases call with
  | got | verified => exact absurd h nofun
  | setting | gettingDel | generated | refused => trivial

variable (sdk) in
theorem readAt_generateChallenge (account networkPassphrase : String) (bytes : List UInt8)
    (connected : Bool) (nowMs : ℕ) :
    (generateChallenge sdk account networkPassphrase bytes connected nowMs).readAt = none ∧
      ∀ nonce ∈ (generateChallenge sdk account networkPassphrase bytes connected nowMs).own,
        nonce = hexText bytes := by
  unfold generateChallenge
  cases sdk.fromPublicKey account with
  | error message => exact ⟨rfl, nofun⟩
  | ok keypair =>
    cases connected with
    | false => exact ⟨rfl, nofun⟩
    | true => exact ⟨rfl, fun nonce h => (Option.some.inj h).symm⟩

variable (sdk) in
theorem readAt_verifyChallenge (signedXdr networkPassphrase : String) (connected : Bool) :
    (verifyChallenge sdk signedXdr networkPassphrase connected).readAt = none ∧
      (verifyChallenge sdk signedXdr networkPassphrase connected).own = none := by
  unfold verifyChallenge
  cases sdk.transaction signedXdr networkPassphrase with
  | none => exact ⟨rfl, rfl⟩
  | some tx => cases connected <;> exact ⟨rfl, rfl⟩

namespace AuthInv

theorem idle : AuthInv sdk randomBytes (.idle .empty) := ⟨Pool.holds_idle .empty, .idle rfl⟩

/-- A call is made. -/
theorem start (h : AuthInv sdk randomBytes p) (hreadAt : call.readAt = none)
    (hown : ∀ nonce ∈ call.own, nonce = hexText (randomBytes p.calls.length)) :
    AuthInv sdk randomBytes (p.start call) := by
  refine ⟨h.holds.start (AuthCall.sound_of_readAt hreadAt) fun _ _ _ => ?_, h.spending.start hown⟩
  rw [hreadAt]
  exact ⟨nofun, fun _ _ => nofun⟩

theorem holds_answer (h : AuthInv sdk randomBytes p) (i : ℕ) (reply : DbReply) :
    (p.resume (authTurn sdk) i reply).Holds AuthStore.Sound (AuthCall.Sound sdk)
      fun _ call call' => ∀ n ∈ call.readAt, n ∉ call'.readAt := by
  refine h.holds.resume (fun call hcall => ?_) (fun call hcall j other hji hother => ?_)
    fun _ _ _ _ hapart => hapart
  · have hturn := turns_authTurn sdk p.shared call reply
    exact ⟨hturn.store_sound h.holds.shared,
      hturn.call_sound h.holds.shared (h.holds.each i call hcall)⟩
  · have hturn := turns_authTurn sdk p.shared call reply
    obtain ⟨events, hlog⟩ := hturn.log_eq
    have hsound : other.Sound sdk p.shared := h.holds.each j other hother
    have hapart : ∀ n ∈ other.readAt, n ∉ (authTurn sdk p.shared call reply).2.readAt := by
      intro n hn hn'
      rcases hturn.readAt hn' with hsame | rfl
      · exact h.holds.apart j i other call hji hother hcall n hn hsame
      · exact absurd (hsound.readAt_lt hn) (lt_irrefl _)
    exact ⟨hsound.append hlog, fun n hn hn' => hapart n hn' hn, hapart⟩

theorem spending_answer (h : AuthInv sdk randomBytes p) (hbytes : Function.Injective randomBytes)
    (i : ℕ) (reply : DbReply) :
    (p.resume (authTurn sdk) i reply).Spending (fun i => hexText (randomBytes i)) AuthCall.own
      AuthStore.nonces :=
  h.spending.resume (hexText_injective.comp hbytes) fun call _ =>
    (turns_authTurn sdk p.shared call reply).nonces

theorem expire (h : AuthInv sdk randomBytes p) (account : String) :
    AuthInv sdk randomBytes (p.act fun s => s.expire account) := by
  refine ⟨h.holds.act (h.holds.shared.expire account) (fun call _ hcall => hcall.append rfl)
    fun _ _ hapart => hapart, h.spending.act ?_⟩
  simp [AuthStore.nonces, AuthStore.expire, AuthEvent.generatedNonce]

theorem step (h : AuthInv sdk randomBytes p) (hbytes : Function.Injective randomBytes)
    (input : AuthInput) : AuthInv sdk randomBytes (authStep sdk randomBytes p input) := by
  cases input with
  | generateChallenge account networkPassphrase connected nowMs =>
    obtain ⟨hreadAt, hown⟩ := readAt_generateChallenge sdk account networkPassphrase
      (randomBytes p.calls.length) connected nowMs
    exact h.start hreadAt hown
  | verifyChallenge signedXdr networkPassphrase connected =>
    obtain ⟨hreadAt, hown⟩ := readAt_verifyChallenge sdk signedXdr networkPassphrase
      connected
    exact h.start hreadAt fun nonce hnonce => by rw [hown] at hnonce; exact absurd hnonce nofun
  | answer i reply => exact ⟨h.holds_answer i reply, h.spending_answer hbytes i reply⟩
  | expire account => exact h.expire account

end AuthInv

/-! ### Verification -/

/-- Where a pending challenge has been generated. -/
theorem Pending.exists_getElem (h : Pending (log.take since) account nonce) :
    ∃ k < since, log[k]? = some (.generated account nonce) ∧
      ∀ j event, k < j → j < since → log[j]? = some event → event.account ≠ account := by
  obtain ⟨pre, first, post, htake, rfl, hpost⟩ := h
  have hfirst : (log.take since)[pre.length]? = some (.generated account nonce) := by
    rw [htake, List.getElem?_append_right le_rfl, Nat.sub_self, List.getElem?_cons_zero]
  rw [List.getElem?_take] at hfirst
  split_ifs at hfirst with hlt
  refine ⟨pre.length, hlt, hfirst, fun j event hj hjlt hevent => hpost event ?_⟩
  obtain ⟨m, rfl⟩ : ∃ m, j = pre.length + (m + 1) := ⟨j - pre.length - 1, by omega⟩
  have htaken : (log.take since)[pre.length + (m + 1)]? = some event := by
    rw [List.getElem?_take, if_pos hjlt, hevent]
  rw [htake, List.getElem?_append_right (Nat.le_add_right _ _), Nat.add_sub_cancel_left,
    List.getElem?_cons_succ] at htaken
  exact List.mem_of_getElem? htaken

/-- No two challenges have the same nonce. -/
theorem AuthStore.generated_unique (h : s.nonces.Nodup) {k k' : ℕ}
    (hk : s.log[k]? = some (.generated account nonce))
    (hk' : s.log[k']? = some (.generated account' nonce)) : k = k' := by
  have hpairs := List.pairwise_iff_getElem.1 (List.pairwise_filterMap.1 h)
  obtain ⟨hlt, hget⟩ := List.getElem?_eq_some_iff.1 hk
  obtain ⟨hlt', hget'⟩ := List.getElem?_eq_some_iff.1 hk'
  rcases Nat.lt_trichotomy k k' with hless | heq | hless
  · exact absurd rfl (hpairs k k' hlt hlt' hless nonce (congrArg _ hget) nonce (congrArg _ hget'))
  · exact heq
  · exact absurd rfl (hpairs k' k hlt' hlt hless nonce (congrArg _ hget') nonce (congrArg _ hget))

/-- Two challenges that have been consumed by different events have different nonces. -/
theorem Pending.nonce_ne (h : s.nonces.Nodup) {nonce' : String} {since' : ℕ}
    (hpending : Pending (s.log.take since) account nonce)
    (hconsumed : s.log[since]? = some (.consumed account))
    (hpending' : Pending (s.log.take since') account' nonce') (hlt : since < since') :
    nonce ≠ nonce' := by
  rintro rfl
  obtain ⟨k, hk, hget, -⟩ := hpending.exists_getElem
  obtain ⟨k', hk', hget', hlast⟩ := hpending'.exists_getElem
  obtain rfl := AuthStore.generated_unique h hget hget'
  have haccount : account = account' := congrArg AuthEvent.account (Option.some.inj
    (hget.symm.trans hget'))
  exact hlast since _ hk hlt hconsumed haccount

theorem AuthInv.verifiesSoundly (h : AuthInv sdk randomBytes p) {Signed : String → Tx → Prop}
    (hsigned : Unforgeable sdk Signed) : VerifiesSoundly sdk Signed p := by
  intro i tx since account hcall
  obtain ⟨hconsumed, hok⟩ := h.holds.each i _ hcall
  obtain ⟨rfl, nonce, hpending, hnonce, keypair, hkey, hvalid⟩ := hok account rfl
  obtain ⟨sig, -, hverify⟩ := signatureValid_iff.1 hvalid
  obtain ⟨signed, hsign, hhash⟩ := hsigned.verify _ keypair tx sig hkey hverify
  obtain ⟨hsource, hoperations⟩ := hsigned.hash signed tx hhash
  exact ⟨hconsumed, nonce, hpending, hnonce, signed, hsign, hsource, hoperations ▸ hnonce⟩

theorem AuthInv.singleUse (h : AuthInv sdk randomBytes p) : SingleUse sdk p := by
  intro i j tx tx' since since' account account' hij hcall hcall' hsame
  obtain ⟨hconsumed, hok⟩ := h.holds.each i _ hcall
  obtain ⟨hconsumed', hok'⟩ := h.holds.each j _ hcall'
  obtain ⟨rfl, nonce, hpending, hnonce, -⟩ := hok account rfl
  obtain ⟨rfl, nonce', hpending', hnonce', -⟩ := hok' account' rfl
  have heq : nonce = nonce' := Option.some.inj (hnonce.symm.trans (hsame.trans hnonce'))
  rcases Nat.lt_trichotomy since since' with hlt | rfl | hlt
  · exact hpending.nonce_ne h.spending.nodup hconsumed hpending' hlt heq
  · exact h.holds.apart i j _ _ hij hcall hcall' since rfl rfl
  · exact hpending'.nonce_ne h.spending.nodup hconsumed' hpending hlt heq.symm

theorem pending_concat_of_ne (h : event.account ≠ account) :
    Pending (log ++ [event]) account nonce ↔ Pending log account nonce := by
  have hother : event ≠ .generated account nonce := fun heq => h (heq ▸ rfl)
  rw [pending_concat]
  exact ⟨fun hor => (hor.resolve_left hother).1, fun hpending => .inr ⟨hpending, h⟩⟩

/-- A turn leaves the challenges of other accounts alone. -/
theorem Turns.others {result : AuthStore × AuthCall Tx} (h : Turns sdk s call result)
    (hother : call.account sdk ≠ some account) :
    result.1.stored.get (challengeKey account) = s.stored.get (challengeKey account) ∧
      ∀ nonce, Pending result.1.log account nonce ↔ Pending s.log account nonce := by
  cases h with
  | set record =>
    have hne : record.account ≠ account := fun heq => hother (congrArg some heq)
    refine ⟨?_, fun nonce => pending_concat_of_ne hne⟩
    rw [AuthStore.stored_set, if_neg hne.symm]
  | getdel tx | lost tx =>
    have hne : sdk.source tx ≠ account := fun heq => hother (congrArg some heq)
    refine ⟨?_, fun nonce => pending_concat_of_ne hne⟩
    rw [AuthStore.stored_getdel, if_neg hne.symm]
  | notSet | refused | checked | ended => exact ⟨rfl, fun _ => Iff.rfl⟩

theorem keepsOthers (p : Pool AuthStore (AuthCall Tx)) (input : AuthInput) :
    KeepsOthers sdk randomBytes p input := by
  intro account hother
  cases input with
  | generateChallenge | verifyChallenge => exact ⟨rfl, fun _ => Iff.rfl⟩
  | answer i reply =>
    rw [authStep]
    cases hcall : p.calls[i]? with
    | none =>
      rw [Pool.resume_of_none hcall]
      exact ⟨rfl, fun _ => Iff.rfl⟩
    | some call =>
      rw [Pool.resume_of_some hcall]
      exact (turns_authTurn sdk p.shared call reply).others fun heq =>
        hother (.inr ⟨i, reply, call, rfl, hcall, heq⟩)
  | expire account' =>
    have hne : account' ≠ account := fun heq => hother (.inl (heq ▸ rfl))
    refine ⟨?_, fun nonce => pending_concat_of_ne hne⟩
    exact (p.shared.stored_expire account' account).trans (if_neg hne.symm)

/-- **Signing in.** If no two calls draw the same random bytes, signatures cannot be forged and
hashes tell transactions apart, then however the calls of all clients, the commands and the expiry
of challenges are ordered, every successful verification shows that the challenge of the account was
pending and that the account has signed its nonce; no two verifications succeed with the same nonce;
and no step of a call affects the challenge of another account. -/
theorem verify_challenge {Signed : String → Tx → Prop} (hbytes : Function.Injective randomBytes)
    (hsigned : Unforgeable sdk Signed) (inputs : List AuthInput) :
    VerifiesSoundly sdk Signed (after (authStep sdk randomBytes) (.idle .empty) inputs) ∧
      SingleUse sdk (after (authStep sdk randomBytes) (.idle .empty) inputs) ∧
      Along (authStep sdk randomBytes) (KeepsOthers sdk randomBytes) (.idle .empty) inputs := by
  have hinv : AuthInv sdk randomBytes (after (authStep sdk randomBytes) (.idle .empty) inputs) :=
    after_invariant (fun _ input h => h.step hbytes input) .idle inputs
  exact ⟨hinv.verifiesSoundly hsigned, hinv.singleUse, along_of_forall keepsOthers⟩

end Sdk

/-! ### A sample -/

/-- A transaction of one account with one operation. -/
structure SampleTx where
  source : String
  value : List UInt8
  signatures : List String
  deriving DecidableEq

def sampleSigned : SampleTx := ⟨"GALICE", [0], ["signature"]⟩

/-- An SDK that knows one signature. -/
def sampleSdk : StellarSdk SampleTx (String × List UInt8) String String where
  transaction xdr _ := if xdr = "signed" then some sampleSigned else none
  source tx := tx.source
  operations tx := [.manageData manageDataKey (some tx.value)]
  signatures tx := tx.signatures
  hash tx := (tx.source, tx.value)
  fromPublicKey account := .ok account
  verify key hash sig :=
    .ok (decide (key = "GALICE" ∧ hash = ("GALICE", [0]) ∧ sig = "signature"))
  build account _ _ _ _ := account

theorem sampleSdk_unforgeable :
    Unforgeable sampleSdk fun account tx => account = "GALICE" ∧ tx = sampleSigned := by
  refine ⟨fun account keypair tx sig hkey hverify => ?_, fun tx tx' hhash => ?_⟩
  · obtain rfl : account = keypair := Except.ok.inj hkey
    have hvalid := of_decide_eq_true (Except.ok.inj hverify)
    exact ⟨sampleSigned, ⟨hvalid.1, rfl⟩, hvalid.2.1.symm⟩
  · obtain ⟨hsource, hvalue⟩ := Prod.mk.inj hhash
    refine ⟨hsource, ?_⟩
    exact congrArg (fun value => [Operation.manageData manageDataKey (some value)]) hvalue

/-- A challenge is generated, and its transaction is presented twice. -/
def sampleInputs : List AuthInput :=
  [.generateChallenge "GALICE" "Test" true 0, .answer 0 .done,
    .verifyChallenge "signed" "Test" true, .verifyChallenge "signed" "Test" true,
    .answer 1 .done, .answer 2 .done, .answer 1 .done, .answer 2 .done]

def sampleRandomBytes (i : ℕ) : List UInt8 := List.replicate (i + 1) 0

theorem sampleRandomBytes_injective : Function.Injective sampleRandomBytes := fun i j h => by
  simpa [sampleRandomBytes] using congrArg List.length h

/-- One of the two succeeds. -/
theorem verify_challenge_sample :
    (after (authStep sampleSdk sampleRandomBytes) (.idle .empty) sampleInputs).calls.map
        (fun call => match call with
          | .verified _ _ result => result.toOption
          | _ => none) = [none, some "GALICE", none] ∧
      VerifiesSoundly sampleSdk (fun account tx => account = "GALICE" ∧ tx = sampleSigned)
        (after (authStep sampleSdk sampleRandomBytes) (.idle .empty) sampleInputs) ∧
      SingleUse sampleSdk
        (after (authStep sampleSdk sampleRandomBytes) (.idle .empty) sampleInputs) ∧
      Along (authStep sampleSdk sampleRandomBytes) (KeepsOthers sampleSdk sampleRandomBytes)
        (.idle .empty) sampleInputs :=
  ⟨by decide, verify_challenge sampleRandomBytes_injective sampleSdk_unforgeable sampleInputs⟩

end SorobanPay.Auth
