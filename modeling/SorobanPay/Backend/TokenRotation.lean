import SorobanPay.Backend.RefreshTokens

/-!
# Replayed refresh tokens

No refresh token is exchanged twice, however the calls interleave. That a family is revoked once a
token has been presented twice holds in the runs in which no call looks for the sentinel of a token
between the two commands by which another call takes the token and sets the sentinel. Otherwise it
finds neither, and the family goes on.

Of every token that has been issued one of four things is true: it is in Redis, some call has taken
it and not yet set the sentinel, the sentinel is set, or the family is revoked. A call that comes
too late for the token therefore finds the sentinel, unless it comes between the two commands.

## Main definitions

* `RefreshTurns`: what the turn of a call can do.
* `RefreshInv`: the invariant of Redis and the calls.
* `RefreshCall.Replayed`: what a call shows that has presented a token since it was issued.

## Main results

* `RefreshInv.step`: what every step keeps.
* `RefreshInv.rotatedOnce`: no token is exchanged twice.
* `replayed_of_sentinelSettled`, `barred_of_isRevoked`: what holds of later calls.
* `rotate_refresh_token`: families of tokens that are presented twice are revoked.
-/

set_option autoImplicit false

namespace SorobanPay.Auth

open Foundation

variable {s s' : RefreshStore} {call call' : RefreshCall} {record record' : RefreshTokenRecord}
  {token token' familyId familyId' : String} {random : ℕ → Draw} {input : RefreshInput}
  {p : Pool RefreshStore RefreshCall} {result : RefreshStore × RefreshCall}

/-! ### Redis -/

theorem rtTokenKey_injective : Function.Injective rtTokenKey :=
  fun _ _ h => (String.append_right_inj _).1 h

theorem rtUsedKey_injective : Function.Injective rtUsedKey :=
  fun _ _ h => (String.append_right_inj _).1 h

theorem rtFamilyRevokedKey_injective : Function.Injective rtFamilyRevokedKey :=
  fun _ _ h => (String.append_right_inj _).1 h

namespace RefreshStore

/-- The record under a token. -/
def recordOf (s : RefreshStore) (token : String) : Option RefreshTokenRecord :=
  s.tokens.get (rtTokenKey token)

/-- The sentinel of a token. -/
def sentinelOf (s : RefreshStore) (token : String) : Option String := s.used.get (rtUsedKey token)

/-- The tokens that have been issued. -/
def issuedTokens (s : RefreshStore) : List String := s.issued.map RefreshTokenRecord.token

theorem record_setToken (s : RefreshStore) (record : RefreshTokenRecord) (token : String) :
    (s.setToken record).recordOf token =
      if token = record.token then some record else s.recordOf token := by
  simp only [RefreshStore.recordOf, setToken, InsertionMap.get_set, rtTokenKey_injective.eq_iff]

theorem record_getdel (s : RefreshStore) (token token' : String) :
    (s.getdel token).recordOf token' = if token' = token then none else s.recordOf token' := by
  simp only [RefreshStore.recordOf, getdel, InsertionMap.get_erase, rtTokenKey_injective.eq_iff]

theorem sentinel_setUsed (s : RefreshStore) (token familyId token' : String) :
    (s.setUsed token familyId).sentinelOf token' =
      if token' = token then some familyId else s.sentinelOf token' := by
  simp only [sentinelOf, setUsed, InsertionMap.get_set, rtUsedKey_injective.eq_iff]

theorem isRevoked_revoke (s : RefreshStore) (familyId familyId' : String) :
    (s.revoke familyId).isRevoked familyId' = (decide (familyId' = familyId) ||
      s.isRevoked familyId') := by
  simp only [isRevoked, revoke, InsertionMap.get_set, rtFamilyRevokedKey_injective.eq_iff]
  split_ifs with h <;> simp [h]

theorem mem_issuedTokens : token ∈ s.issuedTokens ↔ ∃ record ∈ s.issued, record.token = token :=
  List.mem_map

/-- A token has one record. -/
theorem record_unique (h : s.issuedTokens.Nodup) (hrecord : record ∈ s.issued)
    (hrecord' : record' ∈ s.issued) (htoken : record.token = record'.token) : record = record' :=
  List.inj_on_of_nodup_map h hrecord hrecord' htoken

/-- Redis holds records under their tokens, sentinels name the families of their tokens, and
families are named. -/
structure Sound (s : RefreshStore) : Prop where
  records : ∀ token record, s.recordOf token = some record →
    record ∈ s.issued ∧ record.token = token
  sentinels : ∀ token familyId, s.sentinelOf token = some familyId →
    ∃ record ∈ s.issued, record.token = token ∧ record.familyId = familyId
  familyId_ne : ∀ record ∈ s.issued, record.familyId ≠ ""

namespace Sound

theorem empty : RefreshStore.empty.Sound :=
  ⟨fun _ _ h => by simp [RefreshStore.recordOf, RefreshStore.empty] at h,
    fun _ _ h => by simp [RefreshStore.sentinelOf, RefreshStore.empty] at h,
    fun _ h => by simp [RefreshStore.empty] at h⟩

theorem setToken (h : s.Sound) (hfamily : record.familyId ≠ "") : (s.setToken record).Sound := by
  refine ⟨fun token record' hrecord => ?_, fun token familyId hfamilyId => ?_,
    fun record' h' => ?_⟩
  · rw [record_setToken] at hrecord
    split_ifs at hrecord with htoken
    · obtain rfl := Option.some.inj hrecord
      exact ⟨List.mem_append_right _ List.mem_cons_self, htoken.symm⟩
    · obtain ⟨hmem, heq⟩ := h.records token record' hrecord
      exact ⟨List.mem_append_left _ hmem, heq⟩
  · obtain ⟨record', hmem, heq⟩ := h.sentinels token familyId hfamilyId
    exact ⟨record', List.mem_append_left _ hmem, heq⟩
  · rcases List.mem_append.1 h' with h' | h'
    · exact h.familyId_ne record' h'
    · rwa [List.mem_singleton.1 h']

theorem getdel (h : s.Sound) (token : String) : (s.getdel token).Sound := by
  refine ⟨fun token' record' hrecord => ?_, h.sentinels, h.familyId_ne⟩
  rw [record_getdel] at hrecord
  split_ifs at hrecord with htoken
  exact h.records token' record' hrecord

theorem setUsed (h : s.Sound)
    (hfamily : ∃ record ∈ s.issued, record.token = token ∧ record.familyId = familyId) :
    (s.setUsed token familyId).Sound := by
  refine ⟨h.records, fun token' familyId' hsentinel => ?_, h.familyId_ne⟩
  rw [sentinel_setUsed] at hsentinel
  split_ifs at hsentinel with htoken
  · obtain rfl := Option.some.inj hsentinel
    exact htoken ▸ hfamily
  · exact h.sentinels token' familyId' hsentinel

theorem revoke (h : s.Sound) (familyId : String) : (s.revoke familyId).Sound :=
  ⟨h.records, h.sentinels, h.familyId_ne⟩

end Sound

end RefreshStore

/-! ### Turns -/

/-- What the turn of a call can do. -/
inductive RefreshTurns (s : RefreshStore) : RefreshCall → RefreshStore × RefreshCall → Prop
  | stored (record : RefreshTokenRecord) :
      RefreshTurns s (.storing record) (s.setToken record, .issued record)
  | took (token : String) (draw : Draw) (record : RefreshTokenRecord)
      (h : s.recordOf token = some record) :
      RefreshTurns s (.gettingDel token draw) (s.getdel token, .gettingRevoked token draw record)
  | missed (token : String) (draw : Draw) (h : s.recordOf token = none) :
      RefreshTurns s (.gettingDel token draw) (s.getdel token, .gettingUsed token)
  | unknown (token : String) (h : s.sentinelOf token = none ∨ s.sentinelOf token = some "") :
      RefreshTurns s (.gettingUsed token) (s, .rotated token (.error refreshTokenError))
  | replayed (token familyId : String) (h : s.sentinelOf token = some familyId) :
      RefreshTurns s (.gettingUsed token) (s, .revoking token familyId)
  | revoked (token familyId : String) : RefreshTurns s (.revoking token familyId)
      (s.revoke familyId, .rotated token (.error refreshTokenError))
  | refused (token : String) (draw : Draw) (record : RefreshTokenRecord)
      (h : s.isRevoked record.familyId = true) :
      RefreshTurns s (.gettingRevoked token draw record)
        (s, .rotated token (.error refreshTokenError))
  | passed (token : String) (draw : Draw) (record : RefreshTokenRecord)
      (h : s.isRevoked record.familyId = false) :
      RefreshTurns s (.gettingRevoked token draw record) (s, .settingUsed token draw record)
  | marked (token : String) (draw : Draw) (record : RefreshTokenRecord) (nowMs : ℕ) :
      RefreshTurns s (.settingUsed token draw record)
        (s.setUsed token record.familyId, .settingToken token (record.next draw nowMs))
  | renewed (token : String) (newRecord : RefreshTokenRecord) :
      RefreshTurns s (.settingToken token newRecord)
        (s.setToken newRecord, .rotated token (.ok newRecord))
  | issued (record : RefreshTokenRecord) : RefreshTurns s (.issued record) (s, .issued record)
  | rotated (token : String) (result : Except Thrown RefreshTokenRecord) :
      RefreshTurns s (.rotated token result) (s, .rotated token result)

theorem refreshTurns_refreshTurn (s : RefreshStore) (call : RefreshCall) (nowMs : ℕ) :
    RefreshTurns s call (refreshTurn s call nowMs) := by
  cases call with
  | storing record => exact .stored record
  | issued record => exact .issued record
  | gettingDel token draw =>
    cases h : s.tokens.get (rtTokenKey token) with
    | none =>
      simp only [refreshTurn, h]
      exact .missed token draw h
    | some record =>
      simp only [refreshTurn, h]
      exact .took token draw record h
  | gettingUsed token =>
    cases h : s.used.get (rtUsedKey token) with
    | none =>
      simp only [refreshTurn, h]
      exact .unknown token (.inl h)
    | some familyId =>
      simp only [refreshTurn, h]
      split_ifs with hempty
      · exact .unknown token (.inr (hempty ▸ h))
      · exact .replayed token familyId h
  | revoking token familyId => exact .revoked token familyId
  | gettingRevoked token draw record =>
    simp only [refreshTurn]
    split_ifs with h
    · exact .refused token draw record h
    · exact .passed token draw record (Bool.eq_false_iff.2 h)
  | settingUsed token draw record => exact .marked token draw record nowMs
  | settingToken token newRecord => exact .renewed token newRecord
  | rotated token result => exact .rotated token result

namespace RefreshTurns

/-- Families stay revoked. -/
theorem isRevoked (h : RefreshTurns s call result) (hrevoked : s.isRevoked familyId = true) :
    result.1.isRevoked familyId = true := by
  cases h with
  | revoked token familyId' => rw [RefreshStore.isRevoked_revoke, hrevoked, Bool.or_true]
  | stored | took | missed | unknown | replayed | refused | passed | marked | renewed | issued
  | rotated => exact hrevoked

/-- Tokens stay issued. -/
theorem mem_issued (h : RefreshTurns s call result) (hrecord : record ∈ s.issued) :
    record ∈ result.1.issued := by
  cases h with
  | stored record' | renewed token record' => exact List.mem_append_left _ hrecord
  | took | missed | unknown | replayed | revoked | refused | passed | marked | issued
  | rotated => exact hrecord

/-- A token that has been issued and taken does not come back. -/
theorem record_eq_none (h : RefreshTurns s call result) (hnodup : result.1.issuedTokens.Nodup)
    (hissued : token ∈ s.issuedTokens) (hgone : s.recordOf token = none) :
    result.1.recordOf token = none := by
  have hset : ∀ record : RefreshTokenRecord, (s.setToken record).issuedTokens.Nodup →
      (s.setToken record).recordOf token = none := by
    intro record hnodup
    have hne : token ≠ record.token := by
      rintro rfl
      rw [RefreshStore.issuedTokens, RefreshStore.setToken, List.map_append] at hnodup
      exact (List.nodup_append.1 hnodup).2.2 _ hissued _ List.mem_cons_self rfl
    rw [RefreshStore.record_setToken, if_neg hne, hgone]
  cases h with
  | stored record => exact hset record hnodup
  | renewed token' record => exact hset record hnodup
  | took token' | missed token' =>
    rw [RefreshStore.record_getdel, hgone, ite_self]
  | unknown | replayed | revoked | refused | passed | marked | issued | rotated => exact hgone

end RefreshTurns

/-! ### Calls -/

namespace RefreshCall

/-- The token that a call has taken out of Redis, unless it was refused after that, and the
family. -/
def taken : RefreshCall → Option (String × String)
  | .gettingRevoked token _ record | .settingUsed token _ record => some (token, record.familyId)
  | .settingToken token newRecord | .rotated token (.ok newRecord) =>
    some (token, newRecord.familyId)
  | .storing _ | .issued _ | .gettingDel _ _ | .gettingUsed _ | .revoking _ _
  | .rotated _ (.error _) => none

/-- The token that a call is to set. -/
def own : RefreshCall → Option String
  | .storing record | .settingToken _ record => some record.token
  | .gettingDel _ draw | .gettingRevoked _ draw _ | .settingUsed _ draw _ => some draw.token
  | .issued _ | .gettingUsed _ | .revoking _ _ | .rotated _ _ => none

/-- A token that has been taken was issued and is not in Redis, families are those of the tokens,
and they are named. -/
structure Sound (s : RefreshStore) (call : RefreshCall) : Prop where
  taken : ∀ token familyId, call.taken = some (token, familyId) → s.recordOf token = none ∧
    ∃ record ∈ s.issued, record.token = token ∧ record.familyId = familyId
  revoking : ∀ token familyId, call = .revoking token familyId →
    ∃ record ∈ s.issued, record.token = token ∧ record.familyId = familyId
  familyId_ne : ∀ record, call = .storing record → record.familyId ≠ ""

/-- Two calls have not taken the same token. -/
def Apart (call call' : RefreshCall) : Prop :=
  ∀ token familyId familyId', call.taken = some (token, familyId) →
    call'.taken ≠ some (token, familyId')

theorem Apart.symm (h : call.Apart call') : call'.Apart call :=
  fun token familyId familyId' htaken htaken' => h token familyId' familyId htaken' htaken

end RefreshCall

namespace RefreshTurns

/-- A call that has taken a token has just done so, or had before. -/
theorem taken (h : RefreshTurns s call result)
    (htaken : result.2.taken = some (token, familyId)) :
    call.taken = some (token, familyId) ∨ result.1.recordOf token = none ∧
      ∃ record, s.recordOf token = some record ∧ record.familyId = familyId := by
  cases h with
  | took token' draw record hrecord =>
    obtain ⟨rfl, rfl⟩ := Prod.mk.inj (Option.some.inj htaken)
    refine .inr ⟨?_, record, hrecord, rfl⟩
    rw [RefreshStore.record_getdel, if_pos rfl]
  | passed | marked | renewed | rotated => exact .inl htaken
  | stored | missed | unknown | replayed | revoked | refused | issued => exact absurd htaken nofun

theorem store_sound (h : RefreshTurns s call result) (hs : s.Sound) (hcall : call.Sound s) :
    result.1.Sound := by
  cases h with
  | stored record => exact hs.setToken (hcall.familyId_ne record rfl)
  | took token | missed token => exact hs.getdel token
  | revoked token familyId => exact hs.revoke familyId
  | marked token draw record => exact hs.setUsed (hcall.taken token _ rfl).2
  | renewed token newRecord =>
    obtain ⟨-, record, hrecord, -, hfamily⟩ := hcall.taken token _ rfl
    exact hs.setToken (hfamily ▸ hs.familyId_ne record hrecord)
  | unknown | replayed | refused | passed | issued | rotated => exact hs

/-- What another call knows stays so. -/
theorem other_sound (h : RefreshTurns s call result) (hnodup : result.1.issuedTokens.Nodup)
    (hcall' : call'.Sound s) : call'.Sound result.1 := by
  have hissued : ∀ token familyId,
      (∃ record ∈ s.issued, record.token = token ∧ record.familyId = familyId) →
        ∃ record ∈ result.1.issued, record.token = token ∧ record.familyId = familyId :=
    fun token familyId ⟨record, hrecord, heq⟩ => ⟨record, h.mem_issued hrecord, heq⟩
  refine ⟨fun token familyId htaken => ?_, fun token familyId hcall => ?_, hcall'.familyId_ne⟩
  · obtain ⟨hgone, record, hrecord, htoken, hfamily⟩ := hcall'.taken token familyId htaken
    have hmem : token ∈ s.issuedTokens := RefreshStore.mem_issuedTokens.2 ⟨record, hrecord, htoken⟩
    refine ⟨h.record_eq_none hnodup hmem hgone, ?_⟩
    exact hissued token familyId ⟨record, hrecord, htoken, hfamily⟩
  · exact hissued token familyId (hcall'.revoking token familyId hcall)

theorem call_sound (h : RefreshTurns s call result) (hnodup : result.1.issuedTokens.Nodup)
    (hs : s.Sound) (hcall : call.Sound s) : result.2.Sound result.1 := by
  have hold := h.other_sound hnodup hcall
  refine ⟨fun token familyId htaken => ?_, fun token familyId heq => ?_, fun record heq => ?_⟩
  · rcases h.taken htaken with htaken | ⟨hgone, record, hrecord, rfl⟩
    · exact hold.taken token familyId htaken
    · obtain ⟨hmem, htoken⟩ := hs.records token record hrecord
      exact ⟨hgone, record, h.mem_issued hmem, htoken, rfl⟩
  · cases h with
    | replayed token' familyId' hsentinel =>
      obtain ⟨rfl, rfl⟩ := RefreshCall.revoking.inj heq
      exact hs.sentinels _ _ hsentinel
    | stored | took | missed | unknown | revoked | refused | passed | marked | renewed | issued
    | rotated => exact absurd heq nofun
  · cases h with
    | stored | took | missed | unknown | replayed | revoked | refused | passed | marked | renewed
    | issued | rotated => exact absurd heq nofun

/-- Two calls do not take the same token. -/
theorem apart (h : RefreshTurns s call result) (hcall' : call'.Sound s)
    (happart : call.Apart call') : result.2.Apart call' := by
  intro token familyId familyId' htaken htaken'
  rcases h.taken htaken with htaken | ⟨-, record, hrecord, -⟩
  · exact happart token familyId familyId' htaken htaken'
  · have hgone := (hcall'.taken token familyId' htaken').1
    exact absurd (hgone.symm.trans hrecord) (by simp)

/-- A turn issues nothing, or the token of the call. -/
theorem own (h : RefreshTurns s call result) :
    (∀ token ∈ result.2.own, token ∈ call.own) ∧
      (result.1.issuedTokens = s.issuedTokens ∨ ∃ token ∈ call.own,
        result.1.issuedTokens = s.issuedTokens ++ [token] ∧ result.2.own = none) := by
  cases h with
  | stored record | renewed token record =>
    refine ⟨fun token h => absurd h (by simp [RefreshCall.own]), .inr ⟨record.token, rfl, ?_, rfl⟩⟩
    simp [RefreshStore.issuedTokens, RefreshStore.setToken]
  | missed | unknown | replayed | revoked | refused =>
    exact ⟨fun token h => absurd h (by simp [RefreshCall.own]), .inl rfl⟩
  | took | passed | marked | issued | rotated => exact ⟨fun _ h => h, .inl rfl⟩

end RefreshTurns

/-! ### Invariants -/

/-- Of every token that has been issued one of these is true: it is in Redis, a call has taken it
and not yet set the sentinel, the sentinel is set, or the family is revoked. -/
def Accounted (p : Pool RefreshStore RefreshCall) : Prop :=
  ∀ record ∈ p.shared.issued,
    p.shared.recordOf record.token ≠ none ∨
      (∃ (i : ℕ) (call : RefreshCall), p.calls[i]? = some call ∧
        call.unmarked = some (record.token, record.familyId)) ∨
      p.shared.sentinelOf record.token ≠ none ∨ p.shared.isRevoked record.familyId = true

variable (random) in
/-- Redis and the calls are sound, no two calls have taken a token, no token is issued twice, and
all tokens are accounted for. -/
structure RefreshInv (p : Pool RefreshStore RefreshCall) : Prop where
  holds : p.Holds RefreshStore.Sound RefreshCall.Sound fun _ => RefreshCall.Apart
  spending : p.Spending (fun i => (random i).token) RefreshCall.own RefreshStore.issuedTokens
  accounted : Accounted p

namespace RefreshTurns

/-- A token that has been issued is in Redis after a turn, or was there before. -/
theorem recordOf_ne_none (h : RefreshTurns s call result) (hrecord : record ∈ result.1.issued) :
    result.1.recordOf record.token ≠ none ∨ record ∈ s.issued := by
  have hset : ∀ record' : RefreshTokenRecord, record ∈ (s.setToken record').issued →
      (s.setToken record').recordOf record.token ≠ none ∨ record ∈ s.issued := by
    intro record' hrecord
    rcases List.mem_append.1 hrecord with hrecord | hrecord
    · exact .inr hrecord
    · rw [List.mem_singleton.1 hrecord, RefreshStore.record_setToken, if_pos rfl]
      exact .inl (Option.some_ne_none _)
  cases h with
  | stored record' | renewed token record' => exact hset record' hrecord
  | took | missed | unknown | replayed | revoked | refused | passed | marked | issued | rotated =>
    exact .inr hrecord

/-- Who takes a token of Redis has not set the sentinel. -/
theorem stays_or_unmarked (h : RefreshTurns s call result) (hs : s.Sound)
    (hnodup : s.issuedTokens.Nodup) (hrecord : record ∈ s.issued)
    (hstored : s.recordOf record.token ≠ none) :
    result.1.recordOf record.token ≠ none ∨
      result.2.unmarked = some (record.token, record.familyId) := by
  have hset : ∀ record' : RefreshTokenRecord,
      (s.setToken record').recordOf record.token ≠ none := by
    intro record'
    rw [RefreshStore.record_setToken]
    split_ifs
    · exact Option.some_ne_none _
    · exact hstored
  cases h with
  | stored record' | renewed token record' => exact .inl (hset record')
  | took token draw record' hrecord' =>
    obtain ⟨hmem, htoken⟩ := hs.records token record' hrecord'
    by_cases heq : record.token = token
    · obtain rfl := RefreshStore.record_unique hnodup hrecord hmem (heq.trans htoken.symm)
      exact .inr (congrArg (fun t => some (t, record.familyId)) heq.symm)
    · rw [RefreshStore.record_getdel, if_neg heq]
      exact .inl hstored
  | missed token draw hnone =>
    have hne : record.token ≠ token := fun heq => hstored (heq ▸ hnone)
    rw [RefreshStore.record_getdel, if_neg hne]
    exact .inl hstored
  | unknown | replayed | revoked | refused | passed | marked | issued | rotated =>
    exact .inl hstored

/-- Who has taken a token sets the sentinel, unless the family is revoked. -/
theorem unmarked (h : RefreshTurns s call result)
    (hunmarked : call.unmarked = some (token, familyId)) :
    result.2.unmarked = some (token, familyId) ∨ result.1.sentinelOf token ≠ none ∨
      result.1.isRevoked familyId = true := by
  cases h with
  | refused token' draw record hrevoked =>
    obtain ⟨rfl, rfl⟩ := Prod.mk.inj (Option.some.inj hunmarked)
    exact .inr (.inr hrevoked)
  | passed => exact .inl hunmarked
  | marked token' draw record nowMs =>
    obtain ⟨rfl, rfl⟩ := Prod.mk.inj (Option.some.inj hunmarked)
    rw [RefreshStore.sentinel_setUsed, if_pos rfl]
    exact .inr (.inl (Option.some_ne_none _))
  | stored | took | missed | unknown | replayed | revoked | renewed | issued | rotated =>
    exact absurd hunmarked nofun

/-- Sentinels stay. -/
theorem sentinelOf_ne_none (h : RefreshTurns s call result) (hs : s.sentinelOf token ≠ none) :
    result.1.sentinelOf token ≠ none := by
  cases h with
  | marked token' draw record nowMs =>
    rw [RefreshStore.sentinel_setUsed]
    split_ifs
    · exact Option.some_ne_none _
    · exact hs
  | stored | took | missed | unknown | replayed | revoked | refused | passed | renewed | issued
  | rotated => exact hs

end RefreshTurns

theorem Accounted.resume (h : Accounted p) (hs : p.shared.Sound)
    (hnodup : p.shared.issuedTokens.Nodup) (i nowMs : ℕ) :
    Accounted (p.resume refreshTurn i nowMs) := by
  cases hcall : p.calls[i]? with
  | none =>
    rw [Pool.resume_of_none hcall]
    exact h
  | some call =>
    have hturn := refreshTurns_refreshTurn p.shared call nowMs
    have hlt : i < p.calls.length := (List.getElem?_eq_some_iff.1 hcall).1
    rw [Pool.resume_of_some hcall]
    intro record hrecord
    rcases hturn.recordOf_ne_none hrecord with hstored | hrecord
    · exact .inl hstored
    -- the call itself: it may have taken the token just now, or set the sentinel
    have hself : ∀ familyId, (refreshTurn p.shared call nowMs).2.unmarked =
        some (record.token, familyId) → ∃ (j : ℕ) (call' : RefreshCall),
          (p.calls.set i (refreshTurn p.shared call nowMs).2)[j]? = some call' ∧
            call'.unmarked = some (record.token, familyId) :=
      fun _ hunmarked => ⟨i, _, List.getElem?_set_self hlt, hunmarked⟩
    rcases h record hrecord with hstored | ⟨j, call', hcall', hunmarked⟩ | hmarked | hrevoked
    · rcases hturn.stays_or_unmarked hs hnodup hrecord hstored with hstored | hunmarked
      · exact .inl hstored
      · exact .inr (.inl (hself _ hunmarked))
    · by_cases hij : i = j
      · subst hij
        obtain rfl := Option.some.inj (hcall.symm.trans hcall')
        rcases hturn.unmarked hunmarked with hunmarked | hdone
        · exact .inr (.inl (hself _ hunmarked))
        · exact .inr (.inr hdone)
      · exact .inr (.inl ⟨j, call', (List.getElem?_set_ne hij).trans hcall', hunmarked⟩)
    · exact .inr (.inr (.inl (hturn.sentinelOf_ne_none hmarked)))
    · exact .inr (.inr (.inr (hturn.isRevoked hrevoked)))

theorem Accounted.start (h : Accounted p) (call : RefreshCall) : Accounted (p.start call) := by
  intro record hrecord
  rcases h record hrecord with hstored | ⟨i, call', hcall', hunmarked⟩ | hdone
  · exact .inl hstored
  · have hlt : i < p.calls.length := (List.getElem?_eq_some_iff.1 hcall').1
    exact .inr (.inl ⟨i, call', (List.getElem?_append_left hlt).trans hcall', hunmarked⟩)
  · exact .inr (.inr hdone)

namespace RefreshInv

theorem idle : RefreshInv random (.idle .empty) :=
  ⟨Pool.holds_idle .empty, .idle rfl, fun _ h => by simp [Pool.idle, RefreshStore.empty] at h⟩

/-- A new call. -/
theorem start (h : RefreshInv random p) (hsound : call.Sound p.shared)
    (htaken : call.taken = none)
    (hown : ∀ token ∈ call.own, token = (random p.calls.length).token) :
    RefreshInv random (p.start call) := by
  refine ⟨h.holds.start hsound fun i call' hcall' => ?_, h.spending.start hown,
    h.accounted.start call⟩
  have hapart : call.Apart call' := fun token familyId familyId' h => by simp [htaken] at h
  exact ⟨hapart, hapart.symm⟩

/-- No turn issues a token again. -/
theorem spending_answer (h : RefreshInv random p) (hfresh : FreshDraws random) (i nowMs : ℕ) :
    (p.resume refreshTurn i nowMs).Spending (fun i => (random i).token) RefreshCall.own
      RefreshStore.issuedTokens :=
  h.spending.resume (hexText_injective.comp hfresh.injective) fun call _ =>
    (refreshTurns_refreshTurn p.shared call nowMs).own

theorem nodup_refreshTurn (h : RefreshInv random p) (hfresh : FreshDraws random) {i : ℕ}
    (nowMs : ℕ) (hcall : p.calls[i]? = some call) :
    (refreshTurn p.shared call nowMs).1.issuedTokens.Nodup := by
  have hnodup := (h.spending_answer hfresh i nowMs).nodup
  rwa [Pool.resume_of_some hcall] at hnodup

theorem step (h : RefreshInv random p) (hfresh : FreshDraws random) (input : RefreshInput) :
    RefreshInv random (refreshStep random p input) := by
  cases input with
  | issue address nowMs =>
    refine h.start ⟨nofun, nofun, ?_⟩ rfl fun token htoken => (Option.some.inj htoken).symm
    rintro record heq
    obtain rfl := RefreshCall.storing.inj heq
    exact hfresh.familyId_ne _
  | rotate token =>
    exact h.start ⟨nofun, nofun, nofun⟩ rfl fun token htoken => (Option.some.inj htoken).symm
  | answer i nowMs =>
    refine ⟨h.holds.resume (fun call hcall => ?_) (fun call hcall j call' hji hcall' => ?_)
      fun _ _ _ _ happart => happart, h.spending_answer hfresh i nowMs,
      h.accounted.resume h.holds.shared h.spending.nodup i nowMs⟩
    · have hturn := refreshTurns_refreshTurn p.shared call nowMs
      have hsound := h.holds.each i call hcall
      exact ⟨hturn.store_sound h.holds.shared hsound,
        hturn.call_sound (h.nodup_refreshTurn hfresh nowMs hcall) h.holds.shared hsound⟩
    · have hturn := refreshTurns_refreshTurn p.shared call nowMs
      have hsound := h.holds.each j call' hcall'
      have happart := hturn.apart hsound (h.holds.apart i j call call' hji.symm hcall hcall')
      exact ⟨hturn.other_sound (h.nodup_refreshTurn hfresh nowMs hcall) hsound, happart,
        happart.symm⟩

/-- Who has exchanged a token has taken it. -/
theorem rotatedOnce (h : RefreshInv random p) : RotatedOnce p :=
  fun i j _ _ _ hij hcall hcall' => h.holds.apart i j _ _ hij hcall hcall' _ _ _ rfl rfl

theorem afterCalls (hfresh : FreshDraws random) (is : List RefreshInput) :
    RefreshInv random (afterCalls random is) :=
  after_invariant (fun _ input h => h.step hfresh input) .idle is

end RefreshInv

/-! ### Presentations -/

/-- What a call shows that has presented a token since it was issued: it looks for the sentinel only
once the token has been taken, and it is refused only if the family is revoked. -/
structure RefreshCall.Replayed (record : RefreshTokenRecord) (s : RefreshStore)
    (call : RefreshCall) : Prop where
  missed : call = .gettingUsed record.token → s.recordOf record.token = none
  refused : ∀ err, call = .rotated record.token (.error err) →
    s.isRevoked record.familyId = true

/-- A call that starts when a family is revoked does not get past the check for it. -/
def RefreshCall.Barred (familyId : String) (s : RefreshStore) (call : RefreshCall) : Prop :=
  s.isRevoked familyId = true ∧ (∀ token draw record, call = .settingUsed token draw record →
    record.familyId ≠ familyId) ∧ ∀ token newRecord,
      call = .settingToken token newRecord ∨ call = .rotated token (.ok newRecord) →
        newRecord.familyId ≠ familyId

namespace RefreshTurns

theorem replayed_other (h : RefreshTurns s call result) (hnodup : result.1.issuedTokens.Nodup)
    (hrecord : record ∈ s.issued) (hcall' : call'.Replayed record s) :
    call'.Replayed record result.1 := by
  have hmem : record.token ∈ s.issuedTokens := List.mem_map_of_mem hrecord
  exact ⟨fun heq => h.record_eq_none hnodup hmem (hcall'.missed heq),
    fun err heq => h.isRevoked (hcall'.refused err heq)⟩

/-- The turn of a call that has presented the token. It finds the sentinel, since no other call is
about to set it. -/
theorem replayed_self (h : RefreshTurns s call result) (hs : s.Sound) (hcall : call.Sound s)
    (hnodup : s.issuedTokens.Nodup) (hrecord : record ∈ s.issued)
    (hsettled : call = .gettingUsed record.token → s.recordOf record.token ≠ none ∨
      s.sentinelOf record.token ≠ none ∨ s.isRevoked record.familyId = true)
    (hreplayed : call.Replayed record s) : result.2.Replayed record result.1 := by
  -- the family of a token is that of its record
  have hfamily : ∀ familyId, (∃ record' ∈ s.issued, record'.token = record.token ∧
      record'.familyId = familyId) → familyId = record.familyId := by
    rintro familyId ⟨record', hrecord', htoken, rfl⟩
    rw [RefreshStore.record_unique hnodup hrecord' hrecord htoken]
  cases h with
  | missed token draw hnone =>
    refine ⟨fun heq => ?_, nofun⟩
    rw [RefreshStore.record_getdel, if_pos (RefreshCall.gettingUsed.inj heq).symm]
  | unknown token hnone =>
    refine ⟨nofun, fun err heq => ?_⟩
    obtain rfl := (RefreshCall.rotated.inj heq).1
    rcases hsettled rfl with hstored | hmarked | hrevoked
    · exact absurd (hreplayed.missed rfl) hstored
    · rcases hnone with hnone | hempty
      · exact absurd hnone hmarked
      · obtain ⟨record', hrecord', -, hempty⟩ := hs.sentinels _ _ hempty
        exact absurd hempty (hs.familyId_ne record' hrecord')
    · exact hrevoked
  | revoked token familyId =>
    refine ⟨nofun, fun err heq => ?_⟩
    obtain rfl := (RefreshCall.rotated.inj heq).1
    have heq := hfamily familyId (hcall.revoking _ familyId rfl)
    rw [RefreshStore.isRevoked_revoke, decide_eq_true heq.symm, Bool.true_or]
  | refused token draw record' hrevoked =>
    refine ⟨nofun, fun err heq => ?_⟩
    obtain rfl := (RefreshCall.rotated.inj heq).1
    rw [← hfamily record'.familyId (hcall.taken _ _ rfl).2]
    exact hrevoked
  | rotated token result => exact hreplayed
  | stored | took | replayed | passed | marked | renewed | issued => exact ⟨nofun, nofun⟩

theorem barred (h : RefreshTurns s call result) (hbarred : call.Barred familyId s) :
    result.2.Barred familyId result.1 := by
  obtain ⟨hrevoked, hpassed, hnew⟩ := hbarred
  refine ⟨h.isRevoked hrevoked, fun token draw record heq => ?_, fun token newRecord heq => ?_⟩
  · cases h with
    | passed token' draw' record' hnot =>
      obtain ⟨rfl, rfl, rfl⟩ := RefreshCall.settingUsed.inj heq
      rintro rfl
      exact absurd (hnot.symm.trans hrevoked) (by decide)
    | stored | took | missed | unknown | replayed | revoked | refused | marked | renewed | issued
    | rotated => exact absurd heq nofun
  · cases h with
    | marked token' draw record nowMs =>
      obtain ⟨-, rfl⟩ := RefreshCall.settingToken.inj (heq.resolve_right nofun)
      exact hpassed token' draw record rfl
    | renewed token' record =>
      obtain ⟨-, hresult⟩ := RefreshCall.rotated.inj (heq.resolve_left nofun)
      obtain rfl := Except.ok.inj hresult
      exact hnew token' record (.inl rfl)
    | rotated => exact hnew token newRecord heq
    | stored | took | missed | unknown | replayed | revoked | refused | passed | issued =>
      exact absurd heq (by simp)

end RefreshTurns

/-- A call that looks for the sentinel of a token finds the token accounted for otherwise. -/
theorem RefreshInv.settled (h : RefreshInv random p) {i nowMs : ℕ}
    (hsettled : SentinelSettled p (.answer i nowMs)) (hrecord : record ∈ p.shared.issued)
    (hcall : p.calls[i]? = some (.gettingUsed record.token)) :
    p.shared.recordOf record.token ≠ none ∨ p.shared.sentinelOf record.token ≠ none ∨
      p.shared.isRevoked record.familyId = true := by
  rcases h.accounted record hrecord with hstored | ⟨j, call, hcall', hunmarked⟩ | hdone
  · exact .inl hstored
  · have hlooked : record.token ∈ (p.calls[i]?).bind RefreshCall.lookedFor := by
      rw [hcall]
      rfl
    have hmem : call ∈ p.calls := List.mem_of_getElem? hcall'
    exact .inr (.inr (hsettled _ hlooked call hmem _ hunmarked rfl))
  · exact .inr hdone

theorem mem_issued_refreshStep (hrecord : record ∈ p.shared.issued) (input : RefreshInput) :
    record ∈ (refreshStep random p input).shared.issued := by
  cases input with
  | issue address nowMs => exact hrecord
  | rotate token => exact hrecord
  | answer i nowMs =>
    rw [refreshStep, Pool.shared_resume]
    cases p.calls[i]? with
    | none => exact hrecord
    | some call => exact (refreshTurns_refreshTurn p.shared call nowMs).mem_issued hrecord

theorem isRevoked_refreshStep (hrevoked : p.shared.isRevoked familyId = true)
    (input : RefreshInput) : (refreshStep random p input).shared.isRevoked familyId = true := by
  cases input with
  | issue address nowMs => exact hrevoked
  | rotate token => exact hrevoked
  | answer i nowMs =>
    rw [refreshStep, Pool.shared_resume]
    cases p.calls[i]? with
    | none => exact hrevoked
    | some call => exact (refreshTurns_refreshTurn p.shared call nowMs).isRevoked hrevoked

/-- A step keeps what the calls show that have presented a token since it was issued. -/
theorem RefreshInv.replayed_step (h : RefreshInv random p) (hfresh : FreshDraws random)
    (hrecord : record ∈ p.shared.issued) {first : ℕ}
    (hsince : p.Since first (RefreshCall.Replayed record)) (hsettled : SentinelSettled p input) :
    (refreshStep random p input).Since first (RefreshCall.Replayed record) := by
  cases input with
  | issue address nowMs => exact hsince.start ⟨nofun, nofun⟩
  | rotate token => exact hsince.start ⟨nofun, nofun⟩
  | answer i nowMs =>
    refine hsince.resume (fun call hcall hreplayed => ?_) fun call hcall call' hreplayed => ?_
    · have hturn := refreshTurns_refreshTurn p.shared call nowMs
      refine hturn.replayed_self h.holds.shared (h.holds.each i call hcall) h.spending.nodup
        hrecord (fun heq => ?_) hreplayed
      exact h.settled hsettled hrecord (heq ▸ hcall)
    · have hturn := refreshTurns_refreshTurn p.shared call nowMs
      exact hturn.replayed_other (h.nodup_refreshTurn hfresh nowMs hcall) hrecord hreplayed

/-- The calls since a token has been issued show what they should. -/
theorem replayed_of_sentinelSettled (hfresh : FreshDraws random) (h : RefreshInv random p)
    (hrecord : record ∈ p.shared.issued) {is : List RefreshInput}
    (hsettled : Along (refreshStep random) SentinelSettled p is) :
    (after (refreshStep random) p is).Since p.calls.length (RefreshCall.Replayed record) := by
  have hstep : ∀ (q : Pool RefreshStore RefreshCall) (input : RefreshInput),
      RefreshInv random q ∧ record ∈ q.shared.issued ∧
          q.Since p.calls.length (RefreshCall.Replayed record) →
        SentinelSettled q input → RefreshInv random (refreshStep random q input) ∧
          record ∈ (refreshStep random q input).shared.issued ∧
          (refreshStep random q input).Since p.calls.length (RefreshCall.Replayed record) :=
    fun q input ⟨hq, hrecord, hsince⟩ hsettled => ⟨hq.step hfresh input,
      mem_issued_refreshStep hrecord input, hq.replayed_step hfresh hrecord hsince hsettled⟩
  exact (hsettled.invariant hstep ⟨h, hrecord, Pool.since_length⟩).2.2

/-- A step keeps later calls from getting past the check for a revoked family. -/
theorem barred_step (hrevoked : p.shared.isRevoked familyId = true) {first : ℕ}
    (hsince : p.Since first (RefreshCall.Barred familyId)) (input : RefreshInput) :
    (refreshStep random p input).Since first (RefreshCall.Barred familyId) := by
  cases input with
  | issue address nowMs =>
    exact hsince.start ⟨hrevoked, nofun, by simp [issueRefreshToken]⟩
  | rotate token =>
    exact hsince.start ⟨hrevoked, nofun, by simp [rotateRefreshToken]⟩
  | answer i nowMs =>
    refine hsince.resume (fun call _ hbarred => ?_) fun call _ call' hbarred => ?_
    · exact (refreshTurns_refreshTurn p.shared call nowMs).barred hbarred
    · have hturn := refreshTurns_refreshTurn p.shared call nowMs
      exact ⟨hturn.isRevoked hbarred.1, hbarred.2⟩

/-- The calls since a family has been revoked do not get past the check for it. -/
theorem barred_of_isRevoked (h : p.shared.isRevoked familyId = true) (is : List RefreshInput) :
    (after (refreshStep random) p is).Since p.calls.length (RefreshCall.Barred familyId) := by
  have hstep : ∀ (q : Pool RefreshStore RefreshCall) (input : RefreshInput),
      q.shared.isRevoked familyId = true ∧ q.Since p.calls.length (RefreshCall.Barred familyId) →
        (refreshStep random q input).shared.isRevoked familyId = true ∧
          (refreshStep random q input).Since p.calls.length (RefreshCall.Barred familyId) :=
    fun q input ⟨hrevoked, hsince⟩ =>
      ⟨isRevoked_refreshStep hrevoked input, barred_step hrevoked hsince input⟩
  exact (after_invariant hstep ⟨h, Pool.since_length⟩ is).2

/-- Two calls that have presented a token have had its family revoked. -/
theorem RefreshInv.isRevoked_of_presentedTwice (h : RefreshInv random p) {first : ℕ}
    (hsince : p.Since first (RefreshCall.Replayed record))
    (htwice : PresentedTwice first record.token p) :
    p.shared.isRevoked record.familyId = true := by
  obtain ⟨i, j, result, result', hi, hj, hij, hcall, hcall'⟩ := htwice
  cases result with
  | error err => exact (hsince i _ hi hcall).refused err rfl
  | ok newRecord =>
    cases result' with
    | error err => exact (hsince j _ hj hcall').refused err rfl
    | ok newRecord' => exact absurd hcall' (h.rotatedOnce i j _ _ _ hij hcall)

theorem afterCalls_append (is js : List RefreshInput) :
    afterCalls random (is ++ js) = after (refreshStep random) (afterCalls random is) js :=
  after_append _ _ _

/-- **Replays.** If no two calls draw the same bytes and identifiers are not empty, then however
calls and commands are ordered, no token is exchanged twice. If moreover no call looks for the
sentinel of a token that another call has taken and is still to mark, unless the family is revoked,
then once two calls have presented a token that had been issued, no call that starts later exchanges
a token of the family. -/
theorem rotate_refresh_token (hfresh : FreshDraws random) (is : List RefreshInput) :
    RotatedOnce (afterCalls random is) ∧
      (Along (refreshStep random) SentinelSettled (.idle .empty) is →
        RevokesReplays random is) := by
  refine ⟨(RefreshInv.afterCalls hfresh is).rotatedOnce, fun hsettled => ?_⟩
  rintro pre mid post token rfl record hrecord htwice record' hrecord' rfl hfamily newRecord hcall
  -- the family is revoked when both calls are completed
  have hmid : Along (refreshStep random) SentinelSettled (afterCalls random pre) mid :=
    (along_append.1 (along_append.1 hsettled).1).2
  have hsince := replayed_of_sentinelSettled hfresh (.afterCalls hfresh pre) hrecord hmid
  rw [← afterCalls_append] at hsince
  have hrevoked := (RefreshInv.afterCalls hfresh (pre ++ mid)).isRevoked_of_presentedTwice hsince
    htwice
  -- what starts then does not get past the check for it
  have hbarred : (afterCalls random (pre ++ mid ++ .rotate record'.token :: post)).Since
      (afterCalls random (pre ++ mid)).calls.length (RefreshCall.Barred record.familyId) :=
    afterCalls_append (pre ++ mid) _ ▸ barred_of_isRevoked hrevoked _
  have hinv := RefreshInv.afterCalls hfresh (pre ++ mid ++ .rotate record'.token :: post)
  obtain ⟨-, record'', hrecord'', htoken, hsame⟩ :=
    (hinv.holds.each _ _ hcall).taken record'.token newRecord.familyId rfl
  obtain rfl := RefreshStore.record_unique hinv.spending.nodup hrecord'' hrecord' htoken
  exact (hbarred _ _ le_rfl hcall).2.2 _ _ (.inr rfl) (hsame.symm.trans hfamily)

/-! ### Samples -/

def sampleDraw (i : ℕ) : Draw := ⟨"token id", "family", List.replicate (i + 1) 0⟩

theorem sampleDraw_fresh : FreshDraws sampleDraw :=
  ⟨fun i j h => by simpa [sampleDraw] using congrArg List.length h, fun _ => by simp [sampleDraw]⟩

/-- A token is issued. -/
def sampleIssue : List RefreshInput := [.issue "GALICE" 0, .answer 0 0]

/-- It is presented by a call that looks for the sentinel between the `GETDEL` of another one and
its `SET`. -/
def samplePresented : List RefreshInput :=
  [.rotate "00", .rotate "00", .answer 1 0, .answer 2 0, .answer 2 0, .answer 1 0, .answer 1 0,
    .answer 1 0]

/-- The next token of the family is exchanged. -/
def sampleNext : List RefreshInput := [.answer 3 0, .answer 3 0, .answer 3 0, .answer 3 0]

/-- The family is not revoked. -/
theorem replay_not_revoked : FreshDraws sampleDraw ∧
    ¬ RevokesReplays sampleDraw
      (sampleIssue ++ samplePresented ++ .rotate "0000" :: sampleNext) := by
  refine ⟨sampleDraw_fresh, fun h => ?_⟩
  have hfirst := h sampleIssue samplePresented sampleNext "0000" rfl
    ⟨"token id", "family", "GALICE", "00", refreshTokenTtlSeconds⟩ (by decide)
    ⟨1, 2, _, _, by decide, by decide, by decide, rfl, rfl⟩
    ⟨"token id", "family", "GALICE", "0000", refreshTokenTtlSeconds⟩ (by decide) rfl rfl
    ⟨"token id", "family", "GALICE", "00000000", refreshTokenTtlSeconds⟩
  exact hfirst rfl

/-- The same calls one after the other. -/
def sampleSequential : List RefreshInput :=
  [.rotate "00", .answer 1 0, .answer 1 0, .answer 1 0, .answer 1 0, .rotate "00", .answer 2 0,
    .answer 2 0, .answer 2 0]

theorem rotate_refresh_token_sample :
    RevokesReplays sampleDraw (sampleIssue ++ sampleSequential ++ .rotate "0000" :: sampleNext) :=
  (rotate_refresh_token sampleDraw_fresh _).2 (by decide)

end SorobanPay.Auth
