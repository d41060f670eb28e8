import SorobanPay.Backend.AuthChallenges

/-!
# Refresh tokens

`authService.ts` hands out refresh tokens. `issueRefreshToken` starts a family with its first token,
and `rotateRefreshToken` exchanges a token for the next one of the family. Of a token that has been
exchanged a sentinel is kept, and whoever presents the token again has the whole family revoked.

An exchange is a sequence of commands of Redis: the token is fetched and deleted, the family is
looked up among the revoked ones, the sentinel is set, and the next token is set. Calls are followed
from one command to the next. The client is connected, commands take effect and are answered, and
no key expires. The three kinds of keys have different prefixes, so that each kind is a map of its
own, and `JSON.parse` gives back what `JSON.stringify` was given.

## Main definitions

* `refreshStep`: the calls and their commands.
* `RotatedOnce`: no token is exchanged twice.
* `RevokesReplays`: what is to follow when a token has been presented twice.
* `SentinelSettled`: a sentinel is not looked for while it is still to be set.
-/

set_option autoImplicit false

namespace SorobanPay.Auth

open Foundation

/-! ### Tokens -/

def refreshTokenTtlSeconds : ℕ := 30 * 24 * 60 * 60

structure RefreshTokenRecord where
  tokenId : String
  familyId : String
  address : String
  token : String
  expiresAt : ℕ
  deriving DecidableEq, Repr

/-- `new RefreshTokenError()`, the same for all failures. -/
def refreshTokenError : Thrown := .authError "Invalid or expired refresh token"

def rtTokenKey (token : String) : String := "refresh:token:" ++ token

def rtUsedKey (token : String) : String := "refresh:used:" ++ token

def rtFamilyRevokedKey (familyId : String) : String := "refresh:family:revoked:" ++ familyId

/-- What a call draws at random, from `randomUUID` and `randomBytes`. -/
structure Draw where
  tokenId : String
  familyId : String
  bytes : List UInt8

def Draw.token (d : Draw) : String := hexText d.bytes

/-- No two calls draw the same bytes, and identifiers are not empty. -/
structure FreshDraws (random : ℕ → Draw) : Prop where
  injective : Function.Injective fun i => (random i).bytes
  familyId_ne : ∀ i, (random i).familyId ≠ ""

/-! ### Calls -/

/-- The keys in Redis, and the records of all tokens that have been set. -/
structure RefreshStore where
  tokens : InsertionMap String RefreshTokenRecord
  used : InsertionMap String String
  familyRevoked : InsertionMap String String
  issued : List RefreshTokenRecord

namespace RefreshStore

def empty : RefreshStore := ⟨.empty, .empty, .empty, []⟩

def setToken (s : RefreshStore) (record : RefreshTokenRecord) : RefreshStore :=
  { s with
    tokens := s.tokens.set (rtTokenKey record.token) record
    issued := s.issued ++ [record] }

def getdel (s : RefreshStore) (token : String) : RefreshStore :=
  { s with tokens := s.tokens.erase (rtTokenKey token) }

def setUsed (s : RefreshStore) (token familyId : String) : RefreshStore :=
  { s with used := s.used.set (rtUsedKey token) familyId }

def revoke (s : RefreshStore) (familyId : String) : RefreshStore :=
  { s with familyRevoked := s.familyRevoked.set (rtFamilyRevokedKey familyId) "1" }

def isRevoked (s : RefreshStore) (familyId : String) : Bool :=
  (s.familyRevoked.get (rtFamilyRevokedKey familyId)).isSome

end RefreshStore

/-- The command that a call waits for, or how it has ended. -/
inductive RefreshCall
  | storing (record : RefreshTokenRecord)
  | issued (record : RefreshTokenRecord)
  | gettingDel (token : String) (draw : Draw)
  | gettingUsed (token : String)
  | revoking (token familyId : String)
  | gettingRevoked (token : String) (draw : Draw) (record : RefreshTokenRecord)
  | settingUsed (token : String) (draw : Draw) (record : RefreshTokenRecord)
  | settingToken (token : String) (newRecord : RefreshTokenRecord)
  | rotated (token : String) (result : Except Thrown RefreshTokenRecord)

/-- `issueRefreshToken`, until it waits for Redis. -/
def issueRefreshToken (address : String) (draw : Draw) (nowMs : ℕ) : RefreshCall :=
  .storing
    { tokenId := draw.tokenId
      familyId := draw.familyId
      address
      token := draw.token
      expiresAt := nowMs / 1000 + refreshTokenTtlSeconds }

/-- `rotateRefreshToken`, until it waits for Redis. -/
def rotateRefreshToken (token : String) (draw : Draw) : RefreshCall := .gettingDel token draw

/-- The replacement for a token that has been presented. -/
def RefreshTokenRecord.next (record : RefreshTokenRecord) (draw : Draw) (nowMs : ℕ) :
    RefreshTokenRecord where
  tokenId := draw.tokenId
  familyId := record.familyId
  address := record.address
  token := draw.token
  expiresAt := nowMs / 1000 + refreshTokenTtlSeconds

/-- The turn of a call: its command takes effect, and it goes on to the next one. -/
def refreshTurn (s : RefreshStore) : RefreshCall → ℕ → RefreshStore × RefreshCall
  | .storing record, _ => (s.setToken record, .issued record)
  | .issued record, _ => (s, .issued record)
  | .gettingDel token draw, _ =>
    (s.getdel token,
      match s.tokens.get (rtTokenKey token) with
      | none => .gettingUsed token
      | some record => .gettingRevoked token draw record)
  | .gettingUsed token, _ =>
    (s,
      match s.used.get (rtUsedKey token) with
      | none => .rotated token (.error refreshTokenError)
      | some familyId =>
        if familyId = "" then .rotated token (.error refreshTokenError)
        else .revoking token familyId)
  | .revoking token familyId, _ => (s.revoke familyId, .rotated token (.error refreshTokenError))
  | .gettingRevoked token draw record, _ =>
    (s,
      if s.isRevoked record.familyId then .rotated token (.error refreshTokenError)
      else .settingUsed token draw record)
  | .settingUsed token draw record, nowMs =>
    (s.setUsed token record.familyId, .settingToken token (record.next draw nowMs))
  | .settingToken token newRecord, _ => (s.setToken newRecord, .rotated token (.ok newRecord))
  | .rotated token result, _ => (s, .rotated token result)

/-- What can happen next: one of the two is called, or a call takes its turn. -/
inductive RefreshInput
  | issue (address : String) (nowMs : ℕ)
  | rotate (token : String)
  | answer (i : ℕ) (nowMs : ℕ)

section Run

variable (random : ℕ → Draw)

/-- Each call makes its own draw. -/
def refreshStep (p : Pool RefreshStore RefreshCall) :
    RefreshInput → Pool RefreshStore RefreshCall
  | .issue address nowMs => p.start (issueRefreshToken address (random p.calls.length) nowMs)
  | .rotate token => p.start (rotateRefreshToken token (random p.calls.length))
  | .answer i nowMs => p.resume refreshTurn i nowMs

/-- What has become of the calls and of Redis, which was empty. -/
def afterCalls (is : List RefreshInput) : Pool RefreshStore RefreshCall :=
  after (refreshStep random) (.idle .empty) is

/-! ### What is to hold -/

/-- No two exchanges of a token succeed. -/
def RotatedOnce (p : Pool RefreshStore RefreshCall) : Prop :=
  ∀ (i j : ℕ) token record record', i ≠ j → p.calls[i]? = some (.rotated token (.ok record)) →
    p.calls[j]? ≠ some (.rotated token (.ok record'))

/-- Two calls among those from the first one on have presented the token and are completed. -/
def PresentedTwice (first : ℕ) (token : String) (p : Pool RefreshStore RefreshCall) : Prop :=
  ∃ (i j : ℕ) (result result' : Except Thrown RefreshTokenRecord), first ≤ i ∧ first ≤ j ∧ i ≠ j ∧
    p.calls[i]? = some (.rotated token result) ∧ p.calls[j]? = some (.rotated token result')

/-- Let a token be issued, then presented by two calls, and let both be completed. A call that then
starts with any token of the family does not succeed. -/
def RevokesReplays (is : List RefreshInput) : Prop :=
  ∀ pre mid post token, is = pre ++ mid ++ .rotate token :: post →
    ∀ record ∈ (afterCalls random pre).shared.issued,
      PresentedTwice (afterCalls random pre).calls.length record.token
        (afterCalls random (pre ++ mid)) →
      ∀ record' ∈ (afterCalls random is).shared.issued, record'.token = token →
        record'.familyId = record.familyId → ∀ newRecord,
          (afterCalls random is).calls[(afterCalls random (pre ++ mid)).calls.length]? ≠
            some (.rotated token (.ok newRecord))

end Run

/-- The token that a call has taken out of Redis, of which it has yet to set the sentinel, and the
family. -/
def RefreshCall.unmarked : RefreshCall → Option (String × String)
  | .gettingRevoked token _ record | .settingUsed token _ record => some (token, record.familyId)
  | .storing _ | .issued _ | .gettingDel _ _ | .gettingUsed _ | .revoking _ _ | .settingToken _ _
  | .rotated _ _ => none

/-- The token whose sentinel a call is to look for. -/
def RefreshCall.lookedFor : RefreshCall → Option String
  | .gettingUsed token => some token
  | .storing _ | .issued _ | .gettingDel _ _ | .revoking _ _ | .gettingRevoked _ _ _
  | .settingUsed _ _ _ | .settingToken _ _ | .rotated _ _ => none

/-- A call looks for the sentinel of a token only when no other call is about to set it, unless the
family is revoked. -/
def SentinelSettled (p : Pool RefreshStore RefreshCall) : RefreshInput → Prop
  | .answer i _ => ∀ token ∈ (p.calls[i]?).bind RefreshCall.lookedFor,
      ∀ call ∈ p.calls, ∀ unmarked ∈ call.unmarked,
        unmarked.1 = token → p.shared.isRevoked unmarked.2 = true
  | .issue _ _ | .rotate _ => True

instance (p : Pool RefreshStore RefreshCall) : (input : RefreshInput) →
    Decidable (SentinelSettled p input)
  | .answer _ _ => inferInstanceAs (Decidable (∀ _ ∈ _, _))
  | .issue _ _ | .rotate _ => isTrue trivial

end SorobanPay.Auth
