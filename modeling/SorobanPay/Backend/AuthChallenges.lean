import SorobanPay.Foundation.Encoding
import SorobanPay.Foundation.InsertionMap
import SorobanPay.Foundation.Interleaving
import SorobanPay.Foundation.Run
import SorobanPay.Foundation.Transaction

/-!
# Challenges for signing in

`authService.ts` lets a merchant sign in by signing a transaction. `generateChallenge` puts a random
nonce into a transaction of the merchant's account and stores it in Redis, one challenge for each
account; `verifyChallenge` takes the challenge of the transaction's account out of Redis by a single
command, and then compares the nonces and looks for a valid signature.

The calls of any number of clients are followed from one wait to the next. A command of Redis takes
effect as a whole, fails, or takes effect without a reply; a challenge counts as generated when its
`SET` takes effect. A challenge may expire at any time. The Stellar SDK and the client that
`getRedisClient` returns are not part of the repository: the SDK is a parameter, and a caller may
find no client. `JSON.parse` gives back the record that `JSON.stringify` was given.

## Main definitions

* `StellarSdk`: what is used of the SDK.
* `authStep`: the calls, the commands, and the expiry of challenges.
* `Pending`: the last challenge of an account is neither expired nor consumed.
* `Verifies`: what a successful verification shows.
* `VerifiesSoundly`, `SingleUse`, `KeepsOthers`: what is to hold of verifications and of challenges.
-/

set_option autoImplicit false

namespace SorobanPay.Auth

open Foundation

/-! ### The SDK -/

/-- An operation of a transaction. -/
inductive Operation
  | manageData (name : String) (value : Option (List UInt8))
  | other (type : String)
  deriving DecidableEq, Repr

/-- What is used of the Stellar SDK. What throws has the message as its result. -/
structure StellarSdk (Tx Hash Sig Key : Type) where
  /-- `new Transaction(xdr, networkPassphrase)`, unless it throws. -/
  transaction : String → String → Option Tx
  source : Tx → String
  operations : Tx → List Operation
  signatures : Tx → List Sig
  hash : Tx → Hash
  fromPublicKey : String → Except String Key
  verify : Key → Hash → Sig → Except String Bool
  /-- The envelope of an unsigned transaction of an account on a network, with an operation, a
  timeout in seconds and the time at which it is built. -/
  build : String → String → Operation → ℕ → ℕ → String

/-! ### Challenges -/

structure ChallengeRecord where
  account : String
  nonce : String
  transactionXdr : String
  expiresAt : ℕ
  deriving DecidableEq, Repr

def challengeTtlSeconds : ℕ := 5 * 60

def manageDataKey : String := "SorobanPay auth"

def challengeKey (account : String) : String := "sep10:challenge:" ++ account

/-- What the calls throw. -/
inductive Thrown
  | authError (message : String)
  | error (message : String)
  deriving DecidableEq, Repr

/-- The error of `requireRedis`. -/
def storeUnavailable : Thrown :=
  .error "Authentication challenge store unavailable (Redis not connected)"

/-- An operation that carries a nonce. -/
def Operation.isChallenge : Operation → Bool
  | .manageData name _ => name = manageDataKey
  | .other _ => false

/-- The nonce of a transaction, if its first such operation has a value. -/
def submittedNonce (ops : List Operation) : Option String :=
  match ops.find? Operation.isChallenge with
  | some (.manageData _ (some value)) => some (hexText value)
  | some (.manageData _ none) | some (.other _) | none => none

section Sdk

variable {Tx Hash Sig Key : Type} (sdk : StellarSdk Tx Hash Sig Key)

/-- Some signature is valid. One at which `verify` throws is passed over. -/
def signatureValid (keypair : Key) (tx : Tx) : Bool :=
  (sdk.signatures tx).any fun sig =>
    match sdk.verify keypair (sdk.hash tx) sig with
    | .ok valid => valid
    | .error _ => false

/-- What `verifyChallenge` does with the record that it has taken out of Redis. -/
def checkRecord (tx : Tx) (record : ChallengeRecord) : Except Thrown String :=
  match submittedNonce (sdk.operations tx) with
  | none => .error (.authError "Challenge transaction missing ManageData operation")
  | some nonce =>
    if nonce ≠ record.nonce then .error (.authError "Nonce mismatch")
    else if (sdk.signatures tx).isEmpty then .error (.authError "Transaction has no signatures")
    else
      match sdk.fromPublicKey (sdk.source tx) with
      | .error message => .error (.error message)
      | .ok keypair =>
        if signatureValid sdk keypair tx then .ok (sdk.source tx)
        else .error (.authError "No valid signature from account")

/-! ### Calls -/

/-- What happens to the challenge of an account. -/
inductive AuthEvent
  | generated (account nonce : String)
  | consumed (account : String)
  | expired (account : String)
  deriving DecidableEq, Repr

def AuthEvent.account : AuthEvent → String
  | .generated account _ | .consumed account | .expired account => account

/-- The challenges in Redis, and what has happened to them. -/
structure AuthStore where
  stored : InsertionMap String ChallengeRecord
  log : List AuthEvent

namespace AuthStore

def empty : AuthStore := ⟨.empty, []⟩

def set (s : AuthStore) (record : ChallengeRecord) : AuthStore where
  stored := s.stored.set (challengeKey record.account) record
  log := s.log ++ [.generated record.account record.nonce]

def getdel (s : AuthStore) (account : String) : AuthStore where
  stored := s.stored.erase (challengeKey account)
  log := s.log ++ [.consumed account]

def expire (s : AuthStore) (account : String) : AuthStore where
  stored := s.stored.erase (challengeKey account)
  log := s.log ++ [.expired account]

end AuthStore

/-- What a call waits for: `generateChallenge` for its `SET`, and `verifyChallenge` for its `GETDEL`
or for the reply to it, with the number of events that there had been before; or how it has
ended. -/
inductive AuthCall (Tx : Type)
  | setting (record : ChallengeRecord)
  | gettingDel (tx : Tx)
  | got (tx : Tx) (since : ℕ) (raw : Option ChallengeRecord)
  | generated (result : Except Thrown ChallengeRecord)
  | verified (tx : Tx) (since : ℕ) (result : Except Thrown String)
  | refused (err : Thrown)

/-- `generateChallenge`, until it waits for Redis. -/
def generateChallenge (account networkPassphrase : String) (randomBytes : List UInt8)
    (connected : Bool) (nowMs : ℕ) : AuthCall Tx :=
  match sdk.fromPublicKey account with
  | .error message => .generated (.error (.error message))
  | .ok _ =>
    let operation := .manageData manageDataKey (some randomBytes)
    let record : ChallengeRecord :=
      { account
        nonce := hexText randomBytes
        transactionXdr := sdk.build account networkPassphrase operation challengeTtlSeconds nowMs
        expiresAt := nowMs / 1000 + challengeTtlSeconds }
    if connected then .setting record else .generated (.error storeUnavailable)

/-- `verifyChallenge`, until it waits for Redis. -/
def verifyChallenge (signedXdr networkPassphrase : String) (connected : Bool) : AuthCall Tx :=
  match sdk.transaction signedXdr networkPassphrase with
  | none => .refused (.authError "Invalid transaction XDR")
  | some tx => if connected then .gettingDel tx else .refused storeUnavailable

/-- The turn of a call. -/
def authTurn (s : AuthStore) : AuthCall Tx → DbReply → AuthStore × AuthCall Tx
  | .setting record, reply =>
    (if reply.outcome = .failed then s else s.set record,
      .generated (if reply.outcome = .acknowledged then .ok record else .error (.error reply.err)))
  | .gettingDel tx, reply =>
    if reply.outcome = .failed then (s, .refused (.error reply.err))
    else
      (s.getdel (sdk.source tx),
        if reply.outcome = .acknowledged then
          .got tx s.log.length (s.stored.get (challengeKey (sdk.source tx)))
        else .verified tx s.log.length (.error (.error reply.err)))
  | .got tx since raw, _ =>
    (s, .verified tx since
      (raw.elim (.error (.authError "No pending challenge for this account"))
        (checkRecord sdk tx)))
  | .generated result, _ => (s, .generated result)
  | .verified tx since result, _ => (s, .verified tx since result)
  | .refused err, _ => (s, .refused err)

/-- What can happen next: one of the two is called, a call takes its turn, or the challenge of an
account expires. -/
inductive AuthInput
  | generateChallenge (account networkPassphrase : String) (connected : Bool) (nowMs : ℕ)
  | verifyChallenge (signedXdr networkPassphrase : String) (connected : Bool)
  | answer (i : ℕ) (reply : DbReply)
  | expire (account : String)

/-- Each call draws its own random bytes. -/
def authStep (randomBytes : ℕ → List UInt8) (p : Pool AuthStore (AuthCall Tx)) :
    AuthInput → Pool AuthStore (AuthCall Tx)
  | .generateChallenge account networkPassphrase connected nowMs =>
    p.start (generateChallenge sdk account networkPassphrase (randomBytes p.calls.length) connected
      nowMs)
  | .verifyChallenge signedXdr networkPassphrase connected =>
    p.start (verifyChallenge sdk signedXdr networkPassphrase connected)
  | .answer i reply => p.resume (authTurn sdk) i reply
  | .expire account => p.act fun s => s.expire account

/-! ### What is to hold -/

/-- The last challenge that has been generated for the account has this nonce, and it has neither
been consumed nor expired. -/
def Pending (log : List AuthEvent) (account nonce : String) : Prop :=
  Raised (· = .generated account nonce) (·.account = account) log

/-- Signatures cannot be forged, and hashes tell transactions apart: who holds the key of an account
has signed what is verified for it. -/
structure Unforgeable (Signed : String → Tx → Prop) : Prop where
  verify : ∀ account keypair tx sig, sdk.fromPublicKey account = .ok keypair →
    sdk.verify keypair (sdk.hash tx) sig = .ok true →
      ∃ signed, Signed account signed ∧ sdk.hash signed = sdk.hash tx
  hash : ∀ tx tx', sdk.hash tx = sdk.hash tx' →
    sdk.source tx = sdk.source tx' ∧ sdk.operations tx = sdk.operations tx'

/-- What a successful verification shows: its `GETDEL` has consumed the challenge of the account
that was pending then, and a transaction of the account with the nonce of this challenge has been
signed. -/
structure Verifies (Signed : String → Tx → Prop) (log : List AuthEvent) (tx : Tx) (since : ℕ)
    (account : String) : Prop where
  consumed : log[since]? = some (.consumed account)
  signed : ∃ nonce, Pending (log.take since) account nonce ∧
    submittedNonce (sdk.operations tx) = some nonce ∧
      ∃ signed, Signed account signed ∧ sdk.source signed = account ∧
        submittedNonce (sdk.operations signed) = some nonce

/-- Verifications show what they should. -/
def VerifiesSoundly (Signed : String → Tx → Prop) (p : Pool AuthStore (AuthCall Tx)) : Prop :=
  ∀ (i : ℕ) tx since account, p.calls[i]? = some (.verified tx since (.ok account)) →
    Verifies sdk Signed p.shared.log tx since account

/-- No two verifications succeed with the same nonce. -/
def SingleUse (p : Pool AuthStore (AuthCall Tx)) : Prop :=
  ∀ (i j : ℕ) tx tx' since since' account account', i ≠ j →
    p.calls[i]? = some (.verified tx since (.ok account)) →
    p.calls[j]? = some (.verified tx' since' (.ok account')) →
      submittedNonce (sdk.operations tx) ≠ submittedNonce (sdk.operations tx')

/-- The account that a call is about to work for. -/
def AuthCall.account : AuthCall Tx → Option String
  | .setting record => some record.account
  | .gettingDel tx | .got tx _ _ => some (sdk.source tx)
  | .generated _ | .verified _ _ _ | .refused _ => none

/-- The step is one of a call for the account, or the expiry of its challenge. -/
def Concerns (p : Pool AuthStore (AuthCall Tx)) (input : AuthInput) (account : String) : Prop :=
  input = .expire account ∨
    ∃ i reply call, input = .answer i reply ∧ p.calls[i]? = some call ∧
      call.account sdk = some account

/-- The step does not affect the challenges of other accounts. -/
def KeepsOthers (randomBytes : ℕ → List UInt8) (p : Pool AuthStore (AuthCall Tx))
    (input : AuthInput) : Prop :=
  ∀ account, ¬ Concerns sdk p input account →
    (authStep sdk randomBytes p input).shared.stored.get (challengeKey account) =
        p.shared.stored.get (challengeKey account) ∧
      ∀ nonce, Pending (authStep sdk randomBytes p input).shared.log account nonce ↔
        Pending p.shared.log account nonce

end Sdk

end SorobanPay.Auth
