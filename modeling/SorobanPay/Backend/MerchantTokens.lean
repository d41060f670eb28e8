import Mathlib.Data.List.Induction
import SorobanPay.Foundation.Base64url
import SorobanPay.Foundation.Run

/-!
# Tokens of merchants

`issueMerchantJwt` of `services/authService.ts` signs the address of a merchant and two times with a
secret, and `verifyMerchantJwt` reads them back out of a token. The token is three texts in base64
for URLs with dots between them: a header, the JSON text of the payload, and the signature of the
first two.

The runtime gives HMAC and JSON. It is a parameter, with what is relied on: `JSON.parse` gives back
what `JSON.stringify` was given, and the fields of an object are what was put there. The clock is in
milliseconds, the times of a token are in seconds. That HMAC cannot be forged is a condition on the
strings that are presented: whoever presents a text with its signature has been given it.

## Main definitions

* `JwtRuntime`: HMAC and JSON.
* `base64url`, `issueMerchantJwt`, `verifyMerchantJwt`: tokens.
* `tokenStep`, `Unforged`: runs in which tokens are issued and strings presented.

## Main results

* `base64url_eq`: `base64url` is base64 for URLs.
* `verifyMerchantJwt_eq_ok_iff`: the strings that are accepted.
* `verifyMerchantJwt_iff_issued`: they are the tokens that have been issued and have not expired.
-/

set_option autoImplicit false

namespace SorobanPay.MerchantTokens

open Foundation

/-! ### Tokens -/

structure MerchantTokenPayload where
  address : String
  iat : ℕ
  exp : ℕ
  deriving DecidableEq, Repr

/-- A day. -/
def jwtTtlSeconds : ℕ := 24 * 60 * 60

/-- What is used of the runtime. `J` is what `JSON.parse` returns; what throws has no result. -/
structure JwtRuntime (J : Type) where
  hmacSha256 : String → String → List UInt8
  stringify : MerchantTokenPayload → String
  parse : String → Option J
  ofPayload : MerchantTokenPayload → J
  /-- `!payload.exp || payload.exp < now` -/
  expired : J → ℕ → Option Bool
  /-- `!payload.address` -/
  lacksAddress : J → Option Bool
  parse_stringify : ∀ payload, parse (stringify payload) = some (ofPayload payload)
  ofPayload_injective : Function.Injective ofPayload
  expired_ofPayload : ∀ payload now,
    expired (ofPayload payload) now = some (decide (payload.exp = 0 ∨ payload.exp < now))
  lacksAddress_ofPayload : ∀ payload,
    lacksAddress (ofPayload payload) = some (decide (payload.address = ""))

/-- `base64url`. -/
def base64url (input : String) : String :=
  String.ofList (((((base64Text (utf8Bytes input)).toList.map (replaceChar '+' '-')).map
    (replaceChar '/' '_'))).filter (· ≠ '='))

/-- `JSON.stringify({ alg: 'HS256', typ: 'JWT' })`. -/
def headerJson : String := "\x7b\"alg\":\"HS256\",\"typ\":\"JWT\"\x7d"

/-- The error of a token that is not accepted, or of a payload without fields. -/
inductive VerifyError
  | authError (message : String)
  | typeError
  deriving DecidableEq, Repr

section Runtime

variable {J : Type} (R : JwtRuntime J)

/-- The payload of a token for an address. -/
def payloadAt (nowMs : ℕ) (address : String) : MerchantTokenPayload :=
  let now := nowMs / 1000
  { address, iat := now, exp := now + jwtTtlSeconds }

/-- What is signed. -/
def signingInput (payload : MerchantTokenPayload) : String :=
  base64url headerJson ++ "." ++ base64url (R.stringify payload)

/-- The digest in base64 for URLs. -/
def signature (secret input : String) : String := base64urlText (R.hmacSha256 secret input)

/-- `issueMerchantJwt`. -/
def issueMerchantJwt (nowMs : ℕ) (address secret : String) : String :=
  let input := signingInput R (payloadAt nowMs address)
  input ++ "." ++ signature R secret input

/-- The text in the second part of a token. -/
def decodePayload (payloadB64 : List Char) : String :=
  utf8Text (base64Decode (String.ofList ((payloadB64.map (replaceChar '-' '+')).map
    (replaceChar '_' '/'))))

/-- `verifyMerchantJwt`. -/
def verifyMerchantJwt (nowMs : ℕ) (token secret : String) : Except VerifyError J :=
  match token.toList.splitOn '.' with
  | [headerB64, payloadB64, receivedSig] =>
    let input := String.ofList (headerB64 ++ '.' :: payloadB64)
    if (signature R secret input).toList ≠ receivedSig then
      .error (.authError "Invalid token signature")
    else
      match R.parse (decodePayload payloadB64) with
      | none => .error (.authError "Malformed token payload")
      | some payload =>
        match R.expired payload (nowMs / 1000) with
        | none => .error .typeError
        | some true => .error (.authError "Token expired")
        | some false =>
          match R.lacksAddress payload with
          | none => .error .typeError
          | some true => .error (.authError "Token missing address claim")
          | some false => .ok payload
  | _ => .error (.authError "Invalid JWT format")

/-! ### Texts with dots -/

theorem base64url_eq (input : String) : base64url input = base64urlText (utf8Bytes input) := by
  rw [base64url, base64Text, String.toList_ofList, filter_map_base64Digits, base64urlText]

/-- No dot is in the parts of a token. -/
theorem dot_notMem_base64urlText (bs : List UInt8) : '.' ∉ (base64urlText bs).toList := by
  rw [base64urlText, String.toList_ofList]
  exact notMem_base64urlDigits (by decide +kernel) bs

theorem dot_notMem_base64url (input : String) : '.' ∉ (base64url input).toList := by
  rw [base64url_eq]
  exact dot_notMem_base64urlText _

/-- The payload is read back from its base64 text. -/
theorem decodePayload_base64url (input : String) :
    decodePayload (base64url input).toList = input := by
  rw [decodePayload, base64Decode_map, String.ofList_toList, base64url_eq,
    base64Decode_base64urlText, utf8Text_utf8Bytes]

/-- Three parts without dots are what a text is split into if it is these parts with dots between
them. -/
theorem splitOn_dot_eq_iff {cs head body tail : List Char} (hhead : '.' ∉ head)
    (hbody : '.' ∉ body) (htail : '.' ∉ tail) :
    cs.splitOn '.' = [head, body, tail] ↔ cs = head ++ '.' :: (body ++ '.' :: tail) := by
  constructor
  · intro h
    have hjoin : ['.'].intercalate (cs.splitOn '.') = cs := List.intercalate_splitOn '.'
    rw [← hjoin, h]
    simp [List.intercalate]
  · rintro rfl
    rw [List.splitOn_append_cons_self_of_not_mem hhead,
      List.splitOn_append_cons_self_of_not_mem hbody, List.splitOn_eq_singleton htail]

theorem toList_dot : ".".toList = ['.'] := rfl

/-- The strings that are accepted: three parts, of which the last is the signature of the others and
the second the text of a payload that has not expired and has an address. -/
theorem verifyMerchantJwt_eq_ok_iff {nowMs : ℕ} {token secret : String} {payload : J} :
    verifyMerchantJwt R nowMs token secret = .ok payload ↔
      ∃ head body, token.toList.splitOn '.' =
          [head, body, (signature R secret (String.ofList (head ++ '.' :: body))).toList] ∧
        R.parse (decodePayload body) = some payload ∧
        R.expired payload (nowMs / 1000) = some false ∧ R.lacksAddress payload = some false := by
  unfold verifyMerchantJwt
  constructor
  · intro h
    split at h
    case h_2 => cases h
    case h_1 head body sig hsplit =>
      dsimp only at h
      by_cases hsig : (signature R secret (String.ofList (head ++ '.' :: body))).toList = sig
      · rw [if_neg (not_not.2 hsig)] at h
        rcases hparse : R.parse (decodePayload body) with _ | parsed
        · simp [hparse] at h
        rcases hexpired : R.expired parsed (nowMs / 1000) with _ | _ | _
        · simp [hparse, hexpired] at h
        · rcases haddress : R.lacksAddress parsed with _ | _ | _
          · simp [hparse, hexpired, haddress] at h
          · obtain rfl : parsed = payload := by simpa [hparse, hexpired, haddress] using h
            exact ⟨head, body, by rw [hsplit, hsig], hparse, hexpired, haddress⟩
          · simp [hparse, hexpired, haddress] at h
        · simp [hparse, hexpired] at h
      · rw [if_pos hsig] at h
        cases h
  · rintro ⟨head, body, hsplit, hparse, hexpired, haddress⟩
    simp only [hsplit, ne_eq, not_true_eq_false, if_false, hparse, hexpired, haddress]

/-- The parts of a text that has been signed. -/
theorem splitOn_signed (payload : MerchantTokenPayload) (secret : String) :
    (signingInput R payload ++ "." ++ signature R secret (signingInput R payload)).toList.splitOn
        '.' =
      [(base64url headerJson).toList, (base64url (R.stringify payload)).toList,
        (signature R secret (signingInput R payload)).toList] := by
  refine (splitOn_dot_eq_iff (dot_notMem_base64url _) (dot_notMem_base64url _)
    (dot_notMem_base64urlText _)).2 ?_
  simp only [signingInput, signature, String.toList_append, List.append_assoc, toList_dot,
    List.cons_append, List.nil_append]

theorem ofList_signingInput (payload : MerchantTokenPayload) :
    String.ofList ((base64url headerJson).toList ++
      '.' :: (base64url (R.stringify payload)).toList) = signingInput R payload := by
  rw [← String.toList_inj, String.toList_ofList]
  simp only [signingInput, String.toList_append, List.append_assoc, toList_dot,
    List.singleton_append]

/-- A text that has been signed is accepted until the payload expires, with the payload as the
result. -/
theorem verifyMerchantJwt_signed_eq_ok_iff {nowMs : ℕ} {payload : MerchantTokenPayload}
    {secret : String} {result : J} :
    verifyMerchantJwt R nowMs
        (signingInput R payload ++ "." ++ signature R secret (signingInput R payload)) secret =
          .ok result ↔
      result = R.ofPayload payload ∧ payload.exp ≠ 0 ∧ nowMs / 1000 ≤ payload.exp ∧
        payload.address ≠ "" := by
  rw [verifyMerchantJwt_eq_ok_iff]
  constructor
  · rintro ⟨head, body, hsplit, hparse, hexpired, haddress⟩
    rw [splitOn_signed, List.cons.injEq, List.cons.injEq] at hsplit
    obtain ⟨rfl, rfl, -⟩ := hsplit
    rw [decodePayload_base64url, R.parse_stringify, Option.some.injEq] at hparse
    subst hparse
    rw [R.expired_ofPayload, Option.some.injEq, decide_eq_false_iff_not, not_or, not_lt] at hexpired
    rw [R.lacksAddress_ofPayload, Option.some.injEq, decide_eq_false_iff_not] at haddress
    exact ⟨rfl, hexpired.1, hexpired.2, haddress⟩
  · rintro ⟨rfl, hexp, htime, haddress⟩
    refine ⟨(base64url headerJson).toList, (base64url (R.stringify payload)).toList, ?_, ?_, ?_, ?_⟩
    · rw [splitOn_signed, ofList_signingInput]
    · rw [decodePayload_base64url, R.parse_stringify]
    · rw [R.expired_ofPayload, Option.some.injEq, decide_eq_false_iff_not, not_or, not_lt]
      exact ⟨hexp, htime⟩
    · rw [R.lacksAddress_ofPayload, Option.some.injEq, decide_eq_false_iff_not]
      exact haddress

/-! ### Runs -/

/-- A token is issued for an address with a secret, or a string is presented with one. -/
inductive TokenAct
  | issue (nowMs : ℕ) (address secret : String)
  | present (nowMs : ℕ) (token secret : String)
  deriving DecidableEq, Repr

/-- A payload that has been signed. -/
structure Signed where
  secret : String
  payload : MerchantTokenPayload
  deriving DecidableEq, Repr

/-- The payloads that have been signed after a step. -/
def tokenStep (signed : List Signed) : TokenAct → List Signed
  | .issue nowMs address secret => signed ++ [⟨secret, payloadAt nowMs address⟩]
  | .present _ _ _ => signed

/-- Addresses are not empty, and a text that is presented with its signature has been signed. -/
def Unforged (signed : List Signed) : TokenAct → Prop
  | .issue _ address _ => address ≠ ""
  | .present _ token secret => ∀ input, token = input ++ "." ++ signature R secret input →
      ∃ s ∈ signed, s.secret = secret ∧ signingInput R s.payload = input

/-- What has been signed is what tokens have been issued for. -/
theorem mem_after_tokenStep_iff {acts : List TokenAct} {s : Signed} :
    s ∈ after tokenStep [] acts ↔
      ∃ nowMs address, .issue nowMs address s.secret ∈ acts ∧
        s.payload = payloadAt nowMs address := by
  induction acts using List.reverseRecOn with
  | nil => simp
  | append_singleton acts act ih =>
    rw [after_append, after_cons, after_nil]
    cases act with
    | issue nowMs address secret =>
      rw [tokenStep, List.mem_append, ih, List.mem_singleton]
      constructor
      · rintro (⟨nowMs', address', hmem, hpayload⟩ | rfl)
        · exact ⟨nowMs', address', List.mem_append_left _ hmem, hpayload⟩
        · exact ⟨nowMs, address, List.mem_append_right _ List.mem_cons_self, rfl⟩
      · rintro ⟨nowMs', address', hmem, hpayload⟩
        rcases List.mem_append.1 hmem with hmem | hmem
        · exact .inl ⟨nowMs', address', hmem, hpayload⟩
        · obtain ⟨rfl, rfl, hsecret⟩ : nowMs' = nowMs ∧ address' = address ∧ s.secret = secret := by
            simpa using hmem
          exact .inr (by rw [← hsecret, ← hpayload])
    | present nowMs token secret =>
      rw [tokenStep, ih]
      simp

/-- **Merchant tokens.** A string that is presented is accepted if and only if it is a token that
has been issued with the same secret and has not expired, and the result is the payload that it was
issued with. -/
theorem verifyMerchantJwt_iff_issued (acts : List TokenAct)
    (hacts : Along tokenStep (Unforged R) [] acts) (pre post : List TokenAct) (nowMs : ℕ)
    (token secret : String) (hpresent : acts = pre ++ .present nowMs token secret :: post)
    (result : J) :
    verifyMerchantJwt R nowMs token secret = .ok result ↔
      ∃ issuedMs address, .issue issuedMs address secret ∈ pre ∧
        token = issueMerchantJwt R issuedMs address secret ∧
        nowMs / 1000 ≤ (payloadAt issuedMs address).exp ∧
        result = R.ofPayload (payloadAt issuedMs address) := by
  rw [hpresent, along_append, along_cons] at hacts
  obtain ⟨hpre, hunforged, -⟩ := hacts
  constructor
  · intro haccept
    obtain ⟨head, body, hsplit, -⟩ := (verifyMerchantJwt_eq_ok_iff R).1 haccept
    have htoken : token = String.ofList (head ++ '.' :: body) ++ "." ++
        signature R secret (String.ofList (head ++ '.' :: body)) := by
      have hjoin : ['.'].intercalate (token.toList.splitOn '.') = token.toList :=
        List.intercalate_splitOn '.'
      rw [← String.toList_inj, ← hjoin, hsplit]
      simp [List.intercalate]
    obtain ⟨s, hs, rfl, hinput⟩ := hunforged _ htoken
    obtain ⟨issuedMs, address, hissue, hpayload⟩ := mem_after_tokenStep_iff.1 hs
    rw [← hinput, hpayload] at htoken
    rw [htoken, verifyMerchantJwt_signed_eq_ok_iff] at haccept
    exact ⟨issuedMs, address, hissue, htoken, haccept.2.2.1, haccept.1⟩
  · rintro ⟨issuedMs, address, hissue, rfl, htime, rfl⟩
    have haddress : address ≠ "" := by
      obtain ⟨before, rest, rfl⟩ := List.append_of_mem hissue
      rw [along_append, along_cons] at hpre
      exact hpre.2.1
    refine (verifyMerchantJwt_signed_eq_ok_iff R).2 ⟨rfl, ?_, htime, haddress⟩
    simp [payloadAt, jwtTtlSeconds]

end Runtime

/-! ### A token of a day -/

/-- The JSON text of a payload whose address needs no escapes. -/
def payloadJson (payload : MerchantTokenPayload) : String :=
  "\x7b\"address\":\"" ++ payload.address ++ "\",\"iat\"" ++ ":" ++ toString (payload.iat : ℤ) ++
    ",\"exp\"" ++ ":" ++ toString (payload.exp : ℤ) ++ "\x7d"

theorem payloadJson_injective : Function.Injective payloadJson := by
  rintro ⟨address, iat, exp⟩ ⟨address', iat', exp'⟩ h
  obtain ⟨hfront, hexp⟩ := append_colon_toString_inj ((String.append_left_inj _).1 h)
  obtain ⟨haddress, hiat⟩ := append_colon_toString_inj ((String.append_left_inj _).1 hfront)
  have haddress' := (String.append_right_inj _).1 ((String.append_left_inj _).1 haddress)
  rw [MerchantTokenPayload.mk.injEq]
  exact ⟨haddress', Int.natCast_inj.1 hiat, Int.natCast_inj.1 hexp⟩

/-- What is signed for the address `GA` at the fifth second. -/
def sampleInput : String :=
  "eyJhbGciOiJIUzI1NiIsInR5cCI6IkpXVCJ9.eyJhZGRyZXNzIjoiR0EiLCJpYXQiOjUsImV4cCI6ODY0MDV9"

/-- Its digest. -/
def sampleDigest (secret input : String) : List UInt8 :=
  if secret = "key" ∧ input = sampleInput then
    [90, 139, 220, 138, 186, 205, 64, 5, 200, 242, 35, 149, 220, 227, 39, 62, 45, 108, 11, 164,
      201, 100, 69, 131, 99, 174, 9, 120, 3, 167, 197, 6]
  else []

/-- A runtime that knows one digest. -/
noncomputable def sampleRuntime : JwtRuntime MerchantTokenPayload where
  hmacSha256 := sampleDigest
  stringify := payloadJson
  parse := Function.partialInv payloadJson
  ofPayload := id
  expired payload now := some (decide (payload.exp = 0 ∨ payload.exp < now))
  lacksAddress payload := some (decide (payload.address = ""))
  parse_stringify := Function.partialInv_left payloadJson_injective
  ofPayload_injective := Function.injective_id
  expired_ofPayload _ _ := rfl
  lacksAddress_ofPayload _ := rfl

theorem issueMerchantJwt_sample :
    issueMerchantJwt sampleRuntime 5000 "GA" "key" =
      sampleInput ++ "." ++ "WovcirrNQAXI8iOV3OMnPi1sC6TJZEWDY64JeAOnxQY" := by
  decide +kernel

theorem verifyMerchantJwt_iff_issued_sample :
    verifyMerchantJwt sampleRuntime 6000 (issueMerchantJwt sampleRuntime 5000 "GA" "key") "key" =
      .ok ⟨"GA", 5, 86405⟩ := by
  have haddress : "GA" ≠ "" := by decide
  refine (verifyMerchantJwt_iff_issued sampleRuntime
    [.issue 5000 "GA" "key", .present 6000 (issueMerchantJwt sampleRuntime 5000 "GA" "key") "key"]
    ⟨haddress, ?_, trivial⟩ [.issue 5000 "GA" "key"] [] 6000 _ "key" rfl _).2
    ⟨5000, "GA", List.mem_cons_self, rfl, by decide, rfl⟩
  -- the only text that comes with its digest is the one of the token
  intro input hinput
  by_cases hsigned : input = sampleInput
  · exact ⟨⟨"key", payloadAt 5000 "GA"⟩, List.mem_cons_self, rfl, hsigned ▸ by decide +kernel⟩
  · have hother : signature sampleRuntime "key" input = "" := by
      change base64urlText (sampleDigest "key" input) = ""
      rw [sampleDigest, if_neg fun h => hsigned h.2]
      rfl
    rw [hother, issueMerchantJwt_sample, String.append_empty] at hinput
    have hlast := congrArg (fun text => text.toList.getLast?) hinput
    simp at hlast

end SorobanPay.MerchantTokens
