import SorobanPay.Foundation.InsertionMap
import SorobanPay.Foundation.Interleaving
import SorobanPay.Foundation.SlidingWindow

/-!
# The SMS service

`sendSms` of `services/smsService.ts` makes the text of a message, looks whether the number has
opted out, asks the rate limiter, which keeps the times of the messages of each user in memory, and
then logs the message and hands it to the provider. Between any two of these steps other calls may
take theirs, and numbers may opt out and in again. No statement on the database fails.

The times are in milliseconds. What the provider answers is left open. The variables of a call are
logged as they are.

## Main definitions

* `renderTemplate`, `resolveBody`: the text of a message.
* `SmsState`, `checkRateLimit`, `recordOptOut`, `removeOptOut`: the state.
* `SmsStage`, `smsTurn`: the steps of `sendSms`.
* `SmsPool`, `smsStep`: calls that interleave.
* `SmsNote`, `smsNotes`: what is admitted, refused and sent.
-/

set_option autoImplicit false

namespace SorobanPay.Sms

open Foundation

/-! ### Templates -/

structure SmsTemplate where
  id : String
  body : String
  deriving DecidableEq, Repr

/-- The place of a variable in a template. -/
def hole (name : String) : String := "\x7b\x7b" ++ name ++ "\x7d\x7d"

/-- `TEMPLATES`. -/
def templates : List SmsTemplate :=
  [ { id := "payment_success"
      body := "SorobanPay: Your payment of " ++ hole "amount" ++ " " ++ hole "token" ++ " to " ++
        hole "merchant" ++ " was successful. Ref: " ++ hole "txHash" },
    { id := "payment_failure"
      body := "SorobanPay: Your payment of " ++ hole "amount" ++ " " ++ hole "token" ++ " to " ++
        hole "merchant" ++
        " failed. Please ensure sufficient balance. Reply STOP to opt out." },
    { id := "subscription_created"
      body := "SorobanPay: Subscription created with " ++ hole "merchant" ++ " for " ++
        hole "amount" ++ " " ++ hole "token" ++ " every " ++ hole "interval" ++
        ". Reply STOP to opt out." },
    { id := "subscription_cancelled"
      body := "SorobanPay: Your subscription with " ++ hole "merchant" ++
        " has been cancelled. No further charges will be made." },
    { id := "payment_due_reminder"
      body := "SorobanPay: Payment reminder — " ++ hole "amount" ++ " " ++ hole "token" ++
        " due to " ++ hole "merchant" ++
        " in 24 hours. Ensure your wallet has sufficient balance." } ]

/-- The characters of a word. -/
def isWordChar (c : Char) : Bool := c.isAlphanum || c = '_'

/-- The variable whose place a text begins with, and the rest of the text. -/
def placeholder? (text : List Char) : Option (String × List Char) :=
  match text with
  | '\x7b' :: '\x7b' :: text =>
    match text.span isWordChar with
    | (c :: name, '\x7d' :: '\x7d' :: rest) => some (String.ofList (c :: name), rest)
    | _ => none
  | _ => none

/-- The text with its variables replaced. Each step takes a character at least, so that as many
steps as there are characters are enough. -/
def renderChars («variables» : List (String × String)) : ℕ → List Char → List Char
  | 0, text => text
  | _, [] => []
  | steps + 1, c :: text =>
    match placeholder? (c :: text) with
    | some (key, rest) =>
      ((«variables».lookup key).getD (hole key)).toList ++ renderChars «variables» steps rest
    | none => c :: renderChars «variables» steps text

/-- `renderTemplate`. -/
def renderTemplate (body : String) («variables» : List (String × String)) : String :=
  String.ofList (renderChars «variables» body.toList.length body.toList)

example : renderTemplate (hole "a" ++ " and " ++ hole "b") [("b", "x")] = hole "a" ++ " and x" := by
  decide

structure SendSmsOptions where
  «to» : String
  userId : String
  templateId : Option String
  «variables» : List (String × String)
  body : Option String
  deriving DecidableEq, Repr

/-- What becomes of the options: the text of the message, an error that is returned, or one that is
thrown. -/
inductive Resolved
  | text (body : String)
  | refused (error : String)
  | thrown (error : String)
  deriving DecidableEq, Repr

/-- The properties that every object has. What `TEMPLATES` has under these names has no text. -/
def objectProperties : List String :=
  ["constructor", "__defineGetter__", "__defineSetter__", "hasOwnProperty", "__lookupGetter__",
    "__lookupSetter__", "isPrototypeOf", "propertyIsEnumerable", "toString", "valueOf",
    "__proto__", "toLocaleString"]

/-- The text of a message. -/
def resolveBody (options : SendSmsOptions) : Resolved :=
  match options.templateId.filter (· ≠ ""), options.body.filter (· ≠ "") with
  | some templateId, _ =>
    match templates.find? fun template => template.id = templateId with
    | some template => .text (renderTemplate template.body options.variables)
    | none =>
      if templateId ∈ objectProperties then
        .thrown "Cannot read properties of undefined (reading 'replace')"
      else .refused ("Unknown template: " ++ templateId)
  | none, some body => .text body
  | none, none => .refused "Either templateId or body must be provided"

/-! ### The state -/

inductive SmsProvider
  | twilio
  | vonage
  deriving DecidableEq, Repr

inductive SmsStatus
  | blocked
  | rateLimited
  | queued
  | sent
  | failed
  deriving DecidableEq, Repr

/-- A row of the log. -/
structure SmsLog where
  «to» : String
  body : String
  templateId : Option String
  «variables» : List (String × String)
  provider : SmsProvider
  userId : String
  status : SmsStatus
  messageId : Option String
  errorMsg : Option String
  deriving DecidableEq, Repr

structure SmsResult where
  success : Bool
  messageId : Option String
  error : Option String
  logId : Int
  deriving DecidableEq, Repr

/-- The numbers that have opted out, with their users, the times that the rate limiter keeps, and
the log with the id that comes next. -/
structure SmsState where
  optOuts : InsertionMap String (Option String)
  rateLimitMap : InsertionMap String (List ℕ)
  logs : InsertionMap ℕ SmsLog
  nextLog : ℕ

/-- `SMS_PROVIDER` and `SMS_DRY_RUN`. -/
structure SmsConfig where
  provider : SmsProvider
  dryRun : Bool
  deriving DecidableEq, Repr

/-- `RATE_LIMIT_MAX`. -/
def rateLimitMax : ℕ := 5

/-- `RATE_LIMIT_WINDOW_MS`. -/
def rateLimitWindowMs : ℕ := 3600000

namespace SmsState

/-- The times that are kept for a user. -/
def times (state : SmsState) (userId : String) : List ℕ := (state.rateLimitMap.get userId).getD []

/-- `isOptedOut`. -/
def isOptedOut (state : SmsState) (phoneNumber : String) : Bool :=
  (state.optOuts.get phoneNumber).isSome

end SmsState

/-- `recordOptOut`. -/
def recordOptOut (state : SmsState) (phoneNumber : String) (userId : Option String) : SmsState :=
  if state.isOptedOut phoneNumber then state
  else { state with optOuts := state.optOuts.set phoneNumber userId }

/-- `removeOptOut`. -/
def removeOptOut (state : SmsState) (phoneNumber : String) : SmsState :=
  { state with optOuts := state.optOuts.erase phoneNumber }

/-- `checkRateLimit`: the state afterwards, and whether the user is within the limit. -/
def checkRateLimit (state : SmsState) (userId : String) (now : ℕ) : SmsState × Bool :=
  let times := recent rateLimitWindowMs now (state.times userId)
  if rateLimitMax ≤ times.length then (state, false)
  else ({ state with rateLimitMap := state.rateLimitMap.set userId (times ++ [now]) }, true)

/-- `smsLog.create`. -/
def createLog (config : SmsConfig) (state : SmsState) (options : SendSmsOptions) (body : String)
    (status : SmsStatus) (errorMsg : Option String) : SmsState :=
  { state with
    logs := state.logs.set state.nextLog
      { «to» := options.to
        body := body
        templateId := options.templateId
        «variables» := options.variables
        provider := config.provider
        userId := options.userId
        status := status
        messageId := none
        errorMsg := errorMsg }
    nextLog := state.nextLog + 1 }

/-- `smsLog.update`. -/
def updateLog (state : SmsState) (log : ℕ) (f : SmsLog → SmsLog) : SmsState :=
  { state with logs := state.logs.modify log f }

/-! ### Sending -/

/-- How far `sendSms` has got: before it looks whether the number has opted out, before it asks the
rate limiter, before it logs a refusal, before it logs the message, before it hands the message
over, and before it stores what the provider has answered. -/
inductive SmsStage
  | starting
  | looked (body : String) (optedOut : Bool)
  | limited (body : String)
  | admitted (body : String)
  | queued (body : String) (log : ℕ)
  | answered (log : ℕ) (answer : Except String String)
  | finished (result : SmsResult)
  | thrown (error : String)

structure SmsCall where
  options : SendSmsOptions
  stage : SmsStage

/-- One step of `sendSms`, at some time and with the answer of the provider. -/
def smsTurn (config : SmsConfig) (state : SmsState) (call : SmsCall)
    (input : ℕ × Except String String) : SmsState × SmsCall :=
  let options := call.options
  match call.stage with
  | .starting =>
    match resolveBody options with
    | .refused error => (state, ⟨options, .finished ⟨false, none, some error, -1⟩⟩)
    | .thrown error => (state, ⟨options, .thrown error⟩)
    | .text body => (state, ⟨options, .looked body (state.isOptedOut options.to)⟩)
  | .looked body true =>
    (createLog config state options body .blocked (some "Recipient has opted out"),
      ⟨options, .finished ⟨false, none, some "Recipient has opted out (STOP)", state.nextLog⟩⟩)
  | .looked body false =>
    match checkRateLimit state options.userId input.1 with
    | (state', true) => (state', ⟨options, .admitted body⟩)
    | (state', false) => (state', ⟨options, .limited body⟩)
  | .limited body =>
    (createLog config state options body .rateLimited (some "Rate limit exceeded (5/hr)"),
      ⟨options, .finished ⟨false, none, some "Rate limit exceeded: max 5 SMS per hour per user",
        state.nextLog⟩⟩)
  | .admitted body =>
    (createLog config state options body .queued none, ⟨options, .queued body state.nextLog⟩)
  | .queued _ log =>
    (state, ⟨options, .answered log (if config.dryRun then .ok "dry-run" else input.2)⟩)
  | .answered log (.ok messageId) =>
    (updateLog state log fun row => { row with status := .sent, messageId := some messageId },
      ⟨options, .finished ⟨true, some messageId, none, log⟩⟩)
  | .answered log (.error error) =>
    (updateLog state log fun row => { row with status := .failed, errorMsg := some error },
      ⟨options, .finished ⟨false, none, some error, log⟩⟩)
  | .finished _ | .thrown _ => (state, call)

/-! ### Calls that interleave -/

/-- What happens: a call, the next step of a call, or a number opts out or in again. -/
inductive SmsAct
  | send (options : SendSmsOptions)
  | turn (i : ℕ) (answer : Except String String)
  | recordOptOut (phoneNumber : String) (userId : Option String)
  | removeOptOut (phoneNumber : String)

abbrev SmsPool : Type := Pool SmsState SmsCall

/-- What happens at some time. -/
def smsStep (config : SmsConfig) (p : SmsPool) (input : ℕ × SmsAct) : SmsPool :=
  match input.2 with
  | .send options => p.start ⟨options, .starting⟩
  | .turn i answer => p.resume (smsTurn config) i (input.1, answer)
  | .recordOptOut phoneNumber userId => p.act (recordOptOut · phoneNumber userId)
  | .removeOptOut phoneNumber => p.act (removeOptOut · phoneNumber)

@[simp] theorem smsStep_turn (config : SmsConfig) (p : SmsPool) (now i : ℕ)
    (answer : Except String String) :
    smsStep config p (now, .turn i answer) = p.resume (smsTurn config) i (now, answer) := rfl

/-- What can be seen: the rate limiter admits or refuses a message of a user, or a call hands its
message over (or logs it, in a dry run). -/
inductive SmsNote
  | admitted (userId : String) (now : ℕ)
  | refused (userId : String) (now : ℕ)
  | message (call : ℕ) («to» body : String)
  deriving DecidableEq, Repr

/-- What can be seen of a step. -/
def smsNotes (p : SmsPool) (input : ℕ × SmsAct) : List SmsNote :=
  match input with
  | (now, .turn i _) =>
    match p.calls[i]? with
    | some ⟨options, .looked _ false⟩ =>
      if (checkRateLimit p.shared options.userId now).2 then [.admitted options.userId now]
      else [.refused options.userId now]
    | some ⟨options, .queued body _⟩ => [.message i options.to body]
    | _ => []
  | _ => []

end SorobanPay.Sms
