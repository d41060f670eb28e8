import SorobanPay.Frontend.NativeValues

/-!
# Filters of events

The events that an endpoint is sent are stored with it as a list with commas. `notifyWebhooks` and
`isEventAllowed` of `services/webhookNotifier.ts` both read this list, and `routes/
webhookRegistrations.ts` writes it. A list that has nothing but blanks in it means every event to
`isEventAllowed`, and none to `notifyWebhooks`.

Whether a text is a URL, and whether the host answers, is part of the input, and so is the secret
of a new endpoint.

## Main definitions

* `segments`, `isEventAllowed`, `isApplicable`: the two readings of a list.
* `applicableTo`: the endpoints that an event is sent to.
* `createWebhookSchema`, `registerWebhook`: the registration.
* `FilterExact`: the lists that both read alike.

## Main results

* `applicableTo_eq_applicableEndpoints`: these are the endpoints of `notifyWebhooks`.
* `isApplicable_joinEvents_iff`: a registered list.
* `eventFilters_iff`: when both readings agree.
-/

set_option autoImplicit false

namespace SorobanPay.EventFilters

open WebhookNotifier Frontend

/-! ### Two readings -/

/-- `split(',').map((e) => e.trim())`. -/
def segments (events : String) : List (List Char) := (events.toList.splitOn ',').map trim

/-- `isEventAllowed`. -/
def isEventAllowed (endpointEvents : Option String) (eventType : String) : Bool :=
  match endpointEvents with
  | none => true
  | some events =>
    if events = "" ∨ trim events.toList = [] then true
    else ((segments events).filter (· ≠ [])).contains eventType.toList

/-- The filter in `notifyWebhooks`. -/
def isApplicable (epEvents : Option String) (event : String) : Bool :=
  match epEvents with
  | none => true
  | some events => if events = "" then true else (segments events).contains event.toList

/-- The endpoints that `notifyWebhooks` sends an event of a merchant to. -/
def applicableTo (endpoints : List WebhookEndpoint) (merchant event : String) :
    List WebhookEndpoint :=
  (endpoints.filter fun ep => ep.merchant = merchant ∧ ep.active = true).filter fun ep =>
    isApplicable (some ep.events) event

theorem isApplicable_eq_wants (ep : WebhookEndpoint) (event : WebhookEventType) :
    isApplicable (some ep.events) event.name = decide (ep.Wants event) := by
  simp only [isApplicable, WebhookEndpoint.Wants, segments]
  by_cases hempty : ep.events = ""
  · simp [hempty]
  · simp [hempty, List.contains_eq_mem]

/-- For the events of the service, these are the endpoints that it delivers to. -/
theorem applicableTo_eq_applicableEndpoints (endpoints : List WebhookEndpoint)
    (payload : WebhookPayload) :
    applicableTo endpoints payload.merchant payload.event.name =
      applicableEndpoints endpoints payload := by
  simp only [applicableTo, applicableEndpoints, isApplicable_eq_wants]

/-- An active endpoint of the merchant is sent what its filter lets through. -/
theorem mem_applicableTo_iff {endpoints : List WebhookEndpoint} {ep : WebhookEndpoint}
    (hep : ep ∈ endpoints) (hactive : ep.active = true) (event : String) :
    ep ∈ applicableTo endpoints ep.merchant event ↔
      isApplicable (some ep.events) event = true := by
  rw [applicableTo, List.mem_filter, List.mem_filter]
  simp [hep, hactive]

/-! ### Registration -/

/-- `VALID_EVENT_TYPES`. -/
inductive EventType
  | paymentExecuted
  | paymentFailed
  | subscriptionCancelled
  | subscriptionCreated
  | subscriptionUpdated
  deriving DecidableEq, Repr

def EventType.name : EventType → String
  | .paymentExecuted => "payment.executed"
  | .paymentFailed => "payment.failed"
  | .subscriptionCancelled => "subscription.cancelled"
  | .subscriptionCreated => "subscription.created"
  | .subscriptionUpdated => "subscription.updated"

def validEventTypes : List EventType :=
  [.paymentExecuted, .paymentFailed, .subscriptionCancelled, .subscriptionCreated,
    .subscriptionUpdated]

/-- The body of a registration. -/
structure RegistrationBody where
  url : String
  events : Option (List String)
  active : Option Bool

/-- What the schema makes of a body. -/
structure RegistrationData where
  url : String
  events : List EventType
  active : Bool
  nonempty : events ≠ []

/-- The event types of a list of texts, if all of them are valid. -/
def parseEventTypes (texts : List String) : Option (List EventType) :=
  texts.mapM fun text => validEventTypes.find? fun t => t.name = text

/-- `createWebhookSchema`. -/
def createWebhookSchema (isUrl : String → Bool) (body : RegistrationBody) :
    Option RegistrationData :=
  let texts := body.events.getD ["payment.executed", "payment.failed"]
  match parseEventTypes texts with
  | none => none
  | some events =>
    if h : isUrl body.url = true ∧ events ≠ [] then
      some ⟨body.url, events, body.active.getD true, h.2⟩
    else none

/-- How the handler of a POST answers. -/
inductive RegistrationReply
  | invalidBody
  | unreachable
  | alreadyExists
  | created (endpoint : WebhookEndpoint)

/-- `events.join(',')`. -/
def joinEvents (events : List EventType) : String :=
  String.ofList ([','].intercalate (events.map fun t => t.name.toList))

/-- The handler of a POST. -/
def registerWebhook (isUrl reachable : String → Bool) (endpoints : List WebhookEndpoint)
    (id : ℕ) (secret merchantAddress : String) (body : RegistrationBody) : RegistrationReply :=
  match createWebhookSchema isUrl body with
  | none => .invalidBody
  | some data =>
    if reachable data.url = false then .unreachable
    else if endpoints.any fun ep => ep.merchant = merchantAddress ∧ ep.url = data.url then
      .alreadyExists
    else
      .created
        { id
          merchant := merchantAddress
          url := data.url
          active := data.active
          secret := some secret
          events := joinEvents data.events }

/-- What is registered is what the body lists, or the two types of payments. -/
theorem map_name_parseEventTypes {texts : List String} {events : List EventType}
    (h : parseEventTypes texts = some events) : events.map EventType.name = texts := by
  induction texts generalizing events with
  | nil =>
    obtain rfl : [] = events := by simpa [parseEventTypes] using h
    rfl
  | cons text texts ih =>
    rw [parseEventTypes, List.mapM_cons] at h
    rcases hfind : validEventTypes.find? fun t => t.name = text with _ | t
    · simp [hfind] at h
    rcases hrest : parseEventTypes texts with _ | rest
    · rw [parseEventTypes] at hrest
      simp [hfind, hrest] at h
    · have htail := ih hrest
      rw [parseEventTypes] at hrest
      obtain rfl : t :: rest = events := by simpa [hfind, hrest] using h
      have hname : t.name = text := of_decide_eq_true (List.find?_eq_some_iff_append.1 hfind).1
      rw [List.map_cons, hname, htail]

/-- A new endpoint stores a list of one or more types: those in the body. -/
theorem exists_joinEvents_of_created {isUrl reachable : String → Bool}
    {endpoints : List WebhookEndpoint} {id : ℕ} {secret merchantAddress : String}
    {body : RegistrationBody} {ep : WebhookEndpoint}
    (h : registerWebhook isUrl reachable endpoints id secret merchantAddress body = .created ep) :
    ∃ events, events ≠ [] ∧ ep.events = joinEvents events ∧
      events.map EventType.name = body.events.getD ["payment.executed", "payment.failed"] := by
  unfold registerWebhook at h
  split at h
  · cases h
  case h_2 data hdata =>
    split_ifs at h
    cases h
    refine ⟨data.events, data.nonempty, rfl, ?_⟩
    simp only [createWebhookSchema] at hdata
    split at hdata
    · cases hdata
    case h_2 events hevents =>
      split_ifs at hdata
      cases hdata
      exact map_name_parseEventTypes hevents

/-! ### When the readings agree -/

/-- No text is read in two ways: if the event has a name, the list is empty or has more than blanks
in it, and if it has none, the list has no empty segment next to others. -/
def FilterExact (events event : String) : Prop :=
  (event ≠ "" → events = "" ∨ trim events.toList ≠ []) ∧
    (event = "" → [] ∈ segments events → trim events.toList = [])

/-- A list of blanks is one empty segment. -/
theorem segments_of_blank {events : String} (h : trim events.toList = []) :
    segments events = [[]] := by
  have hcomma : ',' ∉ events.toList := fun hmem => by
    have := mem_trim hmem (by decide)
    rw [h] at this
    exact absurd this List.not_mem_nil
  rw [segments, List.splitOn_eq_singleton hcomma, List.map_singleton, h]

theorem toList_eq_nil_iff {text : String} : text.toList = [] ↔ text = "" :=
  String.toList_eq_nil_iff

/-- The two readings agree on the lists that are exact. -/
theorem isApplicable_iff_isEventAllowed_iff (events event : String) :
    (isApplicable (some events) event = true ↔ isEventAllowed (some events) event = true) ↔
      FilterExact events event := by
  have hevent : event.toList = [] ↔ event = "" := toList_eq_nil_iff
  simp only [isApplicable, isEventAllowed, FilterExact]
  by_cases hempty : events = ""
  · subst hempty
    simp [trim]
  by_cases hblank : trim events.toList = []
  · simp [hempty, hblank, segments_of_blank hblank, hevent]
  · by_cases hname : event = ""
    · subst hname
      simp [hempty, hblank]
    · simp [hempty, hblank, hname, hevent]

/-- The list that is registered has the names of the types as its segments. -/
theorem segments_joinEvents {events : List EventType} (h : events ≠ []) :
    segments (joinEvents events) = events.map fun t => t.name.toList := by
  have hcomma : ∀ name ∈ events.map fun t => t.name.toList, ',' ∉ name := by
    intro name hname
    obtain ⟨t, -, rfl⟩ := List.mem_map.1 hname
    cases t <;> decide
  rw [segments, joinEvents, String.toList_ofList, List.splitOn_intercalate ',' hcomma (by simpa),
    List.map_map]
  have hunpadded : ∀ t : EventType, (t.name.toList.all fun c => !isTrimmed c) = true := by
    intro t
    cases t <;> decide
  refine List.map_congr_left fun t _ => trim_eq_self fun c hc => ?_
  simpa using List.all_eq_true.1 (hunpadded t) c hc

/-- **A registered list** lets through exactly the types that are in it. -/
theorem isApplicable_joinEvents_iff {events : List EventType} (h : events ≠ []) (event : String) :
    isApplicable (some (joinEvents events)) event = true ↔ event ∈ events.map EventType.name := by
  have hne : joinEvents events ≠ "" := by
    intro hempty
    have hsegments := segments_joinEvents h
    rw [hempty, show segments "" = [[]] from rfl] at hsegments
    obtain ⟨t, hevents⟩ : ∃ t, events = [t] := by
      rw [← List.length_eq_one_iff, ← List.length_map, ← hsegments]
      rfl
    subst hevents
    cases t <;> exact absurd hsegments (by decide)
  simp only [isApplicable, if_neg hne, segments_joinEvents h, List.contains_eq_mem,
    decide_eq_true_eq, List.mem_map, String.toList_inj]

/-- **Event filters**: an active endpoint of the merchant is sent an event exactly if
`isEventAllowed` says so, and exactly the registered types if its list comes from a registration,
if and only if its list is exact for the event. -/
theorem eventFilters_iff (endpoints : List WebhookEndpoint) (ep : WebhookEndpoint)
    (hep : ep ∈ endpoints) (hactive : ep.active = true) (event : String) :
    ((ep ∈ applicableTo endpoints ep.merchant event ↔
          isEventAllowed (some ep.events) event = true) ∧
        ∀ (isUrl reachable : String → Bool) (others : List WebhookEndpoint) (id : ℕ)
          (secret merchantAddress : String) (body : RegistrationBody),
          registerWebhook isUrl reachable others id secret merchantAddress body = .created ep →
            (ep ∈ applicableTo endpoints ep.merchant event ↔
              event ∈ body.events.getD ["payment.executed", "payment.failed"])) ↔
      FilterExact ep.events event := by
  rw [mem_applicableTo_iff hep hactive, isApplicable_iff_isEventAllowed_iff]
  refine and_iff_left fun isUrl reachable others id secret merchantAddress body hcreated => ?_
  obtain ⟨events, hne, hevents, hnames⟩ := exists_joinEvents_of_created hcreated
  rw [hevents, isApplicable_joinEvents_iff hne, hnames]

/-- An endpoint with a list of its own. -/
def endpointWith (events : String) : WebhookEndpoint :=
  ⟨1, "M", "url", true, none, events⟩

theorem eventFilters_iff_sample :
    endpointWith " payment.executed,,payment.failed " ∈
        applicableTo [endpointWith " payment.executed,,payment.failed "] "M" "payment.failed" ↔
      isEventAllowed (some " payment.executed,,payment.failed ") "payment.failed" = true :=
  ((eventFilters_iff [endpointWith " payment.executed,,payment.failed "] _ List.mem_cons_self rfl
    "payment.failed").2 ⟨fun _ => Or.inr (by decide), fun h => absurd h (by decide)⟩).1

/-- A list with nothing but a blank in it. -/
theorem blank_filter :
    isEventAllowed (some " ") "payment.executed" = true ∧
      endpointWith " " ∉ applicableTo [endpointWith " "] "M" "payment.executed" := by
  decide

end SorobanPay.EventFilters
