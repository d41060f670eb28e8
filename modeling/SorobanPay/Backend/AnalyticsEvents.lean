import SorobanPay.Foundation.Queries

/-!
# Analytics events

`trackEvent` of `services/analyticsService.ts` looks up the consent of the caller, takes personal
data out of the properties if there is none, and stores the event. A property is recognized by its
name in small letters, which is looked up in `PII_FIELDS`; and seven of the names in there have
capital letters.

The properties of an event are kept as their entries, whose JSON text is what is stored. The times
are in milliseconds. Left open are the values of properties, which are values that JSON can write,
and the digest of an IP address.

## Main definitions

* `sanitizeProperties`, `getConsent`, `hasAnalyticsConsent`, `trackEvent`: the service.
* `IsPii`: the names of personal data, in any case.
* `HasStoredConsent`: what a caller has agreed to.
* `AgreeOutsidePii`: calls that differ in personal data only.

## Main results

* `mem_sanitizeProperties_iff`: what is left of the properties.
* `trackEvent_pii_iff`: when no personal data is stored.
-/

set_option autoImplicit false

namespace SorobanPay.Analytics

open Foundation

/-! ### Personal data -/

/-- `PII_FIELDS`. -/
def piiFields : List String :=
  ["email", "phone", "name", "firstName", "lastName", "first_name", "last_name",
    "address", "city", "state", "zip", "zipCode", "country", "dateOfBirth", "dob",
    "ssn", "passport", "nationalId", "creditCard", "cardNumber"]

/-- `toLowerCase`, as far as it can be told by a comparison with one of the fields: no character
beyond ASCII has a small letter that is in one of them. -/
def toLowerCase (name : String) : String := String.ofList (name.toList.map Char.toLower)

/-- Whether a name is one of the fields up to the case of its letters. -/
def IsPii (name : String) : Prop := toLowerCase name ∈ piiFields.map toLowerCase

instance (name : String) : Decidable (IsPii name) := inferInstanceAs (Decidable (_ ∈ _))

variable {V : Type}

/-- `sanitizeProperties`. What is written to `__proto__` is no property of the result. -/
def sanitizeProperties (properties : List (String × V)) (consentGiven : Bool) :
    List (String × V) :=
  if consentGiven then properties
  else properties.filter fun entry =>
    !piiFields.contains (toLowerCase entry.1) && entry.1 != "__proto__"

/-- The fields that a name in small letters never equals. -/
def capitalizedFields : List String := piiFields.filter fun field => toLowerCase field ≠ field

/-- What is left of the properties. -/
theorem mem_sanitizeProperties_iff {properties : List (String × V)} {entry : String × V} :
    entry ∈ sanitizeProperties properties false ↔
      entry ∈ properties ∧ toLowerCase entry.1 ∉ piiFields ∧ entry.1 ≠ "__proto__" := by
  rw [sanitizeProperties, if_neg (by decide), List.mem_filter]
  simp

/-- A personal name is left if it is one of the fields with capital letters. -/
theorem toLowerCase_notMem_piiFields_iff {name : String} (h : IsPii name) :
    toLowerCase name ∉ piiFields ↔ toLowerCase name ∈ capitalizedFields.map toLowerCase := by
  have hfields : ∀ lowered ∈ piiFields.map toLowerCase,
      lowered ∉ piiFields ↔ lowered ∈ capitalizedFields.map toLowerCase := by decide
  exact hfields _ h

/-! ### Consent -/

/-- A row of `ConsentRecord`. -/
structure ConsentRecord where
  id : ℕ
  userId : Option String
  anonymousId : Option String
  analytics : Bool
  createdAt : ℕ

/-- An identifier that is there and not empty. -/
def truthy (id : Option String) : Option String := id.filter (· ≠ "")

/-- The condition of the query for the consent of a caller. -/
def consentWhere (userId anonymousId : Option String) (record : ConsentRecord) : Bool :=
  match truthy userId, truthy anonymousId with
  | some user, _ => record.userId = some user
  | none, some anonymous => record.anonymousId = some anonymous
  | none, none => true

/-- `getConsent`. -/
def getConsent (records : List ConsentRecord) (userId anonymousId : Option String) :
    Option ConsentRecord :=
  if truthy userId = none ∧ truthy anonymousId = none then none
  else newest? (·.createdAt) (consentWhere userId anonymousId) records

/-- `hasAnalyticsConsent`. -/
def hasAnalyticsConsent (records : List ConsentRecord) (userId anonymousId : Option String) :
    Bool :=
  (getConsent records userId anonymousId).any (·.analytics)

/-- The last choice on record of the user, or of the anonymous caller if there is no user, allows
analytics. -/
def HasStoredConsent (records : List ConsentRecord) (userId anonymousId : Option String) : Prop :=
  (truthy userId ≠ none ∨ truthy anonymousId ≠ none) ∧
    ∃ record ∈ records, consentWhere userId anonymousId record = true ∧ record.analytics = true ∧
      ∀ record' ∈ records, consentWhere userId anonymousId record' = true →
        record'.createdAt ≤ record.createdAt

/-- The service finds no consent that is not stored. -/
theorem hasStoredConsent_of_hasAnalyticsConsent {records : List ConsentRecord}
    {userId anonymousId : Option String}
    (h : hasAnalyticsConsent records userId anonymousId = true) :
    HasStoredConsent records userId anonymousId := by
  rw [hasAnalyticsConsent, Option.any_eq_true] at h
  obtain ⟨record, hrecord, hanalytics⟩ := h
  unfold getConsent at hrecord
  split at hrecord
  · simp at hrecord
  case isFalse hsome =>
    obtain ⟨hmem, hwhere, hnewest⟩ := newest?_eq_some hrecord
    exact ⟨not_and_or.1 hsome, record, hmem, hwhere, hanalytics, hnewest⟩

/-! ### Events -/

structure TrackEventOptions (V : Type) where
  eventName : String
  userId : Option String
  anonymousId : Option String
  sessionId : Option String
  properties : Option (List (String × V))
  page : Option String
  referrer : Option String
  userAgent : Option String
  ip : Option String
  consentGiven : Option Bool

/-- What is stored of an event apart from its id and its time. -/
structure AnalyticsEventData (V : Type) where
  eventName : String
  userId : Option String
  anonymousId : Option String
  sessionId : Option String
  properties : Option (List (String × V))
  page : Option String
  referrer : Option String
  userAgent : Option String
  ipHash : Option String
  consentGiven : Bool

/-- A row of `AnalyticsEvent`. -/
structure AnalyticsEvent (V : Type) extends AnalyticsEventData V where
  id : ℕ
  createdAt : ℤ

/-- The tables of the service. -/
structure AnalyticsDb (V : Type) where
  consentRecords : List ConsentRecord
  events : List (AnalyticsEvent V)
  nextId : ℕ

/-- The names of the properties that are stored. -/
def AnalyticsEventData.propertyNames (data : AnalyticsEventData V) : List String :=
  (data.properties.getD []).map Prod.fst

/-- The names of the properties that are given. -/
def TrackEventOptions.propertyNames (options : TrackEventOptions V) : List String :=
  (options.properties.getD []).map Prod.fst

section Tracking

variable (sha256 : String → String)

/-- `hashIp`. -/
def hashIp (ip : String) : String := String.ofList ((sha256 ip).toList.take 16)

/-- What `trackEvent` stores. -/
def trackedData (records : List ConsentRecord) (options : TrackEventOptions V) :
    AnalyticsEventData V :=
  let consentGiven := options.consentGiven.getD false
  let effectiveConsent :=
    consentGiven || hasAnalyticsConsent records options.userId options.anonymousId
  let safeProps := sanitizeProperties (options.properties.getD []) effectiveConsent
  { eventName := options.eventName
    userId := options.userId
    anonymousId := options.anonymousId
    sessionId := options.sessionId
    properties := if 0 < safeProps.length then some safeProps else none
    page := options.page
    referrer := options.referrer
    userAgent := options.userAgent
    ipHash := (truthy options.ip).map (hashIp sha256)
    consentGiven := effectiveConsent }

/-- `trackEvent`. -/
def trackEvent (db : AnalyticsDb V) (now : ℤ) (options : TrackEventOptions V) :
    ℕ × AnalyticsDb V :=
  let event : AnalyticsEvent V :=
    { trackedData sha256 db.consentRecords options with id := db.nextId, createdAt := now }
  (event.id, { db with events := db.events ++ [event], nextId := db.nextId + 1 })

/-- The events that a call adds, apart from their ids and times. -/
def storedData (db : AnalyticsDb V) (now : ℤ) (options : TrackEventOptions V) :
    List (AnalyticsEventData V) :=
  ((trackEvent sha256 db now options).2.events.drop db.events.length).map
    (·.toAnalyticsEventData)

end Tracking

/-! ### Two calls -/

/-- Neither the call nor the records allow analytics. -/
def WithoutConsent (db : AnalyticsDb V) (options : TrackEventOptions V) : Prop :=
  options.consentGiven.getD false = false ∧
    ¬HasStoredConsent db.consentRecords options.userId options.anonymousId

/-- The calls differ in the values of personal properties only. -/
structure AgreeOutsidePii (options options' : TrackEventOptions V) : Prop where
  same : ({ options with properties := none, consentGiven := none } : TrackEventOptions V) =
    { options' with properties := none, consentGiven := none }
  properties : List.Forall₂ (fun entry entry' => entry.1 = entry'.1 ∧
    (¬IsPii entry.1 → entry.2 = entry'.2))
      (options.properties.getD []) (options'.properties.getD [])

section Theorems

variable {sha256 : String → String} {db db' : AnalyticsDb V}
  {options options' : TrackEventOptions V}

/-- A call adds one event. -/
theorem storedData_eq (now : ℤ) :
    storedData sha256 db now options = [trackedData sha256 db.consentRecords options] := by
  rw [storedData, trackEvent, List.drop_left]
  rfl

/-- Without consent the properties are sanitized. -/
theorem trackedData_of_withoutConsent (h : WithoutConsent db options) :
    trackedData sha256 db.consentRecords options =
      { eventName := options.eventName
        userId := options.userId
        anonymousId := options.anonymousId
        sessionId := options.sessionId
        properties :=
          if 0 < (sanitizeProperties (options.properties.getD []) false).length then
            some (sanitizeProperties (options.properties.getD []) false)
          else none
        page := options.page
        referrer := options.referrer
        userAgent := options.userAgent
        ipHash := (truthy options.ip).map (hashIp sha256)
        consentGiven := false } := by
  have hnone : hasAnalyticsConsent db.consentRecords options.userId options.anonymousId = false :=
    Bool.eq_false_iff.2 fun htrue => h.2 (hasStoredConsent_of_hasAnalyticsConsent htrue)
  simp only [trackedData, h.1, hnone, Bool.or_self]

theorem mem_propertyNames_trackedData_iff (h : WithoutConsent db options) {name : String} :
    name ∈ (trackedData sha256 db.consentRecords options).propertyNames ↔
      name ∈ options.propertyNames ∧ toLowerCase name ∉ piiFields ∧ name ≠ "__proto__" := by
  have hstored : (trackedData sha256 db.consentRecords options).properties.getD [] =
      sanitizeProperties (options.properties.getD []) false := by
    rw [trackedData_of_withoutConsent h]
    rcases sanitizeProperties (options.properties.getD []) false with _ | ⟨entry, entries⟩ <;> rfl
  rw [AnalyticsEventData.propertyNames, hstored, TrackEventOptions.propertyNames]
  simp only [List.mem_map, mem_sanitizeProperties_iff]
  constructor
  · rintro ⟨entry, ⟨hmem, hkept⟩, rfl⟩
    exact ⟨⟨entry, hmem, rfl⟩, hkept⟩
  · rintro ⟨⟨entry, hmem, rfl⟩, hkept⟩
    exact ⟨entry, ⟨hmem, hkept⟩, rfl⟩

/-- Without a field with capital letters, the same is left of properties that differ in personal
data. -/
theorem sanitizeProperties_eq_of_forall₂ {properties properties' : List (String × V)}
    (h : List.Forall₂ (fun entry entry' => entry.1 = entry'.1 ∧
      (¬IsPii entry.1 → entry.2 = entry'.2)) properties properties')
    (hnames : ∀ name ∈ properties.map Prod.fst,
      toLowerCase name ∉ capitalizedFields.map toLowerCase) :
    sanitizeProperties properties false = sanitizeProperties properties' false := by
  simp only [sanitizeProperties, Bool.false_eq_true, if_false]
  induction h with
  | nil => rfl
  | @cons entry entry' properties properties' hentry _ ih =>
    obtain ⟨name, value⟩ := entry
    obtain ⟨name', value'⟩ := entry'
    obtain ⟨rfl, hvalue⟩ := hentry
    have hrest := ih fun other hother => hnames other (List.mem_cons_of_mem _ hother)
    have hname := hnames name List.mem_cons_self
    by_cases hpii : IsPii name
    · have hlisted : toLowerCase name ∈ piiFields :=
        not_not.1 fun hnot => hname ((toLowerCase_notMem_piiFields_iff hpii).1 hnot)
      rw [List.filter_cons_of_neg (by simp [hlisted]), List.filter_cons_of_neg (by simp [hlisted]),
        hrest]
    · obtain rfl : value = value' := hvalue hpii
      rw [List.filter_cons, List.filter_cons, hrest]

/-- **No personal data without consent**: two calls without consent that differ in personal data
only store the same, with no personal property in it, if and only if no property is named after one
of the fields with capital letters. -/
theorem trackEvent_pii_iff (sha256 : String → String) (db db' : AnalyticsDb V) (now now' : ℤ)
    (options options' : TrackEventOptions V) (hagree : AgreeOutsidePii options options')
    (hconsent : WithoutConsent db options) (hconsent' : WithoutConsent db' options') :
    (storedData sha256 db now options = storedData sha256 db' now' options' ∧
        ∀ data ∈ storedData sha256 db now options, ∀ name ∈ data.propertyNames, ¬IsPii name) ↔
      ∀ name ∈ options.propertyNames,
        toLowerCase name ∉ capitalizedFields.map toLowerCase := by
  rw [storedData_eq, storedData_eq, List.forall_mem_singleton, List.cons.injEq]
  constructor
  · rintro ⟨-, hclean⟩ name hname hcapitalized
    have hpii : IsPii name :=
      List.map_subset _ (List.filter_subset_self _) hcapitalized
    have hkept := (toLowerCase_notMem_piiFields_iff hpii).2 hcapitalized
    have hproto : name ≠ "__proto__" := by
      rintro rfl
      exact absurd hpii (by decide)
    exact hclean name ((mem_propertyNames_trackedData_iff hconsent).2 ⟨hname, hkept, hproto⟩) hpii
  · intro hnames
    refine ⟨⟨?_, rfl⟩, fun name hname hpii => ?_⟩
    · have hprops := sanitizeProperties_eq_of_forall₂ hagree.properties hnames
      have hsame := hagree.same
      simp only [TrackEventOptions.mk.injEq] at hsame
      obtain ⟨hevent, huser, hanonymous, hsession, -, hpage, hreferrer, hagent, hip, -⟩ := hsame
      rw [trackedData_of_withoutConsent hconsent, trackedData_of_withoutConsent hconsent', hprops,
        hevent, huser, hanonymous, hsession, hpage, hreferrer, hagent, hip]
    · obtain ⟨hgiven, hkept, -⟩ := (mem_propertyNames_trackedData_iff hconsent).1 hname
      exact hnames name hgiven ((toLowerCase_notMem_piiFields_iff hpii).1 hkept)

end Theorems

/-- A call of an anonymous visitor. -/
def signup (properties : List (String × String)) : TrackEventOptions String where
  eventName := "signup"
  userId := none
  anonymousId := none
  sessionId := none
  properties := some properties
  page := none
  referrer := none
  userAgent := none
  ip := none
  consentGiven := none

/-- Nothing has been stored. -/
def emptyDb : AnalyticsDb String := ⟨[], [], 1⟩

theorem withoutConsent_signup (properties : List (String × String)) :
    WithoutConsent emptyDb (signup properties) :=
  ⟨rfl, fun h => h.1.elim (fun hne => hne rfl) fun hne => hne rfl⟩

theorem trackEvent_pii_iff_sample :
    storedData id emptyDb 0 (signup [("E-Mail", "x"), ("EMAIL", "a@a.org")]) =
      storedData id emptyDb 1 (signup [("E-Mail", "x"), ("EMAIL", "b@b.org")]) :=
  ((trackEvent_pii_iff id emptyDb emptyDb 0 1 _ _
    ⟨rfl, .cons ⟨rfl, fun _ => rfl⟩ (.cons ⟨rfl, fun h => absurd (by decide) h⟩ .nil)⟩
    (withoutConsent_signup _) (withoutConsent_signup _)).2 (by decide)).1

/-- A first name is stored, and tells two calls apart. -/
theorem storedData_firstName :
    AgreeOutsidePii (signup [("firstName", "Ann")]) (signup [("firstName", "Bob")]) ∧
      WithoutConsent emptyDb (signup [("firstName", "Ann")]) ∧
      WithoutConsent emptyDb (signup [("firstName", "Bob")]) ∧
      storedData id emptyDb 0 (signup [("firstName", "Ann")]) ≠
        storedData id emptyDb 0 (signup [("firstName", "Bob")]) ∧
      (∃ data ∈ storedData id emptyDb 0 (signup [("firstName", "Ann")]),
        "firstName" ∈ data.propertyNames) ∧ IsPii "firstName" := by
  refine ⟨⟨rfl, .cons ⟨rfl, fun h => absurd (by decide) h⟩ .nil⟩, withoutConsent_signup _,
    withoutConsent_signup _, fun h => ?_, ⟨_, List.mem_singleton_self _, by decide⟩, by decide⟩
  have hproperties := congrArg (List.map AnalyticsEventData.properties) h
  revert hproperties
  decide

end SorobanPay.Analytics
