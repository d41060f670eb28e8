import SorobanPay.Foundation.KeysetPages
import SorobanPay.Foundation.Queries
import SorobanPay.Backend.AnalyticsEvents
import SorobanPay.Backend.DryRuns

/-!
# Pages of analytics events

`getPaginatedEvents` of `services/analyticsService.ts` reads the events of a tenant, who is stored
as their user, in pages. The order is that of the times and, among equal times, of the ids; the
cursor is the id of the last event on the page, and the next page is what has a later id.

A client follows the cursors of the pages from a first call without one, with the same limit and
direction in each call. The events do not change meanwhile.

## Main definitions

* `encodeIdCursor`, `decodeIdCursor`, `getPaginatedEvents`: the service.
* `pageRequest`: a call of the client.
* `PagesComplete`: what the client is to see.

## Main results

* `pageRequest_eq`: a page is a page after a key.
* `exists_pages`: following the cursors ends.
* `pagesComplete_iff`: when all events are seen.
-/

set_option autoImplicit false

namespace SorobanPay.Analytics

open Foundation

/-! ### Cursors -/

/-- `encodeIdCursor`. -/
def encodeIdCursor (id : ℕ) : String := base64urlText (utf8Bytes (toString id))

/-- `decodeIdCursor`. What throws has no result. -/
def decodeIdCursor (cursor : String) : Option ℕ :=
  match RetryQueue.parseInt (utf8Text (base64Decode cursor)) with
  | some n => if n ≤ 0 then none else some n.toNat
  | none => none

theorem decodeIdCursor_encodeIdCursor {id : ℕ} (h : 0 < id) :
    decodeIdCursor (encodeIdCursor id) = some id := by
  rw [decodeIdCursor, encodeIdCursor, base64Decode_base64urlText, utf8Text_utf8Bytes]
  simp only [parseInt_toString, Int.toNat_natCast]
  exact if_neg (by omega)

theorem encodeIdCursor_ne_empty (id : ℕ) : encodeIdCursor id ≠ "" := encodeCursor_ne_empty id

/-! ### Pages -/

inductive PageDirection
  | forward
  | backward
  deriving DecidableEq, Repr

/-- `CursorOptions`. -/
structure CursorOptions where
  cursor : Option String
  limit : Option ℤ
  direction : Option PageDirection

/-- `AnalyticsEventItem`. -/
structure AnalyticsEventItem (V : Type) where
  id : ℕ
  eventName : String
  page : Option String
  properties : Option (List (String × V))
  createdAt : ℤ

/-- `CursorPage`. -/
structure CursorPage (V : Type) where
  items : List (AnalyticsEventItem V)
  nextCursor : Option String
  prevCursor : Option String
  total : ℕ
  pageSize : ℕ

variable {V : Type}

/-- What is selected of an event. -/
def AnalyticsEvent.item (event : AnalyticsEvent V) : AnalyticsEventItem V where
  id := event.id
  eventName := event.eventName
  page := event.page
  properties := event.properties
  createdAt := event.createdAt

/-- `orderBy: [{ createdAt: orderDir }, { id: orderDir }]`. -/
def EventLe : PageDirection → AnalyticsEvent V → AnalyticsEvent V → Prop
  | .forward, a, b => a.createdAt < b.createdAt ∨ a.createdAt = b.createdAt ∧ a.id ≤ b.id
  | .backward, a, b => b.createdAt < a.createdAt ∨ b.createdAt = a.createdAt ∧ b.id ≤ a.id

instance (direction : PageDirection) : DecidableRel (EventLe (V := V) direction) := fun _ _ =>
  match direction with
  | .forward => inferInstanceAs (Decidable (_ ∨ _))
  | .backward => inferInstanceAs (Decidable (_ ∨ _))

/-- `{ gt: pivotId }` or `{ lt: pivotId }`. -/
def PastId : PageDirection → ℕ → ℕ → Prop
  | .forward, pivotId, id => pivotId < id
  | .backward, pivotId, id => id < pivotId

instance (direction : PageDirection) : DecidableRel (PastId direction) := fun _ _ =>
  match direction with
  | .forward => inferInstanceAs (Decidable (_ < _))
  | .backward => inferInstanceAs (Decidable (_ < _))

/-- The size of a page, 50 if no limit is given and at most 200. -/
def pageLimit (limit : Option ℤ) : ℕ := (min (max 1 (limit.getD 50)) 200).toNat

/-- The page after an id. -/
def pageAfter (events : List (AnalyticsEvent V)) (tenantId : String) (limit : ℕ)
    (direction : PageDirection) (pivotId : Option ℕ) : CursorPage V :=
  let found := ((events.filter fun event => event.userId = some tenantId ∧
    pivotId.all fun p => decide (PastId direction p event.id)).insertionSort
      (EventLe direction)).take (limit + 1)
  let hasMore := limit < found.length
  let items := if hasMore then found.dropLast else found
  { items := items.map AnalyticsEvent.item
    nextCursor := if hasMore then items.getLast?.map fun event => encodeIdCursor event.id else none
    prevCursor :=
      if pivotId.isSome then items.head?.map fun event => encodeIdCursor event.id else none
    total := (events.filter fun event => event.userId = some tenantId).length
    pageSize := items.length }

/-- `getPaginatedEvents`. The empty cursor counts as none. -/
def getPaginatedEvents (events : List (AnalyticsEvent V)) (tenantId : String)
    (options : CursorOptions) : Except String (CursorPage V) :=
  let limit := pageLimit options.limit
  let direction := options.direction.getD .forward
  match options.cursor.filter (· ≠ "") with
  | none => .ok (pageAfter events tenantId limit direction none)
  | some cursor =>
    match decodeIdCursor cursor with
    | none => .error "Invalid cursor"
    | some pivotId => .ok (pageAfter events tenantId limit direction (some pivotId))

/-- A call of the client: the items of the page, and the next cursor. -/
def pageRequest (events : List (AnalyticsEvent V)) (tenantId : String) (limit : Option ℤ)
    (direction : PageDirection) (cursor : Option String) :
    Option (List (AnalyticsEventItem V) × Option String) :=
  match getPaginatedEvents events tenantId ⟨cursor, limit, some direction⟩ with
  | .ok page => some (page.items, page.nextCursor)
  | .error _ => none

/-- Following the cursors ends, and the pages show the events of the tenant, each once and in order,
and no others. -/
def PagesComplete (events : List (AnalyticsEvent V)) (tenantId : String) (limit : Option ℤ)
    (direction : PageDirection) : Prop :=
  ∃ pages, Follows (pageRequest events tenantId limit direction) none pages ∧
    ∃ rows : List (AnalyticsEvent V), pages.flatten = rows.map AnalyticsEvent.item ∧
      rows.Perm (events.filter fun event => event.userId = some tenantId) ∧
      rows.Pairwise (EventLe direction)

/-- The events of a tenant in order. -/
def tenantEvents (events : List (AnalyticsEvent V)) (tenantId : String)
    (direction : PageDirection) : List (AnalyticsEvent V) :=
  (events.filter fun event => event.userId = some tenantId).insertionSort (EventLe direction)

/-- Where a page ends and there are more events, the id of the last event is the last so far, and
before the ids of all events that are left. -/
def IdsSplit (events : List (AnalyticsEvent V)) (tenantId : String) (limit : Option ℤ)
    (direction : PageDirection) : Prop :=
  ∀ k, 0 < k → k * pageLimit limit < (tenantEvents events tenantId direction).length →
    SplitAt AnalyticsEvent.id (PastId direction) (tenantEvents events tenantId direction)
      (k * pageLimit limit)

/-! ### The order -/

instance (direction : PageDirection) : IsTrans (AnalyticsEvent V) (EventLe direction) :=
  ⟨fun a b c hab hbc => by cases direction <;> simp only [EventLe] at * <;> omega⟩

instance (direction : PageDirection) : Std.Total (EventLe (V := V) direction) :=
  ⟨fun a b => by cases direction <;> simp only [EventLe] <;> omega⟩

theorem not_pastId_self (direction : PageDirection) (id : ℕ) : ¬PastId direction id id := by
  cases direction <;> simp [PastId]

theorem PastId.trans {direction : PageDirection} (i j k : ℕ) (hij : PastId direction i j)
    (hjk : PastId direction j k) : PastId direction i k := by
  cases direction <;> simp only [PastId] at * <;> omega

theorem pageLimit_pos (limit : Option ℤ) : 0 < pageLimit limit := by
  unfold pageLimit
  omega

section Table

variable {events : List (AnalyticsEvent V)} (hids : (events.map AnalyticsEvent.id).Nodup)

include hids

/-- Events of one id are one event. -/
theorem eq_of_id_eq {a b : AnalyticsEvent V} (ha : a ∈ events) (hb : b ∈ events)
    (h : a.id = b.id) : a = b :=
  List.inj_on_of_nodup_map hids ha hb h

theorem eventLe_antisymm {direction : PageDirection} {a b : AnalyticsEvent V} (ha : a ∈ events)
    (hb : b ∈ events) (hab : EventLe direction a b) (hba : EventLe direction b a) : a = b := by
  refine eq_of_id_eq hids ha hb ?_
  cases direction <;> simp only [EventLe] at hab hba <;> omega

omit hids in
theorem mem_tenantEvents_iff {tenantId : String} {direction : PageDirection}
    {event : AnalyticsEvent V} :
    event ∈ tenantEvents events tenantId direction ↔
      event ∈ events ∧ event.userId = some tenantId := by
  rw [tenantEvents, List.mem_insertionSort, List.mem_filter, decide_eq_true_eq]

theorem nodup_tenantEvents (tenantId : String) (direction : PageDirection) :
    (tenantEvents events tenantId direction).Nodup :=
  (List.perm_insertionSort _ _).nodup_iff.2 ((List.Nodup.of_map _ hids).filter _)

omit hids in
/-- The page after an id is the page of the tenant's events after the key. -/
theorem pageAfter_eq (tenantId : String) (limit : ℕ) (direction : PageDirection)
    (pivotId : Option ℕ) :
    (pageAfter events tenantId limit direction pivotId).items =
        (keysetPage AnalyticsEvent.id (PastId direction) limit
          (tenantEvents events tenantId direction) pivotId).1.map AnalyticsEvent.item ∧
      (pageAfter events tenantId limit direction pivotId).nextCursor =
        (keysetPage AnalyticsEvent.id (PastId direction) limit
          (tenantEvents events tenantId direction) pivotId).2.map encodeIdCursor := by
  have hfound : (events.filter fun event => event.userId = some tenantId ∧
      pivotId.all fun p => decide (PastId direction p event.id)).insertionSort
        (EventLe direction) =
      pastPivot AnalyticsEvent.id (PastId direction) (tenantEvents events tenantId direction)
        pivotId := by
    rw [pastPivot, tenantEvents, ← filter_insertionSort, List.filter_filter]
    congr 1
    refine List.filter_congr fun event _ => ?_
    rw [Bool.decide_and, Bool.decide_eq_true, Bool.and_comm]
  simp only [pageAfter, hfound, keysetPage]
  generalize pastPivot AnalyticsEvent.id (PastId direction)
    (tenantEvents events tenantId direction) pivotId = found
  by_cases hmore : limit < found.length
  · have htaken : limit < (found.take (limit + 1)).length := by
      rw [List.length_take]
      omega
    have hitems : (found.take (limit + 1)).dropLast = found.take limit := by
      rw [List.dropLast_eq_take, List.length_take, List.take_take]
      congr 1
      omega
    simp only [if_pos htaken, if_pos hmore, hitems, Option.map_map, Function.comp_def, and_self]
  · have htaken : ¬limit < (found.take (limit + 1)).length := by
      rw [List.length_take]
      omega
    have hitems : found.take (limit + 1) = found.take limit := by
      rw [List.take_of_length_le (by omega), List.take_of_length_le (by omega)]
    simp only [if_neg htaken, if_neg hmore, Option.map_none, and_true]
    rw [hitems]

/-! ### Following the cursors -/

variable (hpos : ∀ event ∈ events, 0 < event.id)

include hpos

omit hids in
/-- A call with the cursor of an id. -/
theorem pageRequest_eq (tenantId : String) (limit : Option ℤ) (direction : PageDirection)
    {cursor : Option ℕ} (hcursor : ∀ id ∈ cursor, 0 < id) {page : List (AnalyticsEvent V)}
    {next : Option ℕ}
    (h : some (keysetPage AnalyticsEvent.id (PastId direction) (pageLimit limit)
      (tenantEvents events tenantId direction) cursor) = some (page, next)) :
    (∀ id ∈ next, 0 < id) ∧
      pageRequest events tenantId limit direction (cursor.map encodeIdCursor) =
        some (page.map AnalyticsEvent.item, next.map encodeIdCursor) := by
  have hpage := Option.some.inj h
  constructor
  · intro id hid
    have hnext := congrArg Prod.snd hpage
    simp only [keysetPage] at hnext
    rw [Option.mem_def.1 hid] at hnext
    split_ifs at hnext
    obtain ⟨last, hlast, rfl⟩ := Option.map_eq_some_iff.1 hnext
    have hmem := mem_pastPivot_iff.1 (List.mem_of_mem_take (List.mem_of_getLast? hlast))
    exact hpos _ (mem_tenantEvents_iff.1 hmem.1).1
  · obtain ⟨hitems, hcursors⟩ := pageAfter_eq tenantId (pageLimit limit) direction cursor
    rw [hpage] at hitems hcursors
    rw [pageRequest, getPaginatedEvents, Option.getD_some]
    cases cursor with
    | none => simp only [Option.map_none, Option.filter_none, hitems, hcursors]
    | some id =>
      have hfilter : (some (encodeIdCursor id)).filter (· ≠ "") = some (encodeIdCursor id) := by
        simp [Option.filter, encodeIdCursor_ne_empty]
      simp only [Option.map_some, hfilter, decodeIdCursor_encodeIdCursor (hcursor id rfl), hitems,
        hcursors]

omit hids in
/-- **Following the cursors ends**, with the pages after the keys. -/
theorem exists_pages (tenantId : String) (limit : Option ℤ) (direction : PageDirection) :
    ∃ keyPages,
      Follows (fun cursor => some (keysetPage AnalyticsEvent.id (PastId direction)
        (pageLimit limit) (tenantEvents events tenantId direction) cursor)) none keyPages ∧
      Follows (pageRequest events tenantId limit direction) none
        (keyPages.map (List.map AnalyticsEvent.item)) := by
  obtain ⟨keyPages, hkeys⟩ : ∃ keyPages, Follows (fun cursor => some (keysetPage AnalyticsEvent.id
      (PastId direction) (pageLimit limit) (tenantEvents events tenantId direction) cursor)) none
        keyPages :=
    exists_follows (not_pastId_self direction) PastId.trans (pageLimit_pos limit) none
  exact ⟨keyPages, hkeys, hkeys.map encodeIdCursor AnalyticsEvent.item (0 < ·)
    (fun _ _ _ hcursor h => pageRequest_eq hpos tenantId limit direction hcursor h) (by simp)⟩

omit hpos in
/-- The events of a tenant in order are the sorted ones. -/
theorem eq_tenantEvents {tenantId : String} {direction : PageDirection}
    {rows : List (AnalyticsEvent V)}
    (hperm : rows.Perm (events.filter fun event => event.userId = some tenantId))
    (hsorted : rows.Pairwise (EventLe direction)) :
    rows = tenantEvents events tenantId direction := by
  refine List.Perm.eq_of_pairwise (fun a b ha hb => eventLe_antisymm hids ?_ ?_) hsorted
    (List.pairwise_insertionSort _ _) (hperm.trans (List.perm_insertionSort _ _).symm)
  · exact (List.mem_filter.1 (hperm.mem_iff.1 ha)).1
  · exact (mem_tenantEvents_iff.1 hb).1

omit hpos in
/-- Events of the table are told apart by their items. -/
theorem map_item_inj {rows rows' : List (AnalyticsEvent V)} (hrows : ∀ event ∈ rows, event ∈ events)
    (hrows' : ∀ event ∈ rows', event ∈ events) :
    rows.map AnalyticsEvent.item = rows'.map AnalyticsEvent.item ↔ rows = rows' := by
  refine ⟨fun h => ?_, congrArg _⟩
  induction rows generalizing rows' with
  | nil => exact (List.map_eq_nil_iff.1 h.symm).symm
  | cons event rows ih =>
    cases rows' with
    | nil => cases h
    | cons event' rows' =>
      obtain ⟨hitem, hrest⟩ := List.cons.inj h
      have hevent := eq_of_id_eq hids (hrows _ List.mem_cons_self) (hrows' _ List.mem_cons_self)
        (congrArg AnalyticsEventItem.id hitem)
      rw [hevent, ih (fun e he => hrows e (List.mem_cons_of_mem _ he))
        (fun e he => hrows' e (List.mem_cons_of_mem _ he)) hrest]

end Table

/-- **Analytics pagination** shows all events of a tenant if and only if, wherever a page ends and
more events are left, the id of the last event separates what has been shown from what is left. -/
theorem pagesComplete_iff (events : List (AnalyticsEvent V))
    (hids : (events.map AnalyticsEvent.id).Nodup) (hpos : ∀ event ∈ events, 0 < event.id)
    (tenantId : String) (limit : Option ℤ) (direction : PageDirection) :
    PagesComplete events tenantId limit direction ↔ IdsSplit events tenantId limit direction := by
  obtain ⟨keyPages, hkeys, hpages⟩ := exists_pages hpos tenantId limit direction
  have hread := mem_pastPivot_of_mem_flatten PastId.trans (pageLimit_pos limit) hkeys
  rw [pastPivot_none] at hread
  have hflatten : ((keyPages.map (List.map AnalyticsEvent.item)).flatten =
        (tenantEvents events tenantId direction).map AnalyticsEvent.item) ↔
      keyPages.flatten = tenantEvents events tenantId direction := by
    rw [← List.map_flatten]
    exact map_item_inj hids (fun e he => (mem_tenantEvents_iff.1 (hread e he)).1)
      fun e he => (mem_tenantEvents_iff.1 he).1
  rw [IdsSplit, ← flatten_eq_iff_of_follows PastId.trans (pageLimit_pos limit)
    (nodup_tenantEvents hids tenantId direction) hkeys, ← hflatten]
  constructor
  · rintro ⟨pages, hfollows, rows, hrows, hperm, hsorted⟩
    rw [hfollows.unique hpages] at hrows
    rw [hrows, eq_tenantEvents hids hperm hsorted]
  · intro hall
    exact ⟨_, hpages, _, hall, List.perm_insertionSort _ _, List.pairwise_insertionSort _ _⟩

/-- An event of a tenant. -/
def eventAt (id : ℕ) (createdAt : ℤ) : AnalyticsEvent ℕ where
  eventName := "page_view"
  userId := some "T"
  anonymousId := none
  sessionId := none
  properties := none
  page := none
  referrer := none
  userAgent := none
  ipHash := none
  consentGiven := false
  id := id
  createdAt := createdAt

theorem pagesComplete_iff_sample :
    PagesComplete [eventAt 1 5, eventAt 2 10, eventAt 3 10] "T" (some 2) .backward := by
  refine (pagesComplete_iff _ (by decide) (by decide) "T" (some 2) .backward).2 ?_
  intro k hk hlt
  rw [show pageLimit (some 2) = 2 from rfl] at hlt ⊢
  obtain rfl : k = 1 := by
    have hlength : k * 2 < 3 := hlt
    omega
  intro last hlast
  obtain rfl : eventAt 2 10 = last := Option.some.inj hlast
  decide

/-- An event with a later time and an earlier id. -/
def twoEvents : List (AnalyticsEvent ℕ) := [eventAt 1 10, eventAt 2 5]

/-- The event with the earlier id is not shown. -/
theorem not_pagesComplete_two_events : ¬PagesComplete twoEvents "T" (some 1) .forward := by
  have hids : (twoEvents.map AnalyticsEvent.id).Nodup := by decide
  have hpos : ∀ event ∈ twoEvents, 0 < event.id := by decide
  have hfirst : pageRequest twoEvents "T" (some 1) .forward none =
      some ([eventAt 2 5].map AnalyticsEvent.item, some (encodeIdCursor 2)) :=
    (pageRequest_eq hpos "T" (some 1) .forward
      (show ∀ id ∈ (none : Option ℕ), 0 < id by simp) rfl).2
  -- no id is after the one that the first page ends with
  have hsecond : pageRequest twoEvents "T" (some 1) .forward (some (encodeIdCursor 2)) =
      some ([], none) :=
    (pageRequest_eq hpos "T" (some 1) .forward
      (show ∀ id ∈ some 2, 0 < id by simp) rfl).2
  rintro ⟨pages, hfollows, rows, hflatten, hperm, -⟩
  rw [hfollows.unique (.next hfirst (.last hsecond))] at hflatten
  have hlength := congrArg List.length hflatten
  rw [List.length_map, hperm.length_eq] at hlength
  revert hlength
  decide

end SorobanPay.Analytics
