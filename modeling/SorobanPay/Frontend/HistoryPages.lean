import Mathlib.Logic.Function.Basic
import SorobanPay.Foundation.Run
import SorobanPay.Frontend.PaymentHistory

/-!
# The pages of the payment history

`usePaymentHistory` of `hooks/usePaymentHistory.ts` shows the payments of a wallet page by page.
`fetchPage` is memoised on the wallet, the contract, the server and the page size, and reads the
list that is shown from the render in which these last changed. `loadMore` appends its page to that
list, not to the one that is shown.

## Main definitions

* `render`: the memoised callback keeps what it captured.
* `fetchPage`, `loadMore`, `refresh`: the calls.
* `Kept`: the list that is shown is the pages in order.
* `Consecutive`: the server answers with consecutive pages of one list.

## Main results

* `kept_step_iff`: one call.
* `pagesKept_iff`: when the pages are kept along a run.
* `exists_flatten_pages_eq`: the pages of a run are the beginning of the list.
-/

set_option autoImplicit false

namespace SorobanPay.HistoryPages

open Foundation Frontend

/-! ### The hook -/

/-- The options of the hook, which are the dependencies of `fetchPage`. -/
structure Props where
  publicKey : Option String
  pageSize : ℕ
  rpcUrl : String
  contractId : String
  deriving DecidableEq

/-- An answer to `getEvents`. -/
structure EventsPage where
  events : List RawEventResponse
  cursor : Option String

/-- `CacheEntry`. -/
structure CacheEntry where
  events : List PaymentEvent
  cursor : Option String
  hasMore : Bool
  timestamp : ℕ

/-- `CACHE_TTL_MS`. -/
def cacheTtlMs : ℕ := 60000

/-- The state of the hook, with the cached first page of each wallet. `captured` is the value of
`events` that `fetchPage` holds since its dependencies were `deps`. `pages` notes the pages that
were fetched since the last refresh or initial load. -/
structure Hook where
  events : List PaymentEvent
  isLoading : Bool
  error : Option String
  hasMore : Bool
  cursorRef : Option String
  initializedRef : Option String
  deps : Option Props
  captured : List PaymentEvent
  storage : String → Option CacheEntry
  pages : List (List PaymentEvent)

/-- A text that is there and not empty. -/
def present (text : Option String) : Bool := text.any (· ≠ "")

/-- A render: `useCallback` makes a new `fetchPage` only if the dependencies have changed. -/
def render (props : Props) (s : Hook) : Hook :=
  if s.deps = some props then s else { s with deps := some props, captured := s.events }

/-- `readCache`; an entry that is too old is removed. -/
def readCache (key : String) (now : ℕ) (s : Hook) : Option CacheEntry × Hook :=
  match s.storage key with
  | none => (none, s)
  | some entry =>
    if cacheTtlMs < now - entry.timestamp then
      (none, { s with storage := Function.update s.storage key none })
    else (some entry, s)

section Calls

variable (decode : RawEventResponse → Option PaymentEvent) (props : Props)

/-- What `fetchPage` does with an answer. -/
def showPage (key : String) (append : Bool) (now : ℕ) (page : EventsPage) (s : Hook) : Hook :=
  let decoded := page.events.filterMap decode
  let moreAvailable := present page.cursor && decide (props.pageSize ≤ page.events.length)
  let nextEvents := if append then s.captured ++ decoded else decoded
  let cursor := if moreAvailable then page.cursor else none
  { s with
    isLoading := false
    error := none
    cursorRef := cursor
    events := nextEvents
    hasMore := moreAvailable
    storage :=
      if append then s.storage
      else Function.update s.storage key (some ⟨nextEvents, cursor, moreAvailable, now⟩)
    pages := if append then s.pages ++ [decoded] else [decoded] }

/-- `fetchPage`, when it has ended; without a cursor the request starts at the first ledger. -/
def fetchPage (cursor : Option String) (append skipCache : Bool)
    (rpc : Option String → ℕ → Except String EventsPage) (now : ℕ) (s : Hook) : Hook :=
  match props.publicKey with
  | none => { s with events := [], hasMore := false, pages := [] }
  | some key =>
    if key = "" ∨ props.contractId = "" then { s with events := [], hasMore := false, pages := [] }
    else
      match if append || skipCache then (none, s) else readCache key now s with
      | (some cached, s) =>
        { s with
          events := cached.events
          cursorRef := cached.cursor
          hasMore := cached.hasMore
          pages := [cached.events] }
      | (none, s) =>
        match rpc (cursor.filter (· ≠ "")) props.pageSize with
        | .ok page => showPage decode props key append now page s
        | .error msg => { s with isLoading := false, error := some msg, hasMore := false }

/-- The effect on the wallet and on `fetchPage`. -/
def effect (rpc : Option String → ℕ → Except String EventsPage) (now : ℕ) (s : Hook) : Hook :=
  if present props.publicKey then
    if s.initializedRef = props.publicKey then s
    else
      fetchPage decode props none false false rpc now
        { s with initializedRef := props.publicKey, cursorRef := none }
  else
    { s with
      events := []
      error := none
      hasMore := false
      cursorRef := none
      initializedRef := none
      pages := [] }

/-- `loadMore`, which always sees the current `isLoading` and `hasMore`. -/
def loadMore (rpc : Option String → ℕ → Except String EventsPage) (now : ℕ) (s : Hook) : Hook :=
  if !s.isLoading && s.hasMore && present s.cursorRef then
    fetchPage decode props s.cursorRef true false rpc now s
  else s

/-- `refresh`. -/
def refresh (rpc : Option String → ℕ → Except String EventsPage) (now : ℕ) (s : Hook) : Hook :=
  if present props.publicKey then
    fetchPage decode props none false true rpc now
      { s with
        storage := Function.update s.storage (props.publicKey.getD "") none
        cursorRef := none
        initializedRef := none }
  else s

/-- The calls that the hook offers. -/
inductive Call
  | loadMore
  | refresh
  deriving DecidableEq

/-- A call, with the answers of the server and the time. -/
structure Input where
  call : Call
  rpc : Option String → ℕ → Except String EventsPage
  now : ℕ

/-- A completed call, and the render after it. -/
def step (s : Hook) (input : Input) : Hook :=
  render props (match input.call with
    | .loadMore => loadMore decode props input.rpc input.now s
    | .refresh => refresh decode props input.rpc input.now s)

/-- The wallet is connected: the render, and the initial load. -/
def mount (rpc : Option String → ℕ → Except String EventsPage) (now : ℕ) (s : Hook) : Hook :=
  effect decode props rpc now (render props s)

end Calls

/-! ### What is kept -/

/-- The list that is shown is the pages, in order. -/
def Kept (s : Hook) : Prop := s.events = s.pages.flatten

/-- The call is a `loadMore` whose page arrives. -/
def Appends (props : Props) (s : Hook) (input : Input) : Prop :=
  input.call = .loadMore ∧ s.isLoading = false ∧ s.hasMore = true ∧ present s.cursorRef = true ∧
    ∃ page, input.rpc s.cursorRef props.pageSize = .ok page

/-- A wallet and a contract are given. -/
structure Connected (props : Props) (key : String) : Prop where
  publicKey : props.publicKey = some key
  key_ne : key ≠ ""
  contractId_ne : props.contractId ≠ ""

variable {decode : RawEventResponse → Option PaymentEvent} {props : Props} {key : String}
  {s : Hook} {input : Input} {rpc : Option String → ℕ → Except String EventsPage} {now : ℕ}

theorem render_of_deps (h : s.deps = some props) : render props s = s := if_pos h

@[simp] theorem events_render : (render props s).events = s.events := by
  unfold render
  split_ifs <;> rfl

@[simp] theorem pages_render : (render props s).pages = s.pages := by
  unfold render
  split_ifs <;> rfl

theorem Connected.present (h : Connected props key) : present props.publicKey = true := by
  rw [h.publicKey]
  exact decide_eq_true h.key_ne

theorem filter_of_present {cursor : Option String} (h : present cursor = true) :
    cursor.filter (· ≠ "") = cursor := by
  cases cursor with
  | none => rfl
  | some text =>
    rw [Option.filter_some, if_pos]
    exact h

/-- A request that does not read the cache. -/
theorem fetchPage_of_uncached (h : Connected props key) {cursor : Option String}
    {append skipCache : Bool} (hskip : (append || skipCache) = true) :
    fetchPage decode props cursor append skipCache rpc now s =
      match rpc (cursor.filter (· ≠ "")) props.pageSize with
      | .ok page => showPage decode props key append now page s
      | .error msg => { s with isLoading := false, error := some msg, hasMore := false } := by
  simp only [fetchPage, h.publicKey, h.key_ne, h.contractId_ne, or_self, if_false, hskip, if_true]

/-- A `loadMore` whose page arrives appends it to the captured list. -/
theorem loadMore_of_appends (h : Connected props key) {page : EventsPage}
    (hloading : s.isLoading = false) (hmore : s.hasMore = true)
    (hcursor : present s.cursorRef = true) (hpage : rpc s.cursorRef props.pageSize = .ok page) :
    loadMore decode props rpc now s = showPage decode props key true now page s := by
  have hguard : (!s.isLoading && s.hasMore && present s.cursorRef) = true := by
    rw [hloading, hmore, hcursor]
    rfl
  rw [loadMore, if_pos hguard, fetchPage_of_uncached h rfl, filter_of_present hcursor, hpage]

variable (decode) in
/-- Another `loadMore` changes neither the list nor the pages. -/
theorem loadMore_of_not_appends (h : Connected props key) (hcall : input.call = .loadMore)
    (hnot : ¬ Appends props s input) :
    (loadMore decode props input.rpc input.now s).events = s.events ∧
      (loadMore decode props input.rpc input.now s).pages = s.pages ∧
      (loadMore decode props input.rpc input.now s).deps = s.deps ∧
      (loadMore decode props input.rpc input.now s).captured = s.captured := by
  unfold loadMore
  split_ifs with hguard
  · simp only [Bool.and_eq_true, Bool.not_eq_eq_eq_not, Bool.not_true] at hguard
    obtain ⟨⟨hloading, hmore⟩, hcursor⟩ := hguard
    rw [fetchPage_of_uncached h rfl, filter_of_present hcursor]
    rcases hpage : input.rpc s.cursorRef props.pageSize with msg | page
    · exact ⟨rfl, rfl, rfl, rfl⟩
    · exact absurd ⟨hcall, hloading, hmore, hcursor, page, hpage⟩ hnot
  · exact ⟨rfl, rfl, rfl, rfl⟩

variable (decode rpc now s) in
/-- A refresh replaces the list and the pages, or keeps both. -/
theorem refresh_cases (h : Connected props key) :
    ((∃ page : EventsPage, (refresh decode props rpc now s).events = page.events.filterMap decode ∧
        (refresh decode props rpc now s).pages = [page.events.filterMap decode]) ∨
      ((refresh decode props rpc now s).events = s.events ∧
        (refresh decode props rpc now s).pages = s.pages)) ∧
      (refresh decode props rpc now s).deps = s.deps ∧
      (refresh decode props rpc now s).captured = s.captured := by
  rw [refresh, if_pos h.present, fetchPage_of_uncached h rfl]
  split
  · rename_i page hpage
    exact ⟨.inl ⟨page, rfl, rfl⟩, rfl, rfl⟩
  · exact ⟨.inr ⟨rfl, rfl⟩, rfl, rfl⟩

variable (decode input) in
/-- What a call leaves of the memoised callback. -/
theorem step_memo (h : Connected props key) (hdeps : s.deps = some props) :
    (step decode props s input).deps = some props ∧
      (step decode props s input).captured = s.captured := by
  have hcall : ∀ t : Hook, t.deps = s.deps → t.captured = s.captured →
      (render props t).deps = some props ∧ (render props t).captured = s.captured := by
    intro t ht hcaptured
    rw [render_of_deps (ht.trans hdeps)]
    exact ⟨ht.trans hdeps, hcaptured⟩
  rcases input with ⟨_ | _, rpc, now⟩
  · by_cases happ : Appends props s ⟨.loadMore, rpc, now⟩
    · obtain ⟨-, hloading, hmore, hcursor, page, hpage⟩ := happ
      refine hcall _ ?_ ?_ <;>
        rw [loadMore_of_appends h hloading hmore hcursor hpage] <;> rfl
    · obtain ⟨-, -, hd, hc⟩ := loadMore_of_not_appends decode h rfl happ
      exact hcall _ hd hc
  · obtain ⟨-, hd, hc⟩ := refresh_cases decode s rpc now h
    exact hcall _ hd hc

/-- **One call.** The pages are kept exactly if a `loadMore` whose page arrives finds the list
shown that it has captured. -/
theorem kept_step_iff (h : Connected props key) (hs : Kept s) :
    Kept (step decode props s input) ↔ (Appends props s input → s.events = s.captured) := by
  rw [Kept, step, events_render, pages_render]
  rcases input with ⟨_ | _, rpc, now⟩
  · by_cases happ : Appends props s ⟨.loadMore, rpc, now⟩
    · have happ' := happ
      obtain ⟨-, hloading, hmore, hcursor, page, hpage⟩ := happ'
      simp only [loadMore_of_appends h hloading hmore hcursor hpage, showPage, if_true,
        List.flatten_append, List.flatten_singleton, List.append_left_inj]
      rw [← hs.symm]
      exact ⟨fun heq _ => heq.symm, fun heq => (heq happ).symm⟩
    · obtain ⟨hevents, hpages, -⟩ := loadMore_of_not_appends decode h rfl happ
      simp only [hevents, hpages]
      exact iff_of_true hs fun hyes => absurd hyes happ
  · have hcall : ¬ Appends props s ⟨.refresh, rpc, now⟩ := fun happ => by cases happ.1
    refine iff_of_true ?_ fun happ => absurd happ hcall
    obtain ⟨⟨page, hevents, hpages⟩ | ⟨hevents, hpages⟩, -⟩ :=
      refresh_cases decode s rpc now h
    · simp only [hevents, hpages, List.flatten_singleton]
    · simp only [hevents, hpages]
      exact hs

/-! ### A wallet that is connected -/

/-- The wallet is new to the hook: its render makes a new `fetchPage`, and its initial load is
still to come. -/
structure NewWallet (props : Props) (key : String) (s : Hook) : Prop where
  deps : s.deps ≠ some props
  initializedRef : s.initializedRef ≠ some key

variable (decode now) in
/-- What the initial load leaves: the pages are kept, and `fetchPage` has captured the list that
was shown before. -/
theorem mount_spec (h : Connected props key) (hs : NewWallet props key s) {page : EventsPage}
    (hpage : rpc none props.pageSize = .ok page) :
    Kept (mount decode props rpc now s) ∧ (mount decode props rpc now s).deps = some props ∧
      (mount decode props rpc now s).captured = s.events := by
  have hrender : render props s = { s with deps := some props, captured := s.events } :=
    if_neg hs.deps
  have hguard : ¬ (key = "" ∨ props.contractId = "") := not_or.2 ⟨h.key_ne, h.contractId_ne⟩
  have hinit : ¬ s.initializedRef = props.publicKey := by
    rw [h.publicKey]
    exact hs.initializedRef
  rw [mount, effect, if_pos h.present, hrender, if_neg hinit]
  simp only [fetchPage, h.publicKey, if_neg hguard, Bool.or_self, Bool.false_eq_true, if_false,
    Option.filter_none, hpage, readCache]
  split
  · rename_i cached t heq
    have hfields : t.deps = some props ∧ t.captured = s.events := by
      split at heq
      · cases (Prod.mk.inj heq).1
      · split_ifs at heq
        · cases (Prod.mk.inj heq).1
        · rw [← (Prod.mk.inj heq).2]
          exact ⟨rfl, rfl⟩
    exact ⟨by simp [Kept], hfields.1, hfields.2⟩
  · rename_i t heq
    have hfields : t.deps = some props ∧ t.captured = s.events := by
      split at heq
      · rw [← (Prod.mk.inj heq).2]
        exact ⟨rfl, rfl⟩
      · split_ifs at heq
        · rw [← (Prod.mk.inj heq).2]
          exact ⟨rfl, rfl⟩
        · cases (Prod.mk.inj heq).1
    exact ⟨by simp [Kept, showPage], hfields.1, hfields.2⟩

/-- **The history of a wallet.** Along every run of completed calls after an initial load, the list
that is shown is in every state the pages fetched since the last refresh or initial load, exactly
if every `loadMore` whose page arrives finds the list shown that was shown when the wallet was
connected. -/
theorem pagesKept_iff (decode : RawEventResponse → Option PaymentEvent) (props : Props)
    (key : String) (h : Connected props key) (s : Hook) (hs : NewWallet props key s)
    (rpc : Option String → ℕ → Except String EventsPage) (now : ℕ) (page : EventsPage)
    (hpage : rpc none props.pageSize = .ok page) (inputs : List Input) :
    (Kept (mount decode props rpc now s) ∧
        Along (step decode props) (fun t input => Kept (step decode props t input))
          (mount decode props rpc now s) inputs) ↔
      Along (step decode props) (fun t input => Appends props t input → t.events = s.events)
        (mount decode props rpc now s) inputs := by
  obtain ⟨hkept, hdeps, hcaptured⟩ := mount_spec decode now h hs hpage
  rw [and_iff_right hkept]
  -- the callback is never made anew
  refine along_iff_of_invariant
    (fun t : Hook => Kept t ∧ t.deps = some props ∧ t.captured = s.events) ?_ ?_
    ⟨hkept, hdeps, hcaptured⟩
  · rintro t input ⟨ht, -, hc⟩
    rw [kept_step_iff h ht, hc]
  · rintro t input ⟨ht, hd, hc⟩ hright
    obtain ⟨hd', hc'⟩ := step_memo decode input h hd
    exact ⟨(kept_step_iff h ht).2 (hc.symm ▸ hright), hd', hc'.trans hc⟩

/-! ### Consecutive pages of one list -/

section Consecutive

variable (list : List RawEventResponse) (place : String → ℕ)

/-- Where a request begins. -/
def placeOf : Option String → ℕ
  | none => 0
  | some cursor => place cursor

/-- The server answers with consecutive pages of the list; a cursor stands for the place where its
page has ended. -/
def Consecutive (rpc : Option String → ℕ → Except String EventsPage) : Prop :=
  ∀ cursor limit, ∃ page, rpc cursor limit = .ok page ∧
    page.events = (list.drop (placeOf place cursor)).take limit ∧
    ∀ c ∈ page.cursor, place c = placeOf place cursor + page.events.length

/-- The events are the beginning of the list, and the cursor stands for the place after it. -/
def Beginning (decode : RawEventResponse → Option PaymentEvent) (events : List PaymentEvent)
    (cursor : Option String) : Prop :=
  ∃ n, events = (list.take n).filterMap decode ∧ ∀ c ∈ cursor, place c = n

variable {list place}

/-- The next page of the list. -/
theorem Beginning.append {events : List PaymentEvent} {cursor : Option String} {c : String}
    {limit : ℕ} {page : EventsPage} (h : Beginning list place decode events (some c))
    (hevents : page.events = (list.drop (place c)).take limit)
    (hcursor : ∀ c' ∈ page.cursor, place c' = place c + page.events.length)
    (hsub : ∀ c' ∈ cursor, c' ∈ page.cursor) :
    Beginning list place decode (events ++ page.events.filterMap decode) cursor := by
  obtain ⟨n, rfl, hplace⟩ := h
  obtain rfl : place c = n := hplace c rfl
  refine ⟨place c + page.events.length, ?_, fun c' hc' => hcursor c' (hsub c' hc')⟩
  have hpage : page.events = (list.drop (place c)).take page.events.length :=
    List.prefix_iff_eq_take.1 (hevents ▸ List.take_prefix _ _)
  rw [List.take_add, List.filterMap_append, ← hpage]

theorem beginning_first {cursor : Option String} {limit : ℕ} {page : EventsPage}
    (hevents : page.events = (list.drop 0).take limit)
    (hcursor : ∀ c ∈ page.cursor, place c = 0 + page.events.length)
    (hsub : ∀ c ∈ cursor, c ∈ page.cursor) :
    Beginning list place decode (page.events.filterMap decode) cursor := by
  refine ⟨page.events.length, ?_, fun c hc => by rw [hcursor c (hsub c hc), Nat.zero_add]⟩
  rw [List.drop_zero] at hevents
  have hpage : page.events = list.take page.events.length :=
    List.prefix_iff_eq_take.1 (hevents ▸ List.take_prefix _ _)
  rw [← hpage]

theorem mem_of_mem_cursor {page : EventsPage} {more : Bool} {c : String}
    (hc : c ∈ if more then page.cursor else none) : c ∈ page.cursor := by
  split_ifs at hc
  · exact hc
  · cases hc

/-- One call with consecutive pages. -/
theorem beginning_step (h : Connected props key) (hrpc : Consecutive list place input.rpc)
    (hs : Beginning list place decode s.pages.flatten s.cursorRef) :
    Beginning list place decode (step decode props s input).pages.flatten
      (step decode props s input).cursorRef := by
  have hcursor : ∀ t : Hook, (render props t).cursorRef = t.cursorRef := by
    intro t
    unfold render
    split_ifs <;> rfl
  rw [step, pages_render, hcursor]
  rcases input with ⟨_ | _, rpc, now⟩
  · by_cases happ : Appends props s ⟨.loadMore, rpc, now⟩
    · obtain ⟨-, hloading, hmore, hpresent, page, hpage⟩ := happ
      obtain ⟨c, hc⟩ : ∃ c, s.cursorRef = some c := by
        cases hcase : s.cursorRef with
        | none => rw [hcase] at hpresent; cases hpresent
        | some c => exact ⟨c, rfl⟩
      obtain ⟨page', hpage', hevents, hplace⟩ := hrpc s.cursorRef props.pageSize
      obtain rfl : page = page' := Except.ok.inj (hpage.symm.trans hpage')
      rw [hc] at hevents hplace hs
      simp only [loadMore_of_appends h hloading hmore hpresent hpage, showPage, if_true,
        List.flatten_append, List.flatten_singleton]
      exact hs.append hevents hplace fun c' hc' => mem_of_mem_cursor hc'
    · -- with consecutive pages, a request is always answered
      have hsame : loadMore decode props rpc now s = s := by
        refine if_neg fun hguard => happ ?_
        simp only [Bool.and_eq_true, Bool.not_eq_eq_eq_not, Bool.not_true] at hguard
        obtain ⟨page, hpage, -⟩ := hrpc s.cursorRef props.pageSize
        exact ⟨rfl, hguard.1.1, hguard.1.2, hguard.2, page, hpage⟩
      simp only [hsame]
      exact hs
  · have hrpc : Consecutive list place rpc := hrpc
    obtain ⟨page, hpage, hevents, hplace⟩ := hrpc none props.pageSize
    have hskip : (false || true) = true := rfl
    simp only [refresh, if_pos h.present, fetchPage_of_uncached h hskip, Option.filter_none, hpage,
      showPage, Bool.false_eq_true, if_false, List.flatten_singleton]
    exact beginning_first hevents hplace fun c hc => mem_of_mem_cursor hc

/-- **The pages of a run.** With consecutive pages of one list, the pages fetched since the last
refresh or initial load are in every state the beginning of the list. -/
theorem exists_flatten_pages_eq (h : Connected props key) {s : Hook} {inputs : List Input}
    (hrpc : ∀ input ∈ inputs, Consecutive list place input.rpc)
    (hs : Beginning list place decode s.pages.flatten s.cursorRef) :
    ∃ n, (after (step decode props) s inputs).pages.flatten =
      (list.take n).filterMap decode := by
  have halong : Along (step decode props) (fun _ input => Consecutive list place input.rpc) s
      inputs := along_of_forall_mem fun input hinput _ => hrpc input hinput
  have hstep : ∀ (t : Hook) (input : Input),
      Beginning list place decode t.pages.flatten t.cursorRef →
      Consecutive list place input.rpc →
      Beginning list place decode (step decode props t input).pages.flatten
        (step decode props t input).cursorRef :=
    fun t input ht hinput => beginning_step h hinput ht
  obtain ⟨n, hn, -⟩ := halong.invariant hstep hs
  exact ⟨n, hn⟩

end Consecutive

/-! ### Two pages -/

/-- The event with this id, of which nothing else matters. -/
def sampleRaw (id : String) : RawEventResponse := ⟨⟨[], ""⟩, 1, none, id, none⟩

/-- A decoder that decodes everything. -/
def sampleDecode (raw : RawEventResponse) : Option PaymentEvent :=
  some ⟨raw.ledger, "", "", "", "", "", "", "", raw.id⟩

/-- A list of two events, in pages of one. -/
def sampleRpc : Option String → ℕ → Except String EventsPage
  | none, _ => .ok ⟨[sampleRaw "1"], some "next"⟩
  | some _, _ => .ok ⟨[sampleRaw "2"], none⟩

/-- The wallet that is connected first. -/
def sampleProps : Props := ⟨some "W", 1, "rpc", "C"⟩

/-- The hook before a wallet is connected. -/
def emptyHook : Hook := ⟨[], false, none, false, none, none, none, [], fun _ => none, []⟩

theorem connected_sampleProps : Connected sampleProps "W" := ⟨rfl, by decide, by decide⟩

theorem newWallet_emptyHook : NewWallet sampleProps "W" emptyHook := ⟨by decide, by decide⟩

theorem pagesKept_iff_sample :
    (Kept (mount sampleDecode sampleProps sampleRpc 0 emptyHook) ∧
        Along (step sampleDecode sampleProps)
          (fun t input => Kept (step sampleDecode sampleProps t input))
          (mount sampleDecode sampleProps sampleRpc 0 emptyHook)
          [⟨.loadMore, sampleRpc, 5⟩, ⟨.refresh, sampleRpc, 9⟩]) ↔
      Along (step sampleDecode sampleProps)
        (fun t input => Appends sampleProps t input → t.events = emptyHook.events)
        (mount sampleDecode sampleProps sampleRpc 0 emptyHook)
        [⟨.loadMore, sampleRpc, 5⟩, ⟨.refresh, sampleRpc, 9⟩] :=
  pagesKept_iff sampleDecode sampleProps "W" connected_sampleProps emptyHook newWallet_emptyHook
    sampleRpc 0 ⟨[sampleRaw "1"], some "next"⟩ rfl
    [⟨.loadMore, sampleRpc, 5⟩, ⟨.refresh, sampleRpc, 9⟩]

/-- The second page of one event takes the place of the first one. -/
theorem not_pagesKept_sample :
    NewWallet sampleProps "W" emptyHook ∧ sampleRpc none 1 = .ok ⟨[sampleRaw "1"], some "next"⟩ ∧
      sampleRpc (some "next") 1 = .ok ⟨[sampleRaw "2"], none⟩ ∧
      (after (step sampleDecode sampleProps)
          (mount sampleDecode sampleProps sampleRpc 0 emptyHook)
          [⟨.loadMore, sampleRpc, 5⟩]).events.map PaymentEvent.id = ["2"] ∧
      ¬ Kept (after (step sampleDecode sampleProps)
        (mount sampleDecode sampleProps sampleRpc 0 emptyHook) [⟨.loadMore, sampleRpc, 5⟩]) := by
  refine ⟨newWallet_emptyHook, rfl, rfl, by decide, fun h => ?_⟩
  have hlength := congrArg List.length h
  exact absurd hlength (by decide)

end SorobanPay.HistoryPages
