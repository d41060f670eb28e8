import SorobanPay.Frontend.MerchantSubscriptions

/-!
# Following the pages of a merchant

Over the hook of `MerchantSubscriptions`: the server has a listing of subscribe events for each
merchant, every page of it begins where the one before has ended, and the pages that a fetch has
merged are the beginning of the listing. When they have reached its end, the list shows every
subscriber of the merchant.

## Main definitions

* `IsPage`, `Honest`: what the server answers.
* `Following`: the invariant of the hook and of its calls.
* `Owned`: the pages and the calls of the current fetch are for the connected wallet.
* `Followed`, `Complete`: every page has been followed, and what the list is then.

## Main results

* `following_fetchTurn`, `following_step`: one turn and one input.
* `owned_after`: the connected wallet.
* `merchantList_complete`: superseded fetches change nothing, and the list is complete.
-/

set_option autoImplicit false

namespace SorobanPay.MerchantSubscriptions

open Foundation Frontend

variable {N Address : Type} {J : JsNumber N}

/-! ### The server -/

section Server

variable (listing : String → List RawEventResponse) (place : String → String → ℕ)

/-- Where a request begins in the listing of a merchant. -/
def placeOf (merchantKey : String) : Option String → ℕ
  | none => 0
  | some cursor => place merchantKey cursor

/-- The answer is a page of the listing that begins where the cursor says, and its own cursor says
where it has ended. -/
structure IsPage (merchantKey : String) (cursor : Option String) (page : EventsResponse) :
    Prop where
  events : page.events <+: (listing merchantKey).drop (placeOf place merchantKey cursor)
  cursor : ∀ c ∈ truthy page.cursor,
    place merchantKey c = placeOf place merchantKey cursor + page.events.length

/-- The page has reached the end of the listing. -/
def IsLast (merchantKey : String) (cursor : Option String) (page : EventsResponse) : Prop :=
  placeOf place merchantKey cursor + page.events.length = (listing merchantKey).length

/-- The time of the next payment is one that a date can have. -/
def InRange : SimResult → Prop
  | .failure | .void => True
  | .record _ _ _ nextPayment => nextPayment * 1000 ≤ 8640000000000000

/-- The server answers with pages of its listings, and the contract with times of dates. `ends`
says whether a page that is not full, or has no cursor, is known to be the last one. -/
def HonestAnswer (ends : Prop) (f : Fetch) : Answer → Prop
  | .events page => f.stage = .requesting →
    IsPage listing place f.merchantKey f.cursor page ∧
      (ends → moreAvailable page = false → IsLast listing place f.merchantKey f.cursor page)
  | .state _ result => InRange result
  | .imported | .rejected => True

/-- What arrives is honest. -/
def Honest (ends : Prop) (p : Pool Hook Fetch) : Input → Prop
  | .arrival i answer => ∀ f, p.calls[i]? = some f → HonestAnswer listing place ends f answer
  | .wallet _ | .loadMore _ | .refresh _ => True

end Server

/-! ### The pages of a fetch -/

/-- All pages were asked for this merchant. -/
def OfMerchant (m : String) (pages : List FollowedPage) : Prop :=
  ∀ page ∈ pages, page.merchantKey = m

/-- The events of the pages in order. -/
def eventsOf (pages : List FollowedPage) : List RawEventResponse := pages.flatMap (·.events)

/-- The pages that stay in the list when a page of the call is merged. -/
def keptPages (s : Hook) (f : Fetch) : List FollowedPage := if f.append then s.pages else []

section Invariant

variable (listing : String → List RawEventResponse) (place : String → String → ℕ) (ends : Prop)

/-- The cursor stands where the events end, and if there is none, they are all of the listing. -/
structure EndsAt (s : Hook) (pages : List FollowedPage) (m : String) : Prop where
  cursor : ∀ c, s.cursorRef = some c → place m c = (eventsOf pages).length
  last : ends → s.cursorRef = none → (eventsOf pages).length = (listing m).length

/-- The pages of the hook are the beginning of the listing, and while nothing is loaded, the cursor
stands at their end. -/
structure Aligned (C : Config J) (s : Hook) : Prop where
  begins : ∀ m, OfMerchant m s.pages → eventsOf s.pages <+: listing m
  hasMore : s.hasMore = s.cursorRef.isSome
  isLoading : s.isLoading = s.loadingRef
  configured : C.contractId = "" → s.loadingRef = false ∧ s.cursorRef = none
  started : s.loadingRef = false → s.cursorRef ≠ none → s.pages ≠ []
  idle : s.loadingRef = false → s.pages ≠ [] →
    ∀ m, OfMerchant m s.pages → EndsAt listing place ends s s.pages m

/-- The request of a call begins where the pages that it keeps have ended. -/
structure Asks (s : Hook) (f : Fetch) : Prop where
  cursor : s.cursorRef = f.cursor
  first : f.append = false → f.cursor = none
  next : f.append = true → s.pages ≠ [] ∧ f.cursor ≠ none
  place : ∀ m, OfMerchant m (keptPages s f) →
    placeOf place m f.cursor = (eventsOf (keptPages s f)).length

/-- The page of a call continues the pages that it keeps. -/
structure Continues (s : Hook) (f : Fetch) (page : EventsResponse) : Prop where
  begins : OfMerchant f.merchantKey (keptPages s f) →
    eventsOf (keptPages s f ++ [⟨f.merchantKey, page.events⟩]) <+: listing f.merchantKey
  ends : OfMerchant f.merchantKey (keptPages s f) →
    EndsAt listing place ends s (keptPages s f ++ [⟨f.merchantKey, page.events⟩]) f.merchantKey

/-- What holds of a call of the current fetch that has not ended. -/
def InProgress (s : Hook) (f : Fetch) : Prop :=
  match f.stage with
  | .importing | .requesting => Asks place s f
  | .reading page _ _ _ _ => Continues listing place ends s f page
  | .ended => True

/-- The call is under way under the current number. -/
def Live (s : Hook) (f : Fetch) : Prop := f.stage ≠ .ended ∧ f.fetchId = s.fetchIdRef

/-- What holds of every call. -/
structure Tracked (s : Hook) (f : Fetch) : Prop where
  fetchId_le : f.fetchId ≤ s.fetchIdRef
  live : Live s f → s.loadingRef = true ∧ InProgress listing place ends s f

/-- No two calls are under way under the current number. -/
def Exclusive (s : Hook) (f k : Fetch) : Prop :=
  f.fetchId ≤ s.fetchIdRef ∧ ¬ (Live s f ∧ Live s k)

/-- **The invariant** of the hook and its calls. -/
abbrev Following (C : Config J) : Pool Hook Fetch → Prop :=
  Pool.Holds (Aligned listing place ends C) (Tracked listing place ends) Exclusive

end Invariant

variable {C : Config J} {listing : String → List RawEventResponse} {place : String → String → ℕ}
  {ends : Prop} {s : Hook} {f : Fetch} {page : EventsResponse} {p : Pool Hook Fetch} {i : ℕ}
  {answer : Answer} {m : String}

theorem eventsOf_append (pages : List FollowedPage) (page : FollowedPage) :
    eventsOf (pages ++ [page]) = eventsOf pages ++ page.events := by
  simp [eventsOf]

theorem ofMerchant_append {pages : List FollowedPage} {page : FollowedPage} :
    OfMerchant m (pages ++ [page]) ↔ OfMerchant m pages ∧ page.merchantKey = m := by
  simp [OfMerchant, or_imp, forall_and]

/-! ### One turn -/

theorem cursorRef_receive :
    (receive s page).cursorRef = if moreAvailable page then page.cursor else none := rfl

theorem exists_of_moreAvailable (h : moreAvailable page = true) : ∃ c, page.cursor = some c := by
  rw [moreAvailable, Bool.and_eq_true, Option.any_eq_true] at h
  obtain ⟨⟨c, hc, -⟩, -⟩ := h
  exact ⟨c, hc⟩

theorem mem_truthy_of_moreAvailable {c : String} (h : moreAvailable page = true)
    (hc : page.cursor = some c) : c ∈ truthy page.cursor := by
  rw [moreAvailable, hc, Bool.and_eq_true] at h
  rw [hc]
  exact Option.filter_eq_some_iff.2 ⟨rfl, h.1⟩

/-- The pages that are kept are the beginning of the listing too. -/
theorem begins_keptPages (hs : Aligned listing place ends C s)
    (h : OfMerchant m (keptPages s f)) : eventsOf (keptPages s f) <+: listing m := by
  unfold keptPages at h ⊢
  split_ifs at h ⊢
  · exact hs.begins m h
  · exact List.nil_prefix

/-- A page that has been received continues those that are kept. -/
theorem continues_receive (hs : Aligned listing place ends C s) (hf : Asks place s f)
    (hpage : IsPage listing place f.merchantKey f.cursor page)
    (hlast : ends → moreAvailable page = false →
      IsLast listing place f.merchantKey f.cursor page) :
    Continues listing place ends (receive s page) f page := by
  have hkept : keptPages (receive s page) f = keptPages s f := rfl
  refine ⟨fun hown => ?_, fun hown => ⟨fun c hc => ?_, fun hends hnone => ?_⟩⟩
  all_goals
    rw [hkept] at hown
    have hplace := hf.place _ hown
    rw [hkept, eventsOf_append]
  · obtain ⟨rest, hrest⟩ := begins_keptPages hs hown
    have hevents := hpage.events
    rw [hplace, ← hrest, List.drop_left] at hevents
    rw [← hrest]
    exact (List.prefix_append_right_inj _).2 hevents
  · rw [cursorRef_receive] at hc
    split_ifs at hc with hmore
    rw [hpage.cursor c (mem_truthy_of_moreAvailable hmore hc), hplace, List.length_append]
  · rw [cursorRef_receive] at hnone
    split_ifs at hnone with hmore
    · obtain ⟨c, hc⟩ := exists_of_moreAvailable hmore
      rw [hc] at hnone
      cases hnone
    · rw [List.length_append, ← hplace]
      exact hlast hends (Bool.not_eq_true _ ▸ hmore)

/-- **One page** that continues those that are kept. -/
theorem aligned_merge (hs : Aligned listing place ends C s)
    (hf : Continues listing place ends s f page) (results : List MerchantSubscription) :
    Aligned listing place ends C (merge s f page results) := by
  have hpages : (merge s f page results).pages =
      keptPages s f ++ [⟨f.merchantKey, page.events⟩] := rfl
  refine ⟨fun m hm => ?_, hs.hasMore, rfl, fun h => ⟨rfl, (hs.configured h).2⟩, fun _ _ => ?_,
    fun _ _ m hm => ?_⟩
  · rw [hpages] at hm ⊢
    obtain ⟨hown, rfl⟩ := ofMerchant_append.1 hm
    exact hf.begins hown
  · rw [hpages]
    exact List.append_ne_nil_of_right_ne_nil _ (List.cons_ne_nil _ _)
  · rw [hpages] at hm ⊢
    obtain ⟨hown, rfl⟩ := ofMerchant_append.1 hm
    exact ⟨(hf.ends hown).cursor, (hf.ends hown).last⟩

/-- A failure before the page has been received. -/
theorem aligned_fail (hs : Aligned listing place ends C s) (hf : Asks place s f) :
    Aligned listing place ends C (fail s f).1 := by
  unfold fail
  split_ifs with hid happend
  · exact hs
  · obtain ⟨hpages, hcursor⟩ := hf.next happend
    have hplace := hf.place
    rw [keptPages, if_pos happend] at hplace
    refine ⟨hs.begins, hs.hasMore, rfl, fun h => ⟨rfl, (hs.configured h).2⟩, fun _ _ => hpages,
      fun _ _ m hm => ?_⟩
    refine ⟨fun c hc => ?_, fun _ hnone => absurd (hf.cursor.symm.trans hnone) hcursor⟩
    rw [← hplace m hm, ← hf.cursor, show s.cursorRef = some c from hc, placeOf]
  · refine ⟨fun m _ => List.nil_prefix, hs.hasMore, rfl, fun h => ⟨rfl, (hs.configured h).2⟩,
      fun _ hcursor => ?_, fun _ hpages => absurd rfl hpages⟩
    exact absurd (hf.cursor.trans (hf.first (by simpa using happend))) hcursor

/-- Going on in the loop. -/
theorem following_readNext (hs : Aligned listing place ends C s) (hid : f.fetchId = s.fetchIdRef)
    (hloading : s.loadingRef = true) (hf : Continues listing place ends s f page)
    (results : List MerchantSubscription) (entries : List (String × String)) :
    Aligned listing place ends C (readNext s f page results entries).1 ∧
      Tracked listing place ends (readNext s f page results entries).1
        (readNext s f page results entries).2 := by
  unfold readNext
  rw [if_neg (not_not.2 hid.symm)]
  cases entries with
  | nil => exact ⟨aligned_merge hs hf results, hid.le, fun hlive => absurd rfl hlive.1⟩
  | cons entry rest => exact ⟨hs, hid.le, fun _ => ⟨hloading, hf.begins, hf.ends⟩⟩

/-- A time of a date is printed. -/
theorem entryOf_ne_none {merchantKey subscriber eventToken : String} {nowMs : ℕ}
    {result : SimResult} (h : InRange result) :
    entryOf C merchantKey subscriber eventToken nowMs (fetchSubscriptionState result) ≠ none := by
  cases result with
  | failure | void => exact Option.some_ne_none _
  | record token amount interval nextPayment =>
    have hround : roundBits 53 nextPayment = nextPayment := by
      refine (roundBits_eq_self_iff (by decide)).2 (representable_of_lt ?_)
      have hle : nextPayment * 1000 ≤ 8640000000000000 := h
      omega
    have hdate : (if 0 < nextPayment then nextPayment * 1000 else 0) ≤ 8640000000000000 := by
      split_ifs
      · exact h
      · exact Nat.zero_le _
    rw [fetchSubscriptionState]
    split_ifs
    · exact Option.some_ne_none _
    · simp [entryOf, toISOString, hround, hdate]

/-- The cursor and the flag agree while the page is read. -/
theorem aligned_receive (page : EventsResponse) (hs : Aligned listing place ends C s)
    (hloading : s.loadingRef = true) : Aligned listing place ends C (receive s page) := by
  have hloaded : (receive s page).loadingRef ≠ false := by
    change s.loadingRef ≠ false
    rw [hloading]
    decide
  refine ⟨hs.begins, ?_, hs.isLoading, fun h => absurd (hs.configured h).1 hloaded,
    fun h => absurd h hloaded, fun h => absurd h hloaded⟩
  rw [cursorRef_receive]
  split_ifs with hmore
  · obtain ⟨c, hc⟩ := exists_of_moreAvailable hmore
    rw [hc]
    exact hmore
  · exact Bool.not_eq_true _ ▸ hmore

theorem fetchTurn_of_ended (h : f.stage = .ended) : fetchTurn C s f answer = (s, f) := by
  unfold fetchTurn
  rw [h]

/-- A call that is not under way leaves the hook as it is. -/
theorem fetchTurn_of_not_live (h : ¬ Live s f) : (fetchTurn C s f answer).1 = s := by
  by_cases hended : f.stage = .ended
  · rw [fetchTurn_of_ended hended]
  · exact fetchTurn_superseded (fun hid => h ⟨hended, hid⟩) answer

/-- A call that is under way after its turn has been so before. -/
theorem live_of_live_fetchTurn
    (h : Live (fetchTurn C s f answer).1 (fetchTurn C s f answer).2) : Live s f := by
  have hid := (refs_fetchTurn (C := C) s f answer).1
  have hfetchId := (call_fetchTurn (C := C) s f answer).1
  refine ⟨fun hended => h.1 ?_, ?_⟩
  · rw [fetchTurn_of_ended hended]
    exact hended
  · rw [← hfetchId, ← hid]
    exact h.2

/-- **One turn** of a call. -/
theorem following_fetchTurn (hs : Aligned listing place ends C s)
    (hf : Tracked listing place ends s f) (hanswer : HonestAnswer listing place ends f answer) :
    Aligned listing place ends C (fetchTurn C s f answer).1 ∧
      Tracked listing place ends (fetchTurn C s f answer).1 (fetchTurn C s f answer).2 := by
  by_cases hlive : Live s f
  · obtain ⟨hne, hid⟩ := hlive
    obtain ⟨hloading, hprogress⟩ := hf.live ⟨hne, hid⟩
    have hfailed : ∀ hasks : Asks place s f,
        Aligned listing place ends C (fail s f).1 ∧
          Tracked listing place ends (fail s f).1 (fail s f).2 := by
      intro hasks
      have hsame : (fail s f).1.fetchIdRef = s.fetchIdRef := by
        unfold fail
        split_ifs <;> rfl
      exact ⟨aligned_fail hs hasks, hsame ▸ hid.le, fun hlive => absurd rfl hlive.1⟩
    rw [InProgress] at hprogress
    unfold fetchTurn
    cases hstage : f.stage with
    | importing =>
      rw [hstage] at hprogress
      cases answer with
      | imported =>
        exact ⟨hs, hid.le, fun _ => ⟨hloading, hprogress.cursor, hprogress.first, hprogress.next,
          hprogress.place⟩⟩
      | rejected => exact hfailed hprogress
      | events _ | state _ _ => exact ⟨hs, hf⟩
    | requesting =>
      rw [hstage] at hprogress
      cases answer with
      | events page =>
        obtain ⟨hpage, hlast⟩ := hanswer hstage
        have hreceive := aligned_receive page hs hloading
        dsimp only
        rw [if_neg (not_not.2 hid.symm)]
        exact following_readNext hreceive hid hloading
          (continues_receive hs hprogress hpage hlast) _ _
      | rejected => exact hfailed hprogress
      | imported | state _ _ => exact ⟨hs, hf⟩
    | reading page subscriber eventToken rest results =>
      rw [hstage] at hprogress
      cases answer with
      | state nowMs result =>
        dsimp only
        split
        · rename_i hthrows
          exact absurd hthrows (entryOf_ne_none hanswer)
        · exact following_readNext hs hid hloading hprogress _ _
      | imported | rejected | events _ => exact ⟨hs, hf⟩
    | ended => exact absurd hstage hne
  · have hid := (refs_fetchTurn (C := C) s f answer).1
    have hfetchId := (call_fetchTurn (C := C) s f answer).1
    refine ⟨?_, ?_, fun hafter => absurd (live_of_live_fetchTurn hafter) hlive⟩
    · rw [fetchTurn_of_not_live hlive]
      exact hs
    · rw [hid, hfetchId]
      exact hf.fetchId_le

/-! ### One input -/

/-- No call is under way under the current number. -/
def NoneLive (p : Pool Hook Fetch) : Prop := ∀ k ∈ p.calls, ¬ Live p.shared k

theorem noneLive_of_loadingRef (h : Following listing place ends C p)
    (hloading : p.shared.loadingRef = false) : NoneLive p := by
  intro k hk hlive
  obtain ⟨i, hi⟩ := List.mem_iff_getElem?.1 hk
  rw [((h.each i k hi).live hlive).1] at hloading
  cases hloading

/-- A change of the hook under which no call is under way. -/
theorem following_act (change : Hook → Hook) (h : Following listing place ends C p)
    (haligned : Aligned listing place ends C (change p.shared))
    (hid : p.shared.fetchIdRef ≤ (change p.shared).fetchIdRef)
    (hnone : (change p.shared).fetchIdRef = p.shared.fetchIdRef → NoneLive p) :
    Following listing place ends C (p.act change) ∧ NoneLive (p.act change) := by
  have hlive : ∀ k : Fetch, k.fetchId ≤ p.shared.fetchIdRef → Live (change p.shared) k →
      (change p.shared).fetchIdRef = p.shared.fetchIdRef ∧ Live p.shared k := by
    intro k hle hk
    have heq : (change p.shared).fetchIdRef = p.shared.fetchIdRef := by
      have hk' := hk.2
      omega
    exact ⟨heq, hk.1, hk.2.trans heq⟩
  have hdead : ∀ k ∈ p.calls, k.fetchId ≤ p.shared.fetchIdRef → ¬ Live (change p.shared) k := by
    intro k hk hle hklive
    obtain ⟨heq, hbefore⟩ := hlive k hle hklive
    exact hnone heq k hk hbefore
  refine ⟨h.act haligned (fun k hk hknown => ?_) fun l k happart => ?_, fun k hk => ?_⟩
  · exact ⟨hknown.fetchId_le.trans hid,
      fun hklive => absurd hklive (hdead k hk hknown.fetchId_le)⟩
  · refine ⟨happart.1.trans hid, fun ⟨hl, hk⟩ => ?_⟩
    obtain ⟨heq, hl⟩ := hlive l happart.1 hl
    exact happart.2 ⟨hl, hk.1, hk.2.trans heq⟩
  · obtain ⟨i, hi⟩ := List.mem_iff_getElem?.1 hk
    exact hdead k hk (h.each i k hi).fetchId_le

/-- A page is asked for. -/
theorem following_fetchPage (h : Following listing place ends C p) (hnone : NoneLive p)
    {merchantKey : String} {cursor : Option String} {append : Bool}
    (hasks : Asks place p.shared ⟨merchantKey, cursor, append, p.shared.fetchIdRef, .importing⟩) :
    Following listing place ends C (fetchPage C p merchantKey cursor append) := by
  have hs := h.shared
  unfold fetchPage
  split_ifs with hcontract
  · obtain ⟨hloading, hcursor⟩ := hs.configured hcontract
    refine (following_act _ h ?_ le_rfl fun _ => hnone).1
    refine ⟨fun m _ => List.nil_prefix, ?_, hloading.symm, fun _ => ⟨hloading, hcursor⟩,
      fun _ hne => absurd hcursor hne, fun _ hne => absurd rfl hne⟩
    change false = p.shared.cursorRef.isSome
    rw [hcursor]
    rfl
  · have haligned : Aligned listing place ends C
        { p.shared with loadingRef := true, isLoading := true, error := none } :=
      ⟨hs.begins, hs.hasMore, rfl, fun h => absurd h hcontract, nofun, nofun⟩
    obtain ⟨hact, hdead⟩ := following_act
      (fun s => { s with loadingRef := true, isLoading := true, error := none })
      h haligned le_rfl fun _ => hnone
    refine hact.start ⟨le_rfl, fun _ => ⟨rfl, ?_⟩⟩ fun i k hk => ?_
    · exact ⟨hasks.cursor, hasks.first, hasks.next, hasks.place⟩
    · have hnew := hdead k (List.mem_of_getElem? hk)
      exact ⟨⟨le_rfl, fun hlive => hnew hlive.2⟩, (hact.each i k hk).fetchId_le,
        fun hlive => hnew hlive.1⟩

theorem following_restart (h : Following listing place ends C p) (key : String) :
    Following listing place ends C (restart C p key) := by
  have hs := h.shared
  obtain ⟨hact, hnone⟩ := following_act (fun s => { s with
      fetchedForRef := some (scopeKey C key)
      subscriptions := []
      pages := []
      hasMore := false
      cursorRef := none
      fetchIdRef := s.fetchIdRef + 1 }) h
    ⟨fun m _ => List.nil_prefix, rfl, hs.isLoading, fun h => ⟨(hs.configured h).1, rfl⟩,
      fun _ hne => absurd rfl hne, fun _ hne => absurd rfl hne⟩
    (Nat.le_succ _) fun heq => absurd heq (Nat.succ_ne_self _)
  exact following_fetchPage hact hnone ⟨rfl, fun _ => rfl, nofun, fun m _ => rfl⟩

/-- A render with another wallet. -/
theorem following_render (h : Following listing place ends C p) (publicKey : Option String) :
    Following listing place ends C (p.act fun s => { s with publicKey := publicKey }) := by
  have hs := h.shared
  refine h.act ⟨hs.begins, hs.hasMore, hs.isLoading, hs.configured, hs.started,
    fun hloading hpages m hm => ?_⟩ (fun k _ hk => ⟨hk.fetchId_le, fun hlive => ?_⟩) fun _ _ h => h
  · exact ⟨(hs.idle hloading hpages m hm).cursor, (hs.idle hloading hpages m hm).last⟩
  · obtain ⟨hloading, hprogress⟩ := hk.live hlive
    refine ⟨hloading, ?_⟩
    rw [InProgress] at hprogress ⊢
    cases hstage : k.stage with
    | importing | requesting =>
      rw [hstage] at hprogress
      exact ⟨hprogress.cursor, hprogress.first, hprogress.next, hprogress.place⟩
    | reading page subscriber eventToken rest results =>
      rw [hstage] at hprogress
      exact ⟨hprogress.begins, fun hown =>
        ⟨(hprogress.ends hown).cursor, (hprogress.ends hown).last⟩⟩
    | ended => trivial

/-- The next page is asked for where the pages have ended. -/
theorem asks_next (hs : Aligned listing place ends C s) (hloading : s.loadingRef = false)
    {cursor : String} (hcursor : s.cursorRef = some cursor) (merchantKey : String) :
    Asks place s ⟨merchantKey, some cursor, true, s.fetchIdRef, .importing⟩ := by
  have hpages := hs.started hloading (hcursor ▸ Option.some_ne_none cursor)
  exact ⟨hcursor, nofun, fun _ => ⟨hpages, Option.some_ne_none cursor⟩,
    fun m hm => (hs.idle hloading hpages m hm).cursor cursor hcursor⟩

/-- **One input**, if what arrives is honest. -/
theorem following_step (h : Following listing place ends C p) {input : Input}
    (hinput : Honest listing place ends p input) :
    Following listing place ends C (step C p input) := by
  cases input with
  | wallet publicKey =>
    have hrender := following_render h publicKey
    rw [step, effect]
    split
    · refine (following_act _ hrender ?_ (Nat.le_succ _) ?_).1
      · exact ⟨fun m _ => List.nil_prefix, rfl, rfl, fun _ => ⟨rfl, rfl⟩,
          fun _ hne => absurd rfl hne, fun _ hne => absurd rfl hne⟩
      · exact fun heq => absurd heq (Nat.succ_ne_self _)
    · split_ifs
      · exact hrender
      · exact following_restart hrender _
  | loadMore handle =>
    rw [step, loadMore]
    split
    · rename_i key cursor hkey hcursor
      split_ifs with hstop
      · exact h
      · rw [not_or, Bool.not_eq_true] at hstop
        have hcursor : p.shared.cursorRef = some cursor := (Option.filter_eq_some_iff.1 hcursor).1
        exact following_fetchPage h (noneLive_of_loadingRef h hstop.1)
          (asks_next h.shared hstop.1 hcursor key)
    · exact h
  | refresh handle =>
    rw [step, refresh]
    split
    · exact h
    · exact following_restart h _
  | arrival i answer =>
    refine h.resume (fun f hf => ?_) (fun f hf j k hji hk => ?_) fun f hf k k' happart => ?_
    · exact following_fetchTurn h.shared (h.each i f hf) (hinput f hf)
    · have hid := (refs_fetchTurn (C := C) p.shared f answer).1
      have hfetchId := (call_fetchTurn (C := C) p.shared f answer).1
      have happart := h.apart i j f k hji.symm hf hk
      have hlive : Live (fetchTurn C p.shared f answer).1 k → Live p.shared k := fun hlive =>
        ⟨hlive.1, hlive.2.trans hid⟩
      have hself : Live (fetchTurn C p.shared f answer).1 (fetchTurn C p.shared f answer).2 →
          Live p.shared f := live_of_live_fetchTurn
      have htracked := h.each j k hk
      refine ⟨⟨htracked.fetchId_le.trans hid.ge, fun hk' => ?_⟩, ⟨?_, ?_⟩, ?_, ?_⟩
      · rw [fetchTurn_of_not_live fun hf' => happart.2 ⟨hf', hlive hk'⟩]
        exact htracked.live (hlive hk')
      · rw [hfetchId, hid]
        exact happart.1
      · exact fun hboth => happart.2 ⟨hself hboth.1, hlive hboth.2⟩
      · rw [hid]
        exact htracked.fetchId_le
      · exact fun hboth => happart.2 ⟨hself hboth.2, hlive hboth.1⟩
    · have hid := (refs_fetchTurn (C := C) p.shared f answer).1
      rw [Exclusive, Live, Live, hid]
      exact happart

/-- **Every run** in which what arrives is honest. -/
theorem following_after {inputs : List Input}
    (h : Along (step C) (Honest listing place ends) mounted inputs) :
    Following listing place ends C (after (step C) mounted inputs) := by
  have hkeep : ∀ q input, Following listing place ends C q → Honest listing place ends q input →
      Following listing place ends C (step C q input) := fun _ _ hq hinput =>
    following_step hq hinput
  refine h.invariant hkeep (Pool.holds_idle ?_)
  exact ⟨fun m _ => List.nil_prefix, rfl, rfl, fun _ => ⟨rfl, rfl⟩, fun _ hne => absurd rfl hne,
    fun _ hne => absurd rfl hne⟩

/-! ### The connected wallet -/

/-- `loadMore` and `refresh` are called as the render of the connected wallet gives them. -/
def Fresh (p : Pool Hook Fetch) : Input → Prop
  | .loadMore handle | .refresh handle => handle.publicKey = p.shared.publicKey
  | .wallet _ | .arrival _ _ => True

/-- The pages are those of the connected wallet, which is the one that was fetched for. -/
structure OfWallet (C : Config J) (s : Hook) : Prop where
  pages : ∀ page ∈ s.pages, s.publicKey = some page.merchantKey
  fetchedFor : ∀ scope, s.fetchedForRef = some scope →
    ∃ key, s.publicKey = some key ∧ scope = scopeKey C key

/-- The calls of the current fetch are for the connected wallet. -/
def ForWallet (s : Hook) (f : Fetch) : Prop :=
  f.fetchId ≤ s.fetchIdRef ∧ (f.fetchId = s.fetchIdRef → s.publicKey = some f.merchantKey)

/-- The pages and the calls of the current fetch are for the connected wallet. -/
abbrev Owned (C : Config J) : Pool Hook Fetch → Prop :=
  Pool.Holds (OfWallet C) ForWallet fun _ _ _ => True

theorem scopeKey_injective {key key' : String} (h : scopeKey C key = scopeKey C key') :
    key = key' := by
  simpa [scopeKey, String.append_assoc] using h

/-- A list without pages. -/
theorem ofWallet_of_empty (hpages : s.pages = []) (hfor : ∀ scope, s.fetchedForRef = some scope →
    ∃ key, s.publicKey = some key ∧ scope = scopeKey C key) : OfWallet C s :=
  ⟨fun page hpage => absurd hpage (by rw [hpages]; exact List.not_mem_nil), hfor⟩

theorem not_fetched {key : Option String} (scope : String) (h : none = some scope) :
    ∃ key', key = some key' ∧ scope = scopeKey C key' :=
  absurd h.symm (Option.some_ne_none scope)

/-- What is kept of the pages is of the connected wallet. -/
theorem publicKey_of_mem_keptPages (hs : OfWallet C s) {page : FollowedPage}
    (h : page ∈ keptPages s f) : s.publicKey = some page.merchantKey := by
  unfold keptPages at h
  split_ifs at h
  · exact hs.pages page h
  · cases h

/-- The pages after a turn: those of before, those that are kept, and the one that is merged. -/
theorem mem_pages_fetchTurn {page : FollowedPage} (h : page ∈ (fetchTurn C s f answer).1.pages) :
    page ∈ s.pages ∨ f.fetchId = s.fetchIdRef ∧
      (page ∈ keptPages s f ∨ page.merchantKey = f.merchantKey) := by
  rcases fetchTurn_cases (C := C) s f answer with
    hsame | ⟨hid, hfail | ⟨t, answered, ht, ht' | ⟨results, hmerge⟩⟩⟩
  · rw [hsame] at h
    exact .inl h
  · rw [hfail] at h
    unfold fail at h
    split_ifs at h with _ happend
    · exact .inl h
    · exact .inl h
    · cases h
  · rw [ht'] at h
    rcases ht with rfl | rfl <;> exact .inl h
  · rw [hmerge] at h
    have hkept : keptPages t f = keptPages s f := by rcases ht with rfl | rfl <;> rfl
    have hpages : (merge t f answered results).pages =
        keptPages t f ++ [⟨f.merchantKey, answered.events⟩] := rfl
    rw [hpages, hkept, List.mem_append, List.mem_singleton] at h
    exact .inr ⟨hid, h.imp_right fun hnew => by rw [hnew]⟩

theorem ofWallet_fetchTurn (hs : OfWallet C s) (hf : ForWallet s f) :
    OfWallet C (fetchTurn C s f answer).1 := by
  obtain ⟨-, hkey, hfor⟩ := refs_fetchTurn (C := C) s f answer
  refine ⟨fun page hpage => ?_, by rw [hkey, hfor]; exact hs.fetchedFor⟩
  rw [hkey]
  rcases mem_pages_fetchTurn hpage with hbefore | ⟨hid, hkept | hnew⟩
  · exact hs.pages page hbefore
  · exact publicKey_of_mem_keptPages hs hkept
  · rw [hnew]
    exact hf.2 hid

/-- A change of the hook that keeps the wallet, and with it the calls of the current fetch. -/
theorem owned_act (change : Hook → Hook) (h : Owned C p) (hs : OfWallet C (change p.shared))
    (hid : p.shared.fetchIdRef ≤ (change p.shared).fetchIdRef)
    (hkey : (change p.shared).fetchIdRef = p.shared.fetchIdRef →
      (change p.shared).publicKey = p.shared.publicKey) : Owned C (p.act change) := by
  refine h.act hs (fun k _ hk => ⟨hk.1.trans hid, fun hcurrent => ?_⟩) fun _ _ _ => trivial
  have hsame : (change p.shared).fetchIdRef = p.shared.fetchIdRef := by
    have hle := hk.1
    omega
  rw [hkey hsame]
  exact hk.2 (hcurrent.trans hsame)

theorem owned_fetchPage (h : Owned C p) {merchantKey : String} (cursor : Option String)
    (append : Bool) (hkey : p.shared.publicKey = some merchantKey) :
    Owned C (fetchPage C p merchantKey cursor append) := by
  have hs := h.shared
  unfold fetchPage
  split_ifs
  · exact owned_act _ h (ofWallet_of_empty rfl hs.fetchedFor) le_rfl fun _ => rfl
  · refine (owned_act (fun s => { s with loadingRef := true, isLoading := true, error := none })
      h ⟨hs.pages, hs.fetchedFor⟩ le_rfl fun _ => rfl).start ⟨le_rfl, fun _ => hkey⟩
        fun _ _ _ => ⟨trivial, trivial⟩

theorem owned_restart (h : Owned C p) {key : String} (hkey : p.shared.publicKey = some key) :
    Owned C (restart C p key) := by
  refine owned_fetchPage (owned_act (fun s => { s with
      fetchedForRef := some (scopeKey C key)
      subscriptions := []
      pages := []
      hasMore := false
      cursorRef := none
      fetchIdRef := s.fetchIdRef + 1 }) h (ofWallet_of_empty rfl fun scope hscope => ?_)
    (Nat.le_succ _) fun _ => rfl) none false hkey
  exact ⟨key, hkey, (Option.some.inj hscope).symm⟩

theorem truthy_eq_some {text : Option String} {key : String} (h : truthy text = some key) :
    text = some key :=
  (Option.filter_eq_some_iff.1 h).1

/-- **One input**, if `loadMore` and `refresh` are those of the connected wallet. -/
theorem owned_step (h : Owned C p) {input : Input} (hinput : Fresh p input) :
    Owned C (step C p input) := by
  cases input with
  | wallet publicKey =>
    rw [step, effect]
    split
    · have hcleared := owned_act (fun s => { s with
          publicKey := publicKey
          subscriptions := []
          pages := []
          error := none
          isLoading := false
          hasMore := false
          cursorRef := none
          fetchedForRef := none
          fetchIdRef := s.fetchIdRef + 1
          loadingRef := false }) h (ofWallet_of_empty rfl not_fetched) (Nat.le_succ _) fun heq =>
            absurd heq (Nat.succ_ne_self _)
      exact hcleared
    · rename_i key hkey
      split_ifs with hsame
      · -- the wallet is the one that was fetched for
        obtain ⟨key', hkey', hscope⟩ := h.shared.fetchedFor _ hsame
        have hconnected : publicKey = p.shared.publicKey := by
          rw [truthy_eq_some hkey, hkey', scopeKey_injective hscope]
        subst hconnected
        exact h
      · have hfor : ∀ scope, some (scopeKey C key) = some scope →
            ∃ key', publicKey = some key' ∧ scope = scopeKey C key' := fun scope hscope =>
          ⟨key, truthy_eq_some hkey, (Option.some.inj hscope).symm⟩
        have hcleared := owned_act (fun s => { s with
            publicKey := publicKey
            fetchedForRef := some (scopeKey C key)
            subscriptions := []
            pages := []
            hasMore := false
            cursorRef := none
            fetchIdRef := s.fetchIdRef + 1 }) h (ofWallet_of_empty rfl hfor) (Nat.le_succ _)
              fun heq => absurd heq (Nat.succ_ne_self _)
        exact owned_fetchPage hcleared none false (truthy_eq_some hkey)
  | loadMore handle =>
    rw [step, loadMore]
    split
    · rename_i key cursor hkey _
      split_ifs
      · exact h
      · exact owned_fetchPage h _ _ (hinput.symm.trans (truthy_eq_some hkey))
    · exact h
  | refresh handle =>
    rw [step, refresh]
    split
    · exact h
    · rename_i key hkey
      exact owned_restart h (hinput.symm.trans (truthy_eq_some hkey))
  | arrival i answer =>
    refine h.resume (fun f hf => ?_) (fun f hf j k _ hk => ?_) fun _ _ _ _ _ => trivial
    · obtain ⟨hid, hkey, -⟩ := refs_fetchTurn (C := C) p.shared f answer
      obtain ⟨hfetchId, hmerchant⟩ := call_fetchTurn (C := C) p.shared f answer
      refine ⟨ofWallet_fetchTurn h.shared (h.each i f hf), ?_⟩
      rw [ForWallet, hid, hkey, hfetchId, hmerchant]
      exact h.each i f hf
    · obtain ⟨hid, hkey, -⟩ := refs_fetchTurn (C := C) p.shared f answer
      refine ⟨?_, trivial, trivial⟩
      rw [ForWallet, hid, hkey]
      exact h.each j k hk

/-- **The connected wallet.** The pages are those of the wallet in every run whose handles are those
of the render that shows it. -/
theorem owned_after {inputs : List Input} (h : Along (step C) Fresh mounted inputs) :
    Owned C (after (step C) mounted inputs) := by
  have hkeep : ∀ q input, Owned C q → Fresh q input → Owned C (step C q input) :=
    fun _ _ hq hinput => owned_step hq hinput
  exact h.invariant hkeep (Pool.holds_idle (ofWallet_of_empty rfl not_fetched))

/-! ### The whole list -/

section Complete

variable {sdk : StellarSdk J} {W : Wire Address}

/-- A subscribe event of the contract is decoded. -/
theorem decodeSubscribeEvent_of_received {raw : RawEventResponse} {s m token : Address}
    {amount : ℤ} (h : Received sdk W raw.topic raw.value (.subscribe s m token amount)) :
    decodeSubscribeEvent sdk raw =
      some ⟨sdk.textOf W s, sdk.textOf W m, sdk.textOf W token⟩ := by
  have hnatives : raw.topic.map sdk.native = [some (.string "subscribe"),
      some (.string (sdk.textOf W s)), some (.string (sdk.textOf W m)),
        some (.string (sdk.textOf W token))] := by
    rw [h.map_native]
    simp only [Event.topics, List.map_cons, List.map_nil, sdk.symbol, sdk.address,
      StellarSdk.textOf]
  have hlength : raw.topic.length = 4 := by
    rw [← List.length_map sdk.native, hnatives]
    rfl
  have hall : raw.topic.mapM sdk.native = (raw.topic.map sdk.native).mapM id := by
    rw [List.mapM_map]
    rfl
  rw [decodeSubscribeEvent, if_neg (by omega), hall, hnatives]
  rfl

end Complete

variable (C) in
/-- The subscriber occurs in a subscribe event of the contract for the merchant. -/
def OccursIn (W : Wire Address) (events : List RawEventResponse) (m subscriber : String) : Prop :=
  ∃ raw ∈ events, ∃ s merchant token amount,
    Received C.sdk W raw.topic raw.value (.subscribe s merchant token amount) ∧
      C.sdk.textOf W merchant = m ∧ C.sdk.textOf W s = subscriber

variable (listing ends) in
/-- Every page has been followed for the merchant: the events that have been merged are all of the
listing, or there is nothing more to load. -/
structure Followed (m : String) (s : Hook) : Prop where
  own : OfMerchant m s.pages
  reached : (eventsOf s.pages).length = (listing m).length ∨
    ends ∧ s.pages ≠ [] ∧ s.isLoading = false ∧ s.hasMore = false

variable (C) in
/-- The list has each subscriber of the events exactly once and no other, in order. -/
structure Complete (W : Wire Address) (events : List RawEventResponse) (m : String) (s : Hook) :
    Prop where
  once : ∀ subscriber, OccursIn C W events m subscriber →
    (s.subscriptions.map (·.subscriber)).count subscriber = 1
  only : ∀ item ∈ s.subscriptions, ∃ raw ∈ events, ∃ token,
    decodeSubscribeEvent C.sdk raw = some ⟨item.subscriber, m, token⟩
  sorted : s.subscriptions.Pairwise ShownBefore

/-- What the pages of a merchant show is what their events say. -/
theorem exists_shows_iff (h : OfMerchant m s.pages) (subscriber : String) :
    (∃ page ∈ s.pages, page.Shows C subscriber) ↔ ∃ raw ∈ eventsOf s.pages, ∃ token,
      decodeSubscribeEvent C.sdk raw = some ⟨subscriber, m, token⟩ := by
  simp only [eventsOf, List.mem_flatMap, FollowedPage.Shows]
  constructor
  · rintro ⟨page, hpage, raw, hraw, token, hdecoded⟩
    rw [h page hpage] at hdecoded
    exact ⟨raw, ⟨page, hpage, hraw⟩, token, hdecoded⟩
  · rintro ⟨raw, ⟨page, hpage, hraw⟩, token, hdecoded⟩
    rw [← h page hpage] at hdecoded
    exact ⟨page, hpage, raw, hraw, token, hdecoded⟩

/-- An exact list is complete for the events of its pages. -/
theorem complete_of_exact (W : Wire Address) (hs : Exact C s) (h : OfMerchant m s.pages) :
    Complete C W (eventsOf s.pages) m s := by
  refine ⟨fun subscriber ⟨raw, hraw, s', merchant, token, amount, hreceived, hm, hsub⟩ => ?_,
    fun item hitem => ?_, hs.sorted⟩
  · refine List.count_eq_one_of_mem hs.nodup ((hs.mem_iff subscriber).2 ?_)
    rw [exists_shows_iff h]
    exact ⟨raw, hraw, C.sdk.textOf W token,
      hm ▸ hsub ▸ decodeSubscribeEvent_of_received hreceived⟩
  · rw [← exists_shows_iff h]
    exact (hs.mem_iff _).1 (List.mem_map_of_mem hitem)

/-- When every page has been followed, the events are all of the listing. -/
theorem eventsOf_eq_of_followed (hs : Aligned listing place ends C s)
    (h : Followed listing ends m s) : eventsOf s.pages = listing m := by
  refine (hs.begins m h.own).eq_of_length ?_
  rcases h.reached with hlength | ⟨hends, hpages, hloading, hmore⟩
  · exact hlength
  · have hnone : s.cursorRef = none := by
      rw [hs.hasMore] at hmore
      exact Option.not_isSome_iff_eq_none.1 (Bool.not_eq_true _ ▸ hmore)
    exact (hs.idle (hs.isLoading ▸ hloading) hpages m h.own).last hends hnone

/-- **The merchant list.** Once a fetch is superseded, nothing that arrives for it changes the hook.
Once every page has been followed, the list is complete for the merchant. The pages are those of
the connected wallet, if `loadMore` and `refresh` are called as its render gives them. -/
theorem merchantList_complete (C : Config J) (W : Wire Address)
    (listing : String → List RawEventResponse) (place : String → String → ℕ)
    (inputs : List Input) :
    (∀ i f, (after (step C) mounted inputs).calls[i]? = some f →
      f.fetchId ≠ (after (step C) mounted inputs).shared.fetchIdRef → ∀ later answer,
        ((after (step C) mounted (inputs ++ later)).resume (fetchTurn C) i answer).shared =
          (after (step C) mounted (inputs ++ later)).shared) ∧
    (∀ ends, Along (step C) (Honest listing place ends) mounted inputs →
      ∀ m, Followed listing ends m (after (step C) mounted inputs).shared →
        Complete C W (listing m) m (after (step C) mounted inputs).shared) ∧
    (Along (step C) Fresh mounted inputs → ∀ page ∈ (after (step C) mounted inputs).shared.pages,
      (after (step C) mounted inputs).shared.publicKey = some page.merchantKey) := by
  have hsound : Sound C (after (step C) mounted inputs) := sound_after C inputs
  refine ⟨fun i f hf hne later answer => ?_, fun ends hhonest m hfollowed => ?_, fun hfresh => ?_⟩
  · rw [after_append]
    exact superseded_unchanged (superseded_of_ne hsound hf hne) later answer
  · have haligned := (following_after hhonest).shared
    rw [← eventsOf_eq_of_followed haligned hfollowed]
    exact complete_of_exact W hsound.shared hfollowed.own
  · exact (owned_after hfresh).shared.pages

/-! ### A sample -/

/-- A contract with one subscribe event. -/
def sampleConfig : Config sampleNumber where
  sdk := sampleStellarFor (.subscribe 1 2 9 100)
  contractId := "C"
  rpcUrl := "R"
  isoText := toString

/-- The merchant of the event. -/
def sampleMerchant : String := sampleConfig.sdk.textOf sampleWire 2

/-- The wallet of the merchant is connected, the list is refreshed, and the second fetch comes to
its end. -/
def sampleInputs : List Input :=
  [.wallet (some sampleMerchant), .refresh ⟨some sampleMerchant, false⟩, .arrival 1 .imported,
    .arrival 0 .imported, .arrival 1 (.events ⟨[sampleRawEvent], none⟩),
    .arrival 1 (.state 0 (.record "T" 100 86400 1))]

/-- The server lists the event for its merchant. -/
def sampleListing (m : String) : List RawEventResponse :=
  if m = sampleMerchant then [sampleRawEvent] else []

theorem sampleListing_sampleMerchant : sampleListing sampleMerchant = [sampleRawEvent] := if_pos rfl

theorem honest_sampleInputs :
    Along (step sampleConfig) (Honest sampleListing (fun _ _ => 0) True) mounted sampleInputs := by
  refine ⟨trivial, trivial, fun _ _ => trivial, fun _ _ => trivial, fun f hf _ => ?_,
    fun _ _ => ?_, trivial⟩
  · obtain rfl := Option.some.inj hf
    have hpage : IsPage sampleListing (fun _ _ => 0) sampleMerchant none
        ⟨[sampleRawEvent], none⟩ :=
      ⟨by rw [sampleListing_sampleMerchant]; exact List.prefix_rfl, nofun⟩
    have hlast : IsLast sampleListing (fun _ _ => 0) sampleMerchant none
        ⟨[sampleRawEvent], none⟩ := by
      rw [IsLast, sampleListing_sampleMerchant]
      rfl
    exact ⟨hpage, fun _ _ => hlast⟩
  · change 1 * 1000 ≤ 8640000000000000
    decide

theorem followed_sampleInputs : Followed sampleListing True sampleMerchant
    (after (step sampleConfig) mounted sampleInputs).shared := by
  have hpages : (after (step sampleConfig) mounted sampleInputs).shared.pages =
      [⟨sampleMerchant, [sampleRawEvent]⟩] := rfl
  refine ⟨?_, .inl ?_⟩
  · rw [hpages]
    exact List.forall_mem_singleton.2 rfl
  · rw [hpages, sampleListing_sampleMerchant]
    rfl

/-- The subscriber of the event is shown once, and the first fetch changes nothing any more. -/
theorem merchantList_complete_sample :
    ((after (step sampleConfig) mounted sampleInputs).shared.subscriptions.map
        (·.subscriber)).count (sampleConfig.sdk.textOf sampleWire 1) = 1 ∧
      ((after (step sampleConfig) mounted (sampleInputs ++ [.refresh ⟨none, true⟩])).resume
          (fetchTurn sampleConfig) 0 .rejected).shared =
        (after (step sampleConfig) mounted (sampleInputs ++ [.refresh ⟨none, true⟩])).shared ∧
      (after (step sampleConfig) mounted sampleInputs).shared.publicKey = some sampleMerchant := by
  obtain ⟨hsuperseded, hcomplete, hwallet⟩ :=
    merchantList_complete sampleConfig sampleWire sampleListing (fun _ _ => 0) sampleInputs
  refine ⟨?_, hsuperseded 0 _ rfl (by decide) _ _, ?_⟩
  · refine (hcomplete True honest_sampleInputs _ followed_sampleInputs).once _ ?_
    refine ⟨sampleRawEvent, ?_, 1, 2, 9, 100, ⟨rfl, rfl⟩, rfl, rfl⟩
    rw [sampleListing_sampleMerchant]
    exact List.mem_singleton_self _
  · exact hwallet ⟨trivial, rfl, trivial, trivial, trivial, trivial, trivial⟩ ⟨_, _⟩
      List.mem_cons_self

end SorobanPay.MerchantSubscriptions
