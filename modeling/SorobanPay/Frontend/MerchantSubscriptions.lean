import SorobanPay.Foundation.Doubles
import SorobanPay.Foundation.InsertionMap
import SorobanPay.Foundation.Interleaving
import SorobanPay.Foundation.Run
import SorobanPay.Frontend.PaymentHistory

/-!
# The subscriptions of a merchant

`useMerchantSubscriptions` of `hooks/useMerchantSubscriptions.ts` reads the subscribe events of a
merchant page by page, asks the contract for the subscription of each subscriber, and merges what it
has read into the list that is shown. A fetch is given a number when it begins, and looks after each
wait whether its number is still the current one. A change of the wallet and `refresh` give a new
number; `loadMore` goes on under the same one.

## Main definitions

* `fetchTurn`: a fetch from one wait to the next.
* `step`: the wallet changes, `loadMore` or `refresh` is called, or something arrives.
* `Exact`: the list is what the pages of the current fetch say.

## Main results

* `superseded_unchanged`: nothing that arrives for a superseded fetch changes the hook.
* `exact_merge`: one page.
* `sound_after`: the list is exact in every state.
-/

set_option autoImplicit false

namespace SorobanPay.MerchantSubscriptions

open Foundation Frontend

variable {N Address : Type} {J : JsNumber N}

/-! ### What is read -/

/-- `MerchantSubscription`. -/
structure MerchantSubscription where
  subscriber : String
  merchant : String
  token : String
  amount : String
  amountRaw : ℤ
  interval : ℕ
  intervalLabel : String
  nextPaymentTimestamp : ℕ
  nextPaymentDate : String
  isDue : Bool
  isExpired : Bool
  deriving DecidableEq

/-- What the options of the hook and the platform give: the SDK, the contract and the server, and
the text of a time in milliseconds. -/
structure Config (J : JsNumber N) where
  sdk : StellarSdk J
  contractId : String
  rpcUrl : String
  isoText : ℕ → String

/-- A subscribe event that has been decoded. -/
structure SubscribeEvent where
  subscriber : String
  merchant : String
  token : String
  deriving DecidableEq

/-- What `get_subscription` comes to: something fails, or there is no record, or a record. -/
inductive SimResult
  | failure
  | void
  | record (token : String) (amount : ℤ) (interval nextPayment : ℕ)

/-- `RawSubscriptionData`. -/
structure RawSubscriptionData where
  token : String
  amount : ℤ
  interval : ℕ
  nextPayment : ℕ

/-- An answer to `getEvents`. -/
structure EventsResponse where
  events : List RawEventResponse
  cursor : Option String

/-- `PAGE_SIZE`. -/
def pageSize : ℕ := 100

/-- `decodeSubscribeEvent`. -/
def decodeSubscribeEvent (sdk : StellarSdk J) (rawEvent : RawEventResponse) :
    Option SubscribeEvent :=
  if rawEvent.topic.length < 4 then none
  else do
    match ← rawEvent.topic.mapM sdk.native with
    | .string "subscribe" :: subscriberVal :: merchantVal :: tokenVal :: _ =>
      let subscriber ← subscriberVal.toText J
      let merchant ← merchantVal.toText J
      let token ← tokenVal.toText J
      return ⟨subscriber, merchant, token⟩
    | _ => none

/-- `fetchSubscriptionState`; `Number` rounds the two times. -/
def fetchSubscriptionState : SimResult → Option RawSubscriptionData
  | .failure | .void => none
  | .record token amount interval nextPayment =>
    if token = "" ∨ roundBits 53 interval = 0 then none
    else some ⟨token, amount, roundBits 53 interval, roundBits 53 nextPayment⟩

/-- `classifyDue`. -/
def classifyDue (nowMs nextPaymentTimestamp : ℕ) : Bool :=
  nextPaymentTimestamp ≠ 0 && nextPaymentTimestamp ≤ nowMs / 1000

/-- `formatInterval`, of a number that is printed with all its digits. -/
def formatInterval (seconds : ℕ) : String :=
  if 86400 ≤ seconds ∧ seconds % 86400 = 0 then
    let days := seconds / 86400
    toString days ++ " " ++ if days = 1 then "day" else "days"
  else toString seconds ++ " seconds"

variable (C : Config J)

/-- `new Date(ms).toISOString()`, which throws after the last date. -/
def toISOString (ms : ℕ) : Option String :=
  if ms ≤ 8640000000000000 then some (C.isoText ms) else none

/-- The entry of a subscriber, if nothing throws. -/
def entryOf (merchantKey subscriber eventToken : String) (nowMs : ℕ) :
    Option RawSubscriptionData → Option MerchantSubscription
  | some state => do
    let nextPaymentDate ←
      toISOString C (if 0 < state.nextPayment then state.nextPayment * 1000 else 0)
    return {
      subscriber, merchant := merchantKey
      token := if state.token = "" then eventToken else state.token
      amount := stroopsToTokens state.amount
      amountRaw := state.amount
      interval := state.interval
      intervalLabel := formatInterval state.interval
      nextPaymentTimestamp := state.nextPayment
      nextPaymentDate
      isDue := classifyDue nowMs state.nextPayment
      isExpired := false }
  | none => some {
      subscriber, merchant := merchantKey, token := eventToken
      amount := "—", amountRaw := 0, interval := 0, intervalLabel := "—"
      nextPaymentTimestamp := 0, nextPaymentDate := "—", isDue := false, isExpired := true }

/-- `discoveredSubscribers`, with the token of the last event of each. -/
def discoveredSubscribers (merchantKey : String) (events : List RawEventResponse) :
    InsertionMap String String :=
  events.foldl (fun discovered raw =>
    match decodeSubscribeEvent C.sdk raw with
    | none => discovered
    | some decoded =>
      if decoded.merchant = merchantKey then discovered.set decoded.subscriber decoded.token
      else discovered) .empty

/-- The comparison of `sortSubscriptions`. -/
def compareSubscriptions (a b : MerchantSubscription) : ℤ :=
  if a.isExpired ≠ b.isExpired then if a.isExpired then 1 else -1
  else if a.isDue ≠ b.isDue then if a.isDue then -1 else 1
  else a.nextPaymentTimestamp - b.nextPaymentTimestamp

/-- The list after a page, `current` being what is kept of the list before. -/
def mergeSubscriptions (current results : List MerchantSubscription) :
    List MerchantSubscription :=
  (results.foldl (fun merged item => merged.set item.subscriber item)
    (InsertionMap.ofValues (·.subscriber) current)).values.mergeSort
      fun a b => compareSubscriptions a b ≤ 0

/-! ### The hook -/

/-- A page whose events have been merged. -/
structure FollowedPage where
  merchantKey : String
  events : List RawEventResponse

/-- The state of the hook and its references. `pages` notes the pages that the list was merged
from; the hook does not have it. -/
structure Hook where
  publicKey : Option String := none
  subscriptions : List MerchantSubscription := []
  isLoading : Bool := false
  error : Option String := none
  hasMore : Bool := false
  fetchIdRef : ℕ := 0
  fetchedForRef : Option String := none
  cursorRef : Option String := none
  loadingRef : Bool := false
  pages : List FollowedPage := []

/-- Where a call of `fetchPage` waits: for the import, for the events, or, for a subscriber of its
page, for the contract. -/
inductive Stage
  | importing
  | requesting
  | reading (page : EventsResponse) (subscriber eventToken : String)
      (rest : List (String × String)) (results : List MerchantSubscription)
  | ended

/-- A call of `fetchPage`. -/
structure Fetch where
  merchantKey : String
  cursor : Option String
  append : Bool
  fetchId : ℕ
  stage : Stage

/-- What a call of `fetchPage` waits for, when it comes. -/
inductive Answer
  | imported
  | rejected
  | events (response : EventsResponse)
  | state (nowMs : ℕ) (result : SimResult)

/-- The call has ended. -/
def Fetch.finished (f : Fetch) : Fetch := { f with stage := .ended }

/-- `catch` and `finally`. -/
def fail (s : Hook) (f : Fetch) : Hook × Fetch :=
  (if s.fetchIdRef ≠ f.fetchId then s
    else { s with
      error := some "Failed to load subscriptions. Please retry."
      subscriptions := if f.append then s.subscriptions else []
      pages := if f.append then s.pages else []
      loadingRef := false
      isLoading := false }, f.finished)

/-- The page is merged, and `finally`. -/
def merge (s : Hook) (f : Fetch) (page : EventsResponse) (results : List MerchantSubscription) :
    Hook :=
  { s with
    subscriptions := mergeSubscriptions (if f.append then s.subscriptions else []) results
    pages := (if f.append then s.pages else []) ++ [⟨f.merchantKey, page.events⟩]
    loadingRef := false
    isLoading := false }

/-- The head of the loop over the subscribers of a page, and what comes after the loop. -/
def readNext (s : Hook) (f : Fetch) (page : EventsResponse) (results : List MerchantSubscription)
    (entries : List (String × String)) : Hook × Fetch :=
  if s.fetchIdRef ≠ f.fetchId then (s, f.finished)
  else match entries with
    | [] => (merge s f page results, f.finished)
    | (subscriber, eventToken) :: rest =>
      (s, { f with stage := .reading page subscriber eventToken rest results })

/-- Another page can be asked for. -/
def moreAvailable (page : EventsResponse) : Bool :=
  page.cursor.any (· ≠ "") && pageSize ≤ page.events.length

/-- The cursor and the flag after a page has been received. -/
def receive (s : Hook) (page : EventsResponse) : Hook :=
  { s with
    cursorRef := if moreAvailable page then page.cursor else none
    hasMore := moreAvailable page }

/-- A call of `fetchPage` from one wait to the next. -/
def fetchTurn (s : Hook) (f : Fetch) (answer : Answer) : Hook × Fetch :=
  match f.stage with
  | .importing =>
    match answer with
    | .imported => (s, { f with stage := .requesting })
    | .rejected => fail s f
    | .events _ | .state _ _ => (s, f)
  | .requesting =>
    match answer with
    | .events page =>
      if s.fetchIdRef ≠ f.fetchId then (s, f.finished)
      else readNext (receive s page) f page []
        (discoveredSubscribers C f.merchantKey page.events).entries
    | .rejected => fail s f
    | .imported | .state _ _ => (s, f)
  | .reading page subscriber eventToken rest results =>
    match answer with
    | .state nowMs result =>
      match entryOf C f.merchantKey subscriber eventToken nowMs (fetchSubscriptionState result) with
      | none => fail s f
      | some item => readNext s f page (results ++ [item]) rest
    | .imported | .rejected | .events _ => (s, f)
  | .ended => (s, f)

/-- `fetchPage`, up to its first wait. -/
def fetchPage (p : Pool Hook Fetch) (merchantKey : String) (cursor : Option String)
    (append : Bool) : Pool Hook Fetch :=
  if C.contractId = "" then
    p.act fun s => { s with
      subscriptions := []
      pages := []
      hasMore := false
      error := some "Contract ID is not configured."
      isLoading := false }
  else
    (p.act fun s => { s with loadingRef := true, isLoading := true, error := none }).start
      ⟨merchantKey, cursor, append, p.shared.fetchIdRef, .importing⟩

/-- `scopeKey`. -/
def scopeKey (publicKey : String) : String :=
  publicKey ++ ":" ++ C.contractId ++ ":" ++ C.rpcUrl

/-- A new fetch for a merchant. -/
def restart (p : Pool Hook Fetch) (publicKey : String) : Pool Hook Fetch :=
  fetchPage C (p.act fun s => { s with
    fetchedForRef := some (scopeKey C publicKey)
    subscriptions := []
    pages := []
    hasMore := false
    cursorRef := none
    fetchIdRef := s.fetchIdRef + 1 }) publicKey none false

/-- A text that is there and not empty. -/
def truthy (text : Option String) : Option String := text.filter (· ≠ "")

/-- The effect, when the wallet has changed. -/
def effect (p : Pool Hook Fetch) (publicKey : Option String) : Pool Hook Fetch :=
  let p := p.act fun s => { s with publicKey := publicKey }
  match truthy publicKey with
  | none => p.act fun s => { s with
      subscriptions := []
      pages := []
      error := none
      isLoading := false
      hasMore := false
      cursorRef := none
      fetchedForRef := none
      fetchIdRef := s.fetchIdRef + 1
      loadingRef := false }
  | some key => if p.shared.fetchedForRef = some (scopeKey C key) then p else restart C p key

/-- What `loadMore` and `refresh` have captured in the render that they come from. -/
structure Handle where
  publicKey : Option String
  hasMore : Bool

/-- `loadMore`. -/
def loadMore (p : Pool Hook Fetch) (handle : Handle) : Pool Hook Fetch :=
  match truthy handle.publicKey, truthy p.shared.cursorRef with
  | some key, some cursor =>
    if p.shared.loadingRef = true ∨ handle.hasMore = false then p
    else fetchPage C p key (some cursor) true
  | _, _ => p

/-- `refresh`. -/
def refresh (p : Pool Hook Fetch) (handle : Handle) : Pool Hook Fetch :=
  match truthy handle.publicKey with
  | none => p
  | some key => restart C p key

/-- The wallet changes, a function of some render is called, or something arrives for a call. -/
inductive Input
  | wallet (publicKey : Option String)
  | loadMore (handle : Handle)
  | refresh (handle : Handle)
  | arrival (i : ℕ) (answer : Answer)

/-- One input. -/
def step (p : Pool Hook Fetch) : Input → Pool Hook Fetch
  | .wallet publicKey => effect C p publicKey
  | .loadMore handle => loadMore C p handle
  | .refresh handle => refresh C p handle
  | .arrival i answer => p.resume (fetchTurn C) i answer

/-- The component has just been rendered for the first time. -/
def mounted : Pool Hook Fetch := .idle {}

/-! ### What the list is for -/

/-- The subscriber occurs in a subscribe event of the page. -/
def FollowedPage.Shows (page : FollowedPage) (subscriber : String) : Prop :=
  ∃ raw ∈ page.events, ∃ token,
    decodeSubscribeEvent C.sdk raw = some ⟨subscriber, page.merchantKey, token⟩

/-- Expired entries come last, due ones before others, and then the next payment decides. -/
def ShownBefore (a b : MerchantSubscription) : Prop :=
  a.isExpired = false ∧ b.isExpired = true ∨ a.isExpired = b.isExpired ∧
    (a.isDue = true ∧ b.isDue = false ∨
      a.isDue = b.isDue ∧ a.nextPaymentTimestamp ≤ b.nextPaymentTimestamp)

/-- The list shows the subscribers of the pages, each exactly once and in order. -/
structure Exact (s : Hook) : Prop where
  nodup : (s.subscriptions.map (·.subscriber)).Nodup
  mem_iff : ∀ subscriber, subscriber ∈ s.subscriptions.map (·.subscriber) ↔
    ∃ page ∈ s.pages, page.Shows C subscriber
  sorted : s.subscriptions.Pairwise ShownBefore

/-- The call stands in the loop over the subscribers of its page, with the entries of those that it
has read. -/
def Reads (f : Fetch) : Prop :=
  ∀ page subscriber eventToken rest results,
    f.stage = .reading page subscriber eventToken rest results →
      results.map (·.subscriber) ++ subscriber :: rest.map Prod.fst =
        (discoveredSubscribers C f.merchantKey page.events).entries.map Prod.fst

variable {C} {s : Hook} {f : Fetch} {page : EventsResponse} {p : Pool Hook Fetch} {i : ℕ}
  {answer : Answer} {results : List MerchantSubscription}

/-! ### Superseded fetches -/

theorem readNext_cases (entries : List (String × String)) :
    (readNext s f page results entries).1 = s ∨ f.fetchId = s.fetchIdRef ∧
      (readNext s f page results entries).1 = merge s f page results := by
  unfold readNext
  split_ifs with hid
  · exact .inl rfl
  · cases entries with
    | nil => exact .inr ⟨(not_not.1 hid).symm, rfl⟩
    | cons entry rest => exact .inl rfl

/-- What a turn can do to the hook: nothing, or, if the fetch is the current one, it fails, it
receives its page, or it merges its page, which it may have received in the same turn. -/
theorem fetchTurn_cases (s : Hook) (f : Fetch) (answer : Answer) :
    (fetchTurn C s f answer).1 = s ∨ f.fetchId = s.fetchIdRef ∧
      ((fetchTurn C s f answer).1 = (fail s f).1 ∨ ∃ t page, (t = s ∨ t = receive s page) ∧
        ((fetchTurn C s f answer).1 = t ∨
          ∃ results, (fetchTurn C s f answer).1 = merge t f page results)) := by
  have hfail : (fail s f).1 = s ∨ f.fetchId = s.fetchIdRef ∧ ((fail s f).1 = (fail s f).1 ∨
      ∃ t page, (t = s ∨ t = receive s page) ∧
        ((fail s f).1 = t ∨ ∃ results, (fail s f).1 = merge t f page results)) := by
    by_cases hid : f.fetchId = s.fetchIdRef
    · exact .inr ⟨hid, .inl rfl⟩
    · exact .inl (if_pos (Ne.symm hid))
  unfold fetchTurn
  cases f.stage with
  | importing => cases answer with
    | rejected => exact hfail
    | imported | events _ | state _ _ => exact .inl rfl
  | requesting => cases answer with
    | events page =>
      dsimp only
      split_ifs with hid
      · exact .inl rfl
      · refine .inr ⟨(not_not.1 hid).symm, .inr ⟨receive s page, page, .inr rfl, ?_⟩⟩
        exact (readNext_cases _).imp_right fun h => ⟨[], h.2⟩
    | rejected => exact hfail
    | imported | state _ _ => exact .inl rfl
  | reading page subscriber eventToken rest results => cases answer with
    | state nowMs result =>
      dsimp only
      split
      · exact hfail
      · rename_i item hitem
        refine (readNext_cases rest).imp_right fun h => ⟨h.1, .inr ⟨s, page, .inl rfl, .inr ?_⟩⟩
        exact ⟨_, h.2⟩
    | imported | rejected | events _ => exact .inl rfl
  | ended => exact .inl rfl

/-- In its turn, a superseded fetch leaves the hook as it is. -/
theorem fetchTurn_superseded (h : f.fetchId ≠ s.fetchIdRef) (answer : Answer) :
    (fetchTurn C s f answer).1 = s :=
  (fetchTurn_cases s f answer).resolve_right fun hcurrent => h hcurrent.1

/-- A turn changes neither the wallet, nor what was fetched for, nor the current number. -/
theorem refs_fetchTurn (s : Hook) (f : Fetch) (answer : Answer) :
    (fetchTurn C s f answer).1.fetchIdRef = s.fetchIdRef ∧
      (fetchTurn C s f answer).1.publicKey = s.publicKey ∧
        (fetchTurn C s f answer).1.fetchedForRef = s.fetchedForRef := by
  rcases fetchTurn_cases (C := C) s f answer with
    h | ⟨-, h | ⟨t, page, rfl | rfl, h | ⟨results, h⟩⟩⟩ <;> rw [h]
  · exact ⟨rfl, rfl, rfl⟩
  · unfold fail
    split_ifs <;> exact ⟨rfl, rfl, rfl⟩
  all_goals exact ⟨rfl, rfl, rfl⟩

theorem call_readNext (entries : List (String × String)) :
    (readNext s f page results entries).2.fetchId = f.fetchId ∧
      (readNext s f page results entries).2.merchantKey = f.merchantKey := by
  unfold readNext
  split_ifs
  · exact ⟨rfl, rfl⟩
  · cases entries <;> exact ⟨rfl, rfl⟩

/-- A call keeps its number and its merchant. -/
theorem call_fetchTurn (s : Hook) (f : Fetch) (answer : Answer) :
    (fetchTurn C s f answer).2.fetchId = f.fetchId ∧
      (fetchTurn C s f answer).2.merchantKey = f.merchantKey := by
  unfold fetchTurn
  cases f.stage with
  | importing => cases answer <;> exact ⟨rfl, rfl⟩
  | requesting => cases answer with
    | events page =>
      dsimp only
      split_ifs
      · exact ⟨rfl, rfl⟩
      · exact call_readNext _
    | imported | rejected | state _ _ => exact ⟨rfl, rfl⟩
  | reading page subscriber eventToken rest results => cases answer with
    | state nowMs result =>
      dsimp only
      split
      · exact ⟨rfl, rfl⟩
      · exact call_readNext rest
    | imported | rejected | events _ => exact ⟨rfl, rfl⟩
  | ended => exact ⟨rfl, rfl⟩

/-- A newer fetch has begun, or the wallet has changed. -/
def Superseded (p : Pool Hook Fetch) (i : ℕ) : Prop :=
  ∃ f, p.calls[i]? = some f ∧ f.fetchId < p.shared.fetchIdRef

theorem fetchIdRef_fetchPage (merchantKey : String) (cursor : Option String) (append : Bool) :
    (fetchPage C p merchantKey cursor append).shared.fetchIdRef = p.shared.fetchIdRef := by
  unfold fetchPage
  split_ifs <;> rfl

theorem getElem?_fetchPage {merchantKey : String} {cursor : Option String} {append : Bool}
    (h : p.calls[i]? = some f) :
    (fetchPage C p merchantKey cursor append).calls[i]? = some f := by
  unfold fetchPage
  split_ifs
  · exact h
  · exact Pool.getElem?_start_of_some h

theorem getElem?_restart {key : String} (h : p.calls[i]? = some f) :
    (restart C p key).calls[i]? = some f ∧
      (restart C p key).shared.fetchIdRef = p.shared.fetchIdRef + 1 :=
  ⟨getElem?_fetchPage h, fetchIdRef_fetchPage ..⟩

/-- A call keeps its number, and the current one does not go back. -/
theorem superseded_step (h : Superseded p i) (input : Input) : Superseded (step C p input) i := by
  obtain ⟨f, hf, hlt⟩ := h
  have hrestart : ∀ q : Pool Hook Fetch, q.calls[i]? = some f →
      f.fetchId < q.shared.fetchIdRef → ∀ key, Superseded (restart C q key) i := by
    intro q hq hlt key
    obtain ⟨hcall, hid⟩ : (restart C q key).calls[i]? = some f ∧
        (restart C q key).shared.fetchIdRef = q.shared.fetchIdRef + 1 := getElem?_restart hq
    exact ⟨f, hcall, by rw [hid]; exact Nat.lt_succ_of_lt hlt⟩
  cases input with
  | wallet publicKey =>
    rw [step, effect]
    split
    · exact ⟨f, hf, Nat.lt_succ_of_lt hlt⟩
    · split_ifs
      · exact ⟨f, hf, hlt⟩
      · exact hrestart (p.act fun s => { s with publicKey := publicKey }) hf hlt _
  | loadMore handle =>
    rw [step, loadMore]
    split
    · split_ifs
      · exact ⟨f, hf, hlt⟩
      · exact ⟨f, getElem?_fetchPage hf, by rw [fetchIdRef_fetchPage]; exact hlt⟩
    · exact ⟨f, hf, hlt⟩
  | refresh handle =>
    rw [step, refresh]
    split
    · exact ⟨f, hf, hlt⟩
    · exact hrestart _ hf hlt _
  | arrival j answer =>
    rw [step]
    have hshared : (p.resume (fetchTurn C) j answer).shared.fetchIdRef = p.shared.fetchIdRef := by
      rw [Pool.shared_resume]
      cases p.calls[j]? with
      | none => rfl
      | some k => exact (refs_fetchTurn p.shared k answer).1
    by_cases hij : j = i
    · subst hij
      refine ⟨_, Pool.getElem?_resume_self hf, ?_⟩
      rw [hshared, (call_fetchTurn p.shared f answer).1]
      exact hlt
    · exact ⟨f, (Pool.getElem?_resume_of_ne hij).trans hf, by rw [hshared]; exact hlt⟩

/-- **Superseded fetches.** From then on, nothing that arrives for a superseded fetch changes the
hook. -/
theorem superseded_unchanged (h : Superseded p i) (inputs : List Input) (answer : Answer) :
    ((after (step C) p inputs).resume (fetchTurn C) i answer).shared =
      (after (step C) p inputs).shared := by
  have hkeep : ∀ q input, Superseded q i → Superseded (step C q input) i :=
    fun _ input hq => superseded_step hq input
  obtain ⟨f, hf, hlt⟩ := after_invariant hkeep h inputs
  rw [Pool.shared_resume, hf, Option.elim_some, fetchTurn_superseded hlt.ne]

/-! ### One page -/

/-- The subscribers that are discovered in the events of a page. -/
theorem exists_get_discoveredSubscribers_iff {merchantKey subscriber : String}
    {events : List RawEventResponse} :
    (∃ token, (discoveredSubscribers C merchantKey events).get subscriber = some token) ↔
      ∃ raw ∈ events, ∃ token,
        decodeSubscribeEvent C.sdk raw = some ⟨subscriber, merchantKey, token⟩ := by
  induction events using List.reverseRecOn with
  | nil => simp [discoveredSubscribers]
  | append_singleton events raw ih =>
    have hexists : (∃ raw' ∈ events ++ [raw], ∃ token,
        decodeSubscribeEvent C.sdk raw' = some ⟨subscriber, merchantKey, token⟩) ↔
        (∃ token, (discoveredSubscribers C merchantKey events).get subscriber = some token) ∨
          ∃ token, decodeSubscribeEvent C.sdk raw = some ⟨subscriber, merchantKey, token⟩ := by
      rw [ih]
      simp only [List.mem_append, List.mem_singleton, or_and_right, exists_or, exists_eq_left]
    rw [hexists, discoveredSubscribers, List.foldl_append, List.foldl_cons, List.foldl_nil,
      ← discoveredSubscribers]
    cases hraw : decodeSubscribeEvent C.sdk raw with
    | none => simp
    | some decoded =>
      obtain ⟨sub, merchant, token⟩ := decoded
      dsimp only
      split_ifs with hmerchant
      · rw [InsertionMap.get_set]
        split_ifs with hsub
        · simp [hsub, hmerchant]
        · simp [Ne.symm hsub]
      · simp [hmerchant]

theorem mem_keys_discoveredSubscribers_iff {merchantKey subscriber : String}
    {events : List RawEventResponse} :
    subscriber ∈ (discoveredSubscribers C merchantKey events).entries.map Prod.fst ↔
      FollowedPage.Shows C ⟨merchantKey, events⟩ subscriber := by
  rw [FollowedPage.Shows, ← exists_get_discoveredSubscribers_iff]
  simp [InsertionMap.mem_entries_iff]

theorem compareSubscriptions_nonpos_iff (a b : MerchantSubscription) :
    compareSubscriptions a b ≤ 0 ↔ ShownBefore a b := by
  have htime : (a.nextPaymentTimestamp : ℤ) - b.nextPaymentTimestamp ≤ 0 ↔
      a.nextPaymentTimestamp ≤ b.nextPaymentTimestamp := by omega
  unfold compareSubscriptions ShownBefore
  cases a.isExpired <;> cases b.isExpired <;> cases a.isDue <;> cases b.isDue <;> simp [htime]

/-- The list after a page, without its order. -/
theorem perm_mergeSubscriptions (current results : List MerchantSubscription) :
    (mergeSubscriptions current results).Perm
      (InsertionMap.ofValues (·.subscriber) (current ++ results)).values := by
  rw [InsertionMap.ofValues, List.foldl_append]
  exact List.mergeSort_perm _ _

theorem sorted_mergeSubscriptions (current results : List MerchantSubscription) :
    (mergeSubscriptions current results).Pairwise ShownBefore := by
  have htrans : ∀ a b c : MerchantSubscription, decide (compareSubscriptions a b ≤ 0) = true →
      decide (compareSubscriptions b c ≤ 0) = true →
        decide (compareSubscriptions a c ≤ 0) = true := by
    simp only [decide_eq_true_eq, compareSubscriptions_nonpos_iff, ShownBefore]
    grind
  have htotal : ∀ a b : MerchantSubscription,
      (decide (compareSubscriptions a b ≤ 0) || decide (compareSubscriptions b a ≤ 0)) = true := by
    simp only [Bool.or_eq_true, decide_eq_true_eq, compareSubscriptions_nonpos_iff, ShownBefore]
    grind
  refine (List.pairwise_mergeSort htrans htotal _).imp fun {a b} h => ?_
  exact (compareSubscriptions_nonpos_iff a b).1 (of_decide_eq_true h)

/-- **One page.** The list stays exact when a page is merged. -/
theorem exact_merge (hs : Exact C s)
    (h : results.map (·.subscriber) =
      (discoveredSubscribers C f.merchantKey page.events).entries.map Prod.fst) :
    Exact C (merge s f page results) := by
  have hperm := (perm_mergeSubscriptions (if f.append then s.subscriptions else [])
    results).map (·.subscriber)
  -- what is kept of the list before is what the pages before show
  have hbefore : ∀ subscriber,
      subscriber ∈ (if f.append then s.subscriptions else []).map (·.subscriber) ↔
        ∃ page ∈ (if f.append then s.pages else []), page.Shows C subscriber := by
    intro subscriber
    split_ifs
    · exact hs.mem_iff subscriber
    · simp
  refine ⟨?_, fun subscriber => ?_, sorted_mergeSubscriptions _ _⟩
  · exact hperm.nodup_iff.2 InsertionMap.nodup_map_values_ofValues
  · have hmem : subscriber ∈ (merge s f page results).subscriptions.map (·.subscriber) ↔
        subscriber ∈
          ((if f.append then s.subscriptions else []) ++ results).map (·.subscriber) := by
      refine hperm.mem_iff.trans ?_
      simp only [List.mem_map]
      constructor
      · rintro ⟨item, hitem, rfl⟩
        exact ⟨item, InsertionMap.mem_of_mem_values_ofValues hitem, rfl⟩
      · rintro ⟨item, hitem, rfl⟩
        exact InsertionMap.exists_mem_values_ofValues hitem
    rw [hmem, List.map_append, List.mem_append, hbefore, h, mem_keys_discoveredSubscribers_iff]
    simp only [merge, List.mem_append, List.mem_singleton, or_and_right, exists_or, exists_eq_left]

/-! ### Every run -/

theorem exact_fail (hs : Exact C s) : Exact C (fail s f).1 := by
  unfold fail
  split_ifs
  · exact hs
  · exact ⟨hs.nodup, hs.mem_iff, hs.sorted⟩
  · exact ⟨List.nodup_nil, by simp, List.Pairwise.nil⟩

/-- Going on in the loop. -/
theorem exact_readNext (hs : Exact C s) {entries : List (String × String)}
    (h : results.map (·.subscriber) ++ entries.map Prod.fst =
      (discoveredSubscribers C f.merchantKey page.events).entries.map Prod.fst) :
    Exact C (readNext s f page results entries).1 ∧
      Reads C (readNext s f page results entries).2 := by
  unfold readNext
  split_ifs with hid
  · exact ⟨hs, fun _ _ _ _ _ hstage => by cases hstage⟩
  · cases entries with
    | nil =>
      rw [List.map_nil, List.append_nil] at h
      exact ⟨exact_merge hs h, fun _ _ _ _ _ hstage => by cases hstage⟩
    | cons entry rest =>
      refine ⟨hs, fun _ _ _ _ _ hstage => ?_⟩
      cases hstage
      exact h

theorem subscriber_entryOf {merchantKey subscriber eventToken : String} {nowMs : ℕ}
    {state : Option RawSubscriptionData} {item : MerchantSubscription}
    (h : entryOf C merchantKey subscriber eventToken nowMs state = some item) :
    item.subscriber = subscriber := by
  cases state with
  | none => exact (congrArg (·.subscriber) (Option.some.inj h)).symm
  | some state =>
    obtain ⟨date, -, hitem⟩ := Option.bind_eq_some_iff.1 h
    exact (congrArg (·.subscriber) (Option.some.inj hitem)).symm

/-- **One turn.** -/
theorem exact_fetchTurn (hs : Exact C s) (hf : Reads C f) (answer : Answer) :
    Exact C (fetchTurn C s f answer).1 ∧ Reads C (fetchTurn C s f answer).2 := by
  have hended : Reads C f.finished := fun _ _ _ _ _ hstage => by cases hstage
  unfold fetchTurn
  cases hstage : f.stage with
  | importing => cases answer with
    | imported => exact ⟨hs, fun _ _ _ _ _ hstage => by cases hstage⟩
    | rejected => exact ⟨exact_fail hs, hended⟩
    | events _ | state _ _ => exact ⟨hs, hf⟩
  | requesting => cases answer with
    | events page =>
      dsimp only
      split_ifs
      · exact ⟨hs, hended⟩
      · have hreceive : Exact C (receive s page) := ⟨hs.nodup, hs.mem_iff, hs.sorted⟩
        exact exact_readNext hreceive (List.nil_append _)
    | rejected => exact ⟨exact_fail hs, hended⟩
    | imported | state _ _ => exact ⟨hs, hf⟩
  | reading page subscriber eventToken rest results => cases answer with
    | state nowMs result =>
      dsimp only
      split
      · exact ⟨exact_fail hs, hended⟩
      · rename_i item hitem
        refine exact_readNext hs ?_
        have hreads := hf _ _ _ _ _ hstage
        rw [← hreads, List.map_append, List.map_singleton, subscriber_entryOf hitem,
          List.append_assoc, List.singleton_append]
    | imported | rejected | events _ => exact ⟨hs, hf⟩
  | ended => exact ⟨hs, hf⟩

/-- What holds of every call in every run: its number has been given, and it reads its page. -/
def Known (C : Config J) (s : Hook) (f : Fetch) : Prop := f.fetchId ≤ s.fetchIdRef ∧ Reads C f

/-- The list is exact, and the calls are known. -/
abbrev Sound (C : Config J) : Pool Hook Fetch → Prop :=
  Pool.Holds (Exact C) (Known C) fun _ _ _ => True

/-- A change of the hook by which no number is taken back. -/
theorem sound_act {change : Hook → Hook} (h : Sound C p) (hexact : Exact C (change p.shared))
    (hid : p.shared.fetchIdRef ≤ (change p.shared).fetchIdRef) : Sound C (p.act change) :=
  h.act hexact (fun _ _ hknown => ⟨hknown.1.trans hid, hknown.2⟩) fun _ _ _ => trivial

/-- A list without entries and without pages. -/
theorem exact_of_empty (hlist : s.subscriptions = []) (hpages : s.pages = []) : Exact C s :=
  ⟨by rw [hlist]; exact List.nodup_nil, by simp [hlist, hpages],
    by rw [hlist]; exact List.Pairwise.nil⟩

theorem sound_fetchPage (h : Sound C p) (merchantKey : String) (cursor : Option String)
    (append : Bool) : Sound C (fetchPage C p merchantKey cursor append) := by
  unfold fetchPage
  split_ifs
  · exact sound_act h (exact_of_empty rfl rfl) le_rfl
  · have hexact := h.shared
    refine (sound_act h ⟨hexact.nodup, hexact.mem_iff, hexact.sorted⟩ le_rfl).start
      ⟨le_rfl, fun _ _ _ _ _ hstage => by cases hstage⟩ fun _ _ _ => ⟨trivial, trivial⟩

theorem sound_restart (h : Sound C p) (key : String) : Sound C (restart C p key) :=
  sound_fetchPage (sound_act h (exact_of_empty rfl rfl) (Nat.le_succ _)) key none false

/-- **One input.** -/
theorem sound_step (h : Sound C p) (input : Input) : Sound C (step C p input) := by
  cases input with
  | wallet publicKey =>
    have hexact := h.shared
    have hrender : Sound C (p.act fun s => { s with publicKey := publicKey }) :=
      sound_act h ⟨hexact.nodup, hexact.mem_iff, hexact.sorted⟩ le_rfl
    rw [step, effect]
    split
    · exact sound_act hrender (exact_of_empty rfl rfl) (Nat.le_succ _)
    · split_ifs
      · exact hrender
      · exact sound_restart hrender _
  | loadMore handle =>
    rw [step, loadMore]
    split
    · split_ifs
      · exact h
      · exact sound_fetchPage h _ _ _
    · exact h
  | refresh handle =>
    rw [step, refresh]
    split
    · exact h
    · exact sound_restart h _
  | arrival i answer =>
    refine h.resume (fun f hf => ?_) (fun f hf j k _ hk => ?_) fun _ _ _ _ _ => trivial
    · obtain ⟨hexact, hreads⟩ := exact_fetchTurn h.shared (h.each i f hf).2 answer
      have hid := (refs_fetchTurn (C := C) p.shared f answer).1
      have hfetchId := (call_fetchTurn (C := C) p.shared f answer).1
      exact ⟨hexact, by rw [hid, hfetchId]; exact (h.each i f hf).1, hreads⟩
    · have hid := (refs_fetchTurn (C := C) p.shared f answer).1
      exact ⟨⟨by rw [hid]; exact (h.each j k hk).1, (h.each j k hk).2⟩, trivial, trivial⟩

/-- **The list is exact** in every state of every run. -/
theorem sound_after (C : Config J) (inputs : List Input) :
    Sound C (after (step C) mounted inputs) := by
  have hkeep : ∀ q input, Sound C q → Sound C (step C q input) := fun _ input hq =>
    sound_step hq input
  exact after_invariant hkeep (Pool.holds_idle (exact_of_empty rfl rfl)) inputs

/-- A call whose number is not the current one is superseded. -/
theorem superseded_of_ne (h : Sound C p) (hf : p.calls[i]? = some f)
    (hne : f.fetchId ≠ p.shared.fetchIdRef) : Superseded p i :=
  ⟨f, hf, Nat.lt_of_le_of_ne (h.each i f hf).1 hne⟩

end SorobanPay.MerchantSubscriptions
