import Mathlib.Data.List.Basic
import SorobanPay.Foundation.Run

/-!
# The feed of new payments

The subscription `onNewPayment` of `graphql/resolvers.ts` is an asynchronous generator. Its body
begins at the first `next`, when it starts to listen to `paymentPubSub`. A payment to the merchant
is handed to the promise that the body waits for, or put into a queue. A value that the body yields
is on its way for some turns before `next` is answered with it; calls of `next` and `return` that
come earlier wait for their turn.

A payment that is published before the first `next` is not heard of. From then on the consumer is
given the payments to the merchant in order, each of them once, for as long as it asks.

## Main definitions

* `Feed`, `pull`: a generator, and how it takes the calls of its consumer.
* `FeedAct`, `feedsStep`: the steps of a process with any number of feeds.

## Main results

* `getElem?_after_feedsStep`: feeds do not disturb each other.
* `payment_feed`: what a consumer is given.
-/

set_option autoImplicit false

namespace SorobanPay.PaymentFeed

open Foundation

variable {Payment : Type}

/-! ### Generators -/

/-- Where the body is: not begun, at a promise that `resolveNext` resolves, with a value on its way,
at a `yield`, or at its end. -/
inductive Phase (Payment : Type)
  | start
  | waiting
  | handing (payment : Payment)
  | suspended
  | done

/-- What a consumer calls. -/
inductive Request
  | next
  | «return»
  deriving DecidableEq, Repr

/-- What a call is answered with. -/
inductive Reply (Payment : Type)
  | value (payment : Payment)
  | done
  | thrown (message : String)

/-- A generator, with the calls that have not been answered and the answers so far. -/
structure Feed (Payment : Type) where
  merchant : String
  isAuthenticated : Bool
  phase : Phase Payment
  queue : List Payment
  requests : List Request
  replies : List (Reply Payment)

namespace Feed

/-- The payments that the consumer has been given. -/
def values (feed : Feed Payment) : List Payment :=
  feed.replies.filterMap fun
    | .value payment => some payment
    | _ => none

/-- The payment that is on its way. -/
def inHand (feed : Feed Payment) : List Payment :=
  match feed.phase with
  | .handing payment => [payment]
  | _ => []

def answer (feed : Feed Payment) (reply : Reply Payment) : Feed Payment :=
  { feed with replies := feed.replies ++ [reply] }

/-- The body runs to the next promise, or to the next value of the queue. -/
def advance (feed : Feed Payment) : Feed Payment :=
  match feed.queue with
  | [] => { feed with phase := .waiting }
  | payment :: queue => { feed with phase := .handing payment, queue := queue }

/-- The calls are taken in turn, up to one that has to wait for a payment. -/
def pull : List Request → Feed Payment → Feed Payment
  | [], feed => { feed with requests := [] }
  | request :: requests, feed =>
    match feed.phase, request with
    | .waiting, _ | .handing _, _ => { feed with requests := request :: requests }
    | .done, _ => pull requests (feed.answer .done)
    | .start, .next =>
      if feed.isAuthenticated then { feed.advance with requests := request :: requests }
      else
        pull requests { feed.answer (.thrown "Unauthorized: Valid JWT authentication required") with
          phase := .done }
    | .suspended, .next => { feed.advance with requests := request :: requests }
    -- at a `yield` the listener is removed
    | .start, .«return» | .suspended, .«return» =>
      pull requests { feed.answer .done with phase := .done }

/-- A consumer calls. -/
def call (feed : Feed Payment) (request : Request) : Feed Payment :=
  pull (feed.requests ++ [request]) feed

/-- `listener`, which is there while the body runs. -/
def listener (merchantOf : Payment → String) (feed : Feed Payment) (payment : Payment) :
    Feed Payment :=
  if merchantOf payment = feed.merchant then
    match feed.phase with
    | .start | .done => feed
    | .waiting => { feed with phase := .handing payment }
    | .handing _ | .suspended => { feed with queue := feed.queue ++ [payment] }
  else feed

/-- The value that is on its way arrives. -/
def turn (feed : Feed Payment) : Feed Payment :=
  match feed.phase with
  | .handing payment =>
    pull feed.requests.tail { feed.answer (.value payment) with phase := .suspended }
  | _ => feed

end Feed

/-! ### Feeds -/

/-- A step: a client subscribes, calls, a payment is published, or a value arrives. -/
inductive FeedAct (Payment : Type)
  | subscribe (merchant : String) (isAuthenticated : Bool)
  | call (i : ℕ) (request : Request)
  | publish (payment : Payment)
  | turn (i : ℕ)

variable (merchantOf : Payment → String)

/-- What a step does to the feed of a place. -/
def feedStep (i : ℕ) (feed : Feed Payment) : FeedAct Payment → Feed Payment
  | .subscribe _ _ => feed
  | .call j request => if j = i then feed.call request else feed
  | .publish payment => feed.listener merchantOf payment
  | .turn j => if j = i then feed.turn else feed

def feedsStep (feeds : List (Feed Payment)) : FeedAct Payment → List (Feed Payment)
  | .subscribe merchant isAuthenticated =>
    feeds ++ [⟨merchant, isAuthenticated, .start, [], [], []⟩]
  | .call i request => feeds.modify i fun feed => feed.call request
  | .publish payment => feeds.map fun feed => feed.listener merchantOf payment
  | .turn i => feeds.modify i Feed.turn

/-- The payments that are published. -/
def published (acts : List (FeedAct Payment)) : List Payment :=
  acts.filterMap fun
    | .publish payment => some payment
    | _ => none

variable {merchantOf}

theorem getElem?_feedsStep {feeds : List (Feed Payment)} {i : ℕ} {feed : Feed Payment}
    (h : feeds[i]? = some feed) (act : FeedAct Payment) :
    (feedsStep merchantOf feeds act)[i]? = some (feedStep merchantOf i feed act) := by
  cases act with
  | subscribe merchant isAuthenticated =>
    exact (List.getElem?_append_left (List.getElem?_eq_some_iff.1 h).1).trans h
  | call j request =>
    rw [feedsStep, List.getElem?_modify, h, feedStep]
    split_ifs <;> rfl
  | publish payment => rw [feedsStep, List.getElem?_map, h]; rfl
  | turn j =>
    rw [feedsStep, List.getElem?_modify, h, feedStep]
    split_ifs <;> rfl

/-- **Feeds do not disturb each other**: what becomes of one depends on nothing else. -/
theorem getElem?_after_feedsStep {feeds : List (Feed Payment)} {i : ℕ} {feed : Feed Payment}
    (h : feeds[i]? = some feed) (acts : List (FeedAct Payment)) :
    (after (feedsStep merchantOf) feeds acts)[i]? =
      some (after (feedStep merchantOf i) feed acts) := by
  induction acts generalizing feeds feed with
  | nil => exact h
  | cons act acts ih => exact ih (getElem?_feedsStep h act)

/-! ### One feed -/

namespace Feed

variable {feed : Feed Payment} {heard : List Payment}

@[simp] theorem values_answer_value (feed : Feed Payment) (payment : Payment) :
    (feed.answer (.value payment)).values = feed.values ++ [payment] := by
  simp [values, answer]

@[simp] theorem values_answer_done (feed : Feed Payment) :
    (feed.answer .done).values = feed.values := by
  simp [values, answer]

@[simp] theorem values_answer_thrown (feed : Feed Payment) (message : String) :
    (feed.answer (.thrown message)).values = feed.values := by
  simp [values, answer]

/-- Calls are open while the body runs, the first of them a `next`, and only then. -/
def Serves (phase : Phase Payment) (requests : List Request) : Prop :=
  match phase with
  | .waiting | .handing _ => ∃ rest, requests = .next :: rest
  | .start | .suspended | .done => requests = []

/-- What a consumer has been given of the payments that the body has heard of: the first of them,
and the others are on their way or in the queue, unless the body has ended. -/
structure Hears (heard : List Payment) (feed : Feed Payment) : Prop where
  given : feed.values <+: heard
  kept : feed.phase ≠ .done → feed.values ++ feed.inHand ++ feed.queue = heard
  waiting : feed.phase = .waiting → feed.queue = []

theorem Hears.advance (h : Hears heard feed) (hphase : feed.phase = .start ∨
    feed.phase = .suspended) (requests : List Request) :
    Hears heard { feed.advance with requests := requests } := by
  have hkept : feed.values ++ feed.queue = heard := by
    have := h.kept (by rcases hphase with h | h <;> rw [h] <;> nofun)
    rwa [show feed.inHand = [] by rcases hphase with h | h <;> rw [inHand, h],
      List.append_nil] at this
  unfold Feed.advance
  cases hqueue : feed.queue with
  | nil =>
    rw [hqueue] at hkept
    exact ⟨h.given, fun _ => by simpa [inHand, values] using hkept, fun _ => rfl⟩
  | cons payment queue =>
    rw [hqueue] at hkept
    exact ⟨h.given, fun _ => by simpa [inHand, values] using hkept, nofun⟩

/-- **Taking calls** loses nothing. -/
theorem Hears.pull (h : Hears heard feed) (requests : List Request) :
    Hears heard (pull requests feed) := by
  induction requests generalizing feed with
  | nil => exact ⟨h.given, h.kept, h.waiting⟩
  | cons request requests ih =>
    have hended : ∀ ended : Feed Payment, ended.values = feed.values →
        ended.phase = .done → Hears heard ended := fun ended hvalues hdone =>
      ⟨hvalues ▸ h.given, fun hopen => absurd hdone hopen, fun hwaiting => by
        rw [hdone] at hwaiting
        cases hwaiting⟩
    unfold Feed.pull
    split
    · exact ⟨h.given, h.kept, h.waiting⟩
    · exact ⟨h.given, h.kept, h.waiting⟩
    · rename_i hdone
      exact ih (hended _ (values_answer_done feed) hdone)
    · rename_i hstart
      split_ifs
      · exact h.advance (.inl hstart) _
      · exact ih (hended _ (values_answer_thrown feed _) rfl)
    · rename_i hsuspended
      exact h.advance (.inr hsuspended) _
    · exact ih (hended _ (values_answer_done feed) rfl)
    · exact ih (hended _ (values_answer_done feed) rfl)

theorem serves_pull {requests : List Request} (h : feed.phase = .waiting ∨
    (∃ payment, feed.phase = .handing payment) → ∃ rest, requests = .next :: rest) :
    Serves (pull requests feed).phase (pull requests feed).requests := by
  induction requests generalizing feed with
  | nil =>
    rw [Feed.pull]
    cases hphase : feed.phase with
    | waiting => exact h (.inl hphase)
    | handing payment => exact h (.inr ⟨payment, hphase⟩)
    | start | suspended | done => rfl
  | cons request requests ih =>
    have hended : ∀ ended : Feed Payment, ended.phase = .done →
        Serves (Feed.pull requests ended).phase (Feed.pull requests ended).requests :=
      fun ended hdone => ih fun hbusy => by
        rw [hdone] at hbusy
        rcases hbusy with hbusy | ⟨payment, hbusy⟩ <;> cases hbusy
    have hadvance : Serves feed.advance.phase (.next :: requests) := by
      unfold Feed.advance
      cases feed.queue <;> exact ⟨requests, rfl⟩
    unfold Feed.pull
    split
    · rename_i hwaiting
      rw [hwaiting]
      exact h (.inl hwaiting)
    · rename_i payment hhanding
      rw [hhanding]
      exact h (.inr ⟨payment, hhanding⟩)
    · rename_i hdone
      exact hended _ hdone
    · split_ifs
      · exact hadvance
      · exact hended _ rfl
    · exact hadvance
    · exact hended _ rfl
    · exact hended _ rfl

/-- What no step takes back: the merchant and the client of a feed, that its body has begun or
ended, and that a client who is not authenticated is given nothing. -/
structure Onward (feed feed' : Feed Payment) : Prop where
  merchant : feed'.merchant = feed.merchant
  client : feed'.isAuthenticated = feed.isAuthenticated
  begun : feed.phase ≠ .start → feed'.phase ≠ .start
  ended : feed.phase = .done → feed'.phase = .done ∧ feed'.values = feed.values
  denied : feed.isAuthenticated = false → feed.phase = .start ∨ feed.phase = .done →
    (feed'.phase = .start ∨ feed'.phase = .done) ∧ feed'.values = feed.values

theorem Onward.refl (feed : Feed Payment) : Onward feed feed :=
  ⟨rfl, rfl, id, fun h => ⟨h, rfl⟩, fun _ h => ⟨h, rfl⟩⟩

theorem Onward.trans {feed' feed'' : Feed Payment} (h : Onward feed feed')
    (h' : Onward feed' feed'') : Onward feed feed'' := by
  refine ⟨h'.merchant.trans h.merchant, h'.client.trans h.client, fun hbegun =>
    h'.begun (h.begun hbegun), fun hended => ?_, fun hclient hphase => ?_⟩
  · obtain ⟨hdone, hvalues⟩ := h.ended hended
    obtain ⟨hdone', hvalues'⟩ := h'.ended hdone
    exact ⟨hdone', hvalues'.trans hvalues⟩
  · obtain ⟨hphase', hvalues⟩ := h.denied hclient hphase
    obtain ⟨hphase'', hvalues'⟩ := h'.denied (h.client.trans hclient) hphase'
    exact ⟨hphase'', hvalues'.trans hvalues⟩

/-- The end of a feed. -/
theorem onward_of_done {feed' : Feed Payment} (hmerchant : feed'.merchant = feed.merchant)
    (hclient : feed'.isAuthenticated = feed.isAuthenticated) (hdone : feed'.phase = .done)
    (hvalues : feed'.values = feed.values) : Onward feed feed' :=
  ⟨hmerchant, hclient, fun _ => by rw [hdone]; nofun, fun _ => ⟨hdone, hvalues⟩,
    fun _ _ => ⟨.inr hdone, hvalues⟩⟩

/-- A step of a body that has neither begun nor ended before, or that may begin. -/
theorem onward_of_open {feed' : Feed Payment} (hmerchant : feed'.merchant = feed.merchant)
    (hclient : feed'.isAuthenticated = feed.isAuthenticated) (hbegun : feed'.phase ≠ .start)
    (hdone : feed.phase ≠ .done) (hstart : feed.phase = .start → feed.isAuthenticated = true) :
    Onward feed feed' := by
  refine ⟨hmerchant, hclient, fun _ => hbegun, fun h => absurd h hdone, fun hdenied hphase => ?_⟩
  rcases hphase with hphase | hphase
  · rw [hstart hphase] at hdenied
    cases hdenied
  · exact absurd hphase hdone

theorem phase_advance (feed : Feed Payment) :
    feed.advance.phase ≠ .start ∧ feed.advance.merchant = feed.merchant ∧
      feed.advance.isAuthenticated = feed.isAuthenticated := by
  unfold Feed.advance
  cases feed.queue <;> exact ⟨nofun, rfl, rfl⟩

theorem onward_pull (requests : List Request) (feed : Feed Payment) :
    Onward feed (pull requests feed) := by
  induction requests generalizing feed with
  | nil => exact ⟨rfl, rfl, id, fun h => ⟨h, rfl⟩, fun _ h => ⟨h, rfl⟩⟩
  | cons request requests ih =>
    obtain ⟨hbegun, hmerchant, hclient⟩ := phase_advance feed
    have hrest : ∀ {ended : Feed Payment}, Onward feed ended → Onward feed (pull requests ended) :=
      fun h => h.trans (ih _)
    unfold Feed.pull
    split
    · exact ⟨rfl, rfl, id, fun h => ⟨h, rfl⟩, fun _ h => ⟨h, rfl⟩⟩
    · exact ⟨rfl, rfl, id, fun h => ⟨h, rfl⟩, fun _ h => ⟨h, rfl⟩⟩
    · rename_i hdone
      exact hrest (onward_of_done rfl rfl hdone (values_answer_done feed))
    · rename_i hstart
      split_ifs with hauth
      · exact onward_of_open hmerchant hclient hbegun (by rw [hstart]; nofun) fun _ => hauth
      · exact hrest (onward_of_done rfl rfl rfl (values_answer_thrown feed _))
    · rename_i hsuspended
      exact onward_of_open hmerchant hclient hbegun (by rw [hsuspended]; nofun)
        (by rw [hsuspended]; nofun)
    · exact hrest (onward_of_done rfl rfl rfl (values_answer_done feed))
    · exact hrest (onward_of_done rfl rfl rfl (values_answer_done feed))

end Feed

/-! ### Runs of one feed -/

open Feed

variable {feed : Feed Payment} {heard : List Payment} {i : ℕ}

theorem onward_feedStep (feed : Feed Payment) (act : FeedAct Payment) :
    Onward feed (feedStep merchantOf i feed act) := by
  cases act with
  | subscribe merchant isAuthenticated => exact .refl feed
  | call j request =>
    rw [feedStep]
    split_ifs
    · exact onward_pull _ feed
    · exact .refl feed
  | publish payment =>
    rw [feedStep, listener]
    split_ifs
    · split
      · exact .refl feed
      · exact .refl feed
      · rename_i hphase
        exact onward_of_open rfl rfl nofun (by rw [hphase]; nofun) (by rw [hphase]; nofun)
      · rename_i hphase
        exact onward_of_open rfl rfl (by rw [hphase]; nofun) (by rw [hphase]; nofun)
          (by rw [hphase]; nofun)
      · rename_i hphase
        exact onward_of_open rfl rfl (by rw [hphase]; nofun) (by rw [hphase]; nofun)
          (by rw [hphase]; nofun)
    · exact .refl feed
  | turn j =>
    rw [feedStep]
    split_ifs
    · unfold turn
      split
      · rename_i payment hphase
        refine Onward.trans ?_ (onward_pull _ _)
        exact onward_of_open rfl rfl nofun (by rw [hphase]; nofun) (by rw [hphase]; nofun)
      · exact .refl feed
    · exact .refl feed

theorem onward_after (feed : Feed Payment) (acts : List (FeedAct Payment)) :
    Onward feed (after (feedStep merchantOf i) feed acts) := by
  induction acts generalizing feed with
  | nil => exact .refl feed
  | cons act acts ih => exact (onward_feedStep feed act).trans (ih _)

/-- The payments to a merchant. -/
def paymentsTo (merchantOf : Payment → String) (merchant : String)
    (acts : List (FeedAct Payment)) : List Payment :=
  (published acts).filter fun payment => merchantOf payment = merchant

/-- A payment to the merchant is heard of while the body runs. -/
theorem hears_listener (h : Hears heard feed) (hbegun : feed.phase ≠ .start) (payment : Payment) :
    Hears (heard ++ if merchantOf payment = feed.merchant then [payment] else [])
      (feed.listener merchantOf payment) := by
  have hfirst := h.given.trans (List.prefix_append heard
    (if merchantOf payment = feed.merchant then [payment] else []))
  rw [listener]
  split_ifs with hmerchant
  · rw [if_pos hmerchant] at hfirst
    split
    · rename_i hphase
      exact absurd hphase hbegun
    · rename_i hphase
      exact ⟨hfirst, fun hopen => absurd hphase hopen, fun hwaiting => by
        rw [hphase] at hwaiting
        cases hwaiting⟩
    · rename_i hphase
      have hkept := h.kept (by rw [hphase]; nofun)
      rw [h.waiting hphase, show feed.inHand = [] by rw [inHand, hphase], List.append_nil,
        List.append_nil] at hkept
      exact ⟨hfirst, fun _ => by simpa [inHand, values, h.waiting hphase] using hkept, nofun⟩
    · rename_i payment' hphase
      have hkept := h.kept (by rw [hphase]; nofun)
      refine ⟨hfirst, fun _ => ?_, fun hwaiting => absurd hwaiting (by rw [hphase]; nofun)⟩
      rw [← hkept, List.append_assoc _ feed.queue]
      rfl
    · rename_i hphase
      have hkept := h.kept (by rw [hphase]; nofun)
      refine ⟨hfirst, fun _ => ?_, fun hwaiting => absurd hwaiting (by rw [hphase]; nofun)⟩
      rw [← hkept, List.append_assoc _ feed.queue]
      rfl
  · rw [List.append_nil]
    exact h

/-- The consumer is given what has been on its way. -/
theorem hears_turn (h : Hears heard feed) : Hears heard feed.turn := by
  unfold turn
  split
  · rename_i payment hphase
    have hkept := h.kept (by rw [hphase]; nofun)
    rw [show feed.inHand = [payment] by rw [inHand, hphase]] at hkept
    have hgiven : Hears heard { feed.answer (.value payment) with phase := .suspended } := by
      refine ⟨⟨feed.queue, ?_⟩, fun _ => ?_, nofun⟩
      · simpa [values, answer] using hkept
      · simpa [inHand, values, answer] using hkept
    exact hgiven.pull _
  · exact h

/-- **A step** of a feed whose body has begun. -/
theorem hears_feedStep (h : Hears heard feed) (hbegun : feed.phase ≠ .start)
    (act : FeedAct Payment) : Hears (heard ++ paymentsTo merchantOf feed.merchant [act])
      (feedStep merchantOf i feed act) := by
  cases act with
  | subscribe merchant isAuthenticated =>
    rw [show paymentsTo merchantOf feed.merchant [.subscribe merchant isAuthenticated] = []
      from rfl, List.append_nil]
    exact h
  | call j request =>
    rw [show paymentsTo merchantOf feed.merchant [.call j request] = [] from rfl, List.append_nil,
      feedStep]
    split_ifs
    · exact h.pull _
    · exact h
  | publish payment =>
    have hpayment : paymentsTo merchantOf feed.merchant [.publish payment] =
        if merchantOf payment = feed.merchant then [payment] else [] := by
      simp [paymentsTo, published, List.filter_cons]
    rw [hpayment]
    exact hears_listener h hbegun payment
  | turn j =>
    rw [show paymentsTo merchantOf feed.merchant [.turn j] = [] from rfl, List.append_nil,
      feedStep]
    split_ifs
    · exact hears_turn h
    · exact h

theorem paymentsTo_cons (merchant : String) (act : FeedAct Payment)
    (acts : List (FeedAct Payment)) : paymentsTo merchantOf merchant (act :: acts) =
      paymentsTo merchantOf merchant [act] ++ paymentsTo merchantOf merchant acts := by
  rw [paymentsTo, paymentsTo, paymentsTo, ← List.filter_append, published, published, published,
    ← List.filterMap_append, List.singleton_append]

/-- **A run** of a feed whose body has begun. -/
theorem hears_after (h : Hears heard feed) (hbegun : feed.phase ≠ .start)
    (acts : List (FeedAct Payment)) : Hears (heard ++ paymentsTo merchantOf feed.merchant acts)
      (after (feedStep merchantOf i) feed acts) := by
  induction acts generalizing feed heard with
  | nil =>
    rw [show paymentsTo merchantOf feed.merchant [] = [] from rfl, List.append_nil]
    exact h
  | cons act acts ih =>
    have honward : Onward feed (feedStep merchantOf i feed act) := onward_feedStep feed act
    have hrest := ih (hears_feedStep (i := i) h hbegun act) (honward.begun hbegun)
    rw [honward.merchant, List.append_assoc, ← paymentsTo_cons] at hrest
    exact hrest

/-! ### Reachable feeds -/

/-- What every feed keeps: calls are open while its body runs, it has heard of nothing before the
body begins, and a client who is not authenticated is given nothing. -/
structure Sound (feed : Feed Payment) : Prop where
  serves : Serves feed.phase feed.requests
  fresh : feed.phase = .start → Hears [] feed
  denied : feed.isAuthenticated = false →
    (feed.phase = .start ∨ feed.phase = .done) ∧ feed.values = []

theorem sound_subscribe (merchant : String) (isAuthenticated : Bool) :
    Sound (⟨merchant, isAuthenticated, .start, [], [], []⟩ : Feed Payment) :=
  ⟨rfl, fun _ => ⟨List.prefix_rfl, fun _ => rfl, fun _ => rfl⟩, fun _ => ⟨.inl rfl, rfl⟩⟩

theorem Sound.busy (h : Sound feed) (hphase : feed.phase = .waiting ∨
    ∃ payment, feed.phase = .handing payment) : ∃ rest, feed.requests = .next :: rest := by
  have hserves := h.serves
  rcases hphase with hphase | ⟨payment, hphase⟩ <;> rwa [hphase] at hserves

/-- Calls stay open, or are answered. -/
theorem serves_feedStep (h : Sound feed) (act : FeedAct Payment) :
    Serves (feedStep merchantOf i feed act).phase (feedStep merchantOf i feed act).requests := by
  cases act with
  | subscribe merchant isAuthenticated => exact h.serves
  | call j request =>
    rw [feedStep]
    split_ifs
    · refine serves_pull fun hbusy => ?_
      obtain ⟨rest, hrest⟩ := h.busy hbusy
      exact ⟨rest ++ [request], by rw [hrest, List.cons_append]⟩
    · exact h.serves
  | publish payment =>
    rw [feedStep, listener]
    split_ifs
    · split
      · exact h.serves
      · exact h.serves
      · rename_i hphase
        exact h.busy (.inl hphase)
      · exact h.serves
      · exact h.serves
    · exact h.serves
  | turn j =>
    rw [feedStep]
    split_ifs
    · unfold turn
      split
      · exact serves_pull (by rintro (hphase | ⟨payment, hphase⟩) <;> cases hphase)
      · exact h.serves
    · exact h.serves

theorem sound_feedStep (h : Sound feed) (act : FeedAct Payment) :
    Sound (feedStep merchantOf i feed act) := by
  have honward : Onward feed (feedStep merchantOf i feed act) := onward_feedStep feed act
  refine ⟨serves_feedStep h act, fun hstart => ?_, fun hclient => ?_⟩
  · have hbefore : feed.phase = .start := by
      by_contra hbegun
      exact honward.begun hbegun hstart
    have hears := h.fresh hbefore
    cases act with
    | subscribe merchant isAuthenticated => exact hears
    | call j request =>
      rw [feedStep]
      split_ifs
      · exact hears.pull _
      · exact hears
    | publish payment =>
      rw [feedStep, listener, hbefore]
      split_ifs <;> exact hears
    | turn j =>
      rw [feedStep]
      split_ifs
      · exact hears_turn hears
      · exact hears
  · rw [honward.client] at hclient
    obtain ⟨hphase, hvalues⟩ := h.denied hclient
    obtain ⟨hphase', hvalues'⟩ := honward.denied hclient hphase
    exact ⟨hphase', hvalues'.trans hvalues⟩

theorem sound_feedsStep {feeds : List (Feed Payment)} (h : ∀ feed ∈ feeds, Sound feed)
    (act : FeedAct Payment) : ∀ feed ∈ feedsStep merchantOf feeds act, Sound feed := by
  intro feed hfeed
  obtain ⟨i, hi, hget⟩ := List.getElem_of_mem hfeed
  have hget' : (feedsStep merchantOf feeds act)[i]? = some feed :=
    List.getElem?_eq_some_iff.2 ⟨hi, hget⟩
  by_cases hold : i < feeds.length
  · rw [getElem?_feedsStep (List.getElem?_eq_getElem hold), Option.some.injEq] at hget'
    exact hget' ▸ sound_feedStep (h _ (List.getElem_mem hold)) act
  · cases act with
    | subscribe merchant isAuthenticated =>
      rw [feedsStep, List.length_append, List.length_singleton] at hi
      obtain rfl : i = feeds.length := by omega
      rw [feedsStep, List.getElem?_concat_length, Option.some.injEq] at hget'
      exact hget' ▸ sound_subscribe merchant isAuthenticated
    | call j request => exact absurd ((List.length_modify _ _ _) ▸ hi) hold
    | publish payment => exact absurd (List.length_map _ ▸ hi) hold
    | turn j => exact absurd ((List.length_modify _ _ _) ▸ hi) hold

/-- The first `next` of a client who is authenticated. -/
theorem begins (h : Sound feed) (hstart : feed.phase = .start)
    (hclient : feed.isAuthenticated = true) :
    Hears [] (feed.call .next) ∧ (feed.call .next).phase ≠ .start := by
  refine ⟨(h.fresh hstart).pull _, ?_⟩
  have hserves := h.serves
  rw [hstart] at hserves
  rw [call, show feed.requests = [] from hserves, List.nil_append]
  unfold pull
  rw [hstart]
  simp only [hclient, if_true]
  exact (phase_advance feed).1

/-- **The feed of new payments.** In every run, a feed keeps calls open only while its body waits or
a value is on its way, and a client who is not authenticated is given nothing. Let a client who is
authenticated call `next` for the first time. Then it is given the payments to the merchant that
are published from this call on, in order and each of them once: the others are on their way or in
the queue, and a feed that waits has given all of them. Once the client returns it is given nothing
more. -/
theorem payment_feed (acts : List (FeedAct Payment)) :
    (∀ feed ∈ after (feedsStep merchantOf) [] acts, Serves feed.phase feed.requests ∧
      (feed.isAuthenticated = false → feed.values = [])) ∧
    ∀ pre i post feed₀, acts = pre ++ .call i .next :: post →
      (after (feedsStep merchantOf) [] pre)[i]? = some feed₀ → feed₀.phase = .start →
      feed₀.isAuthenticated = true →
      ∃ feed, (after (feedsStep merchantOf) [] acts)[i]? = some feed ∧
        feed.values <+: paymentsTo merchantOf feed₀.merchant post ∧
        (feed.phase ≠ .done → feed.values ++ feed.inHand ++ feed.queue =
          paymentsTo merchantOf feed₀.merchant post) ∧
        (feed.phase = .waiting → feed.values = paymentsTo merchantOf feed₀.merchant post) ∧
        (feed.phase = .done → ∀ more, ∃ feed',
          (after (feedsStep merchantOf) [] (acts ++ more))[i]? = some feed' ∧
            feed'.phase = .done ∧ feed'.values = feed.values) := by
  have hsound : ∀ acts : List (FeedAct Payment), ∀ feed ∈ after (feedsStep merchantOf) [] acts,
      Sound feed := fun acts => by
    refine @after_invariant _ _ _ (fun feeds => ∀ feed ∈ feeds, Sound feed) (fun _ act h => ?_)
      [] (fun _ h => absurd h List.not_mem_nil) acts
    exact sound_feedsStep h act
  refine ⟨fun feed hfeed => ⟨(hsound acts feed hfeed).serves, fun hclient =>
    ((hsound acts feed hfeed).denied hclient).2⟩, ?_⟩
  rintro pre i post feed₀ rfl hget hstart hclient
  obtain ⟨hears, hbegun⟩ := begins (hsound pre feed₀ (List.mem_of_getElem? hget)) hstart hclient
  have hmerchant : (feed₀.call .next).merchant = feed₀.merchant := (onward_pull _ feed₀).merchant
  have hrun : (after (feedsStep merchantOf) [] (pre ++ .call i .next :: post))[i]? =
      some (after (feedStep merchantOf i) (feed₀.call .next) post) := by
    rw [after_append, getElem?_after_feedsStep hget, after_cons, feedStep, if_pos rfl]
  have hheard : Hears (paymentsTo merchantOf feed₀.merchant post)
      (after (feedStep merchantOf i) (feed₀.call .next) post) :=
    hmerchant ▸ hears_after hears hbegun post
  refine ⟨_, hrun, hheard.given, hheard.kept, fun hwaiting => ?_, fun hdone more => ?_⟩
  · have hkept := hheard.kept (by rw [hwaiting]; nofun)
    rwa [hheard.waiting hwaiting, inHand, hwaiting, List.append_nil, List.append_nil] at hkept
  · obtain ⟨hdone', hvalues⟩ := (onward_after _ more).ended hdone
    refine ⟨_, ?_, hdone', hvalues⟩
    rw [after_append, getElem?_after_feedsStep hrun]

theorem payment_feed_sample : ∃ feed, (after (feedsStep Prod.fst) []
      [.subscribe "shop" true, .publish ("shop", 0), .call 0 .next, .publish ("shop", 1),
        .publish ("stall", 2), .publish ("shop", 3), .turn 0])[0]? = some feed ∧
    feed.values = [("shop", 1)] ∧ feed.values <+: [("shop", 1), ("shop", 3)] := by
  obtain ⟨feed, hget, hgiven, -⟩ := (@payment_feed _ Prod.fst _).2
    [.subscribe "shop" true, .publish ("shop", 0)] 0
    [.publish ("shop", 1), .publish ("stall", 2), .publish ("shop", 3), .turn 0] _ rfl rfl rfl rfl
  refine ⟨feed, hget, ?_, hgiven⟩
  rw [← Option.some.inj hget]
  rfl

end SorobanPay.PaymentFeed
