import SorobanPay.Foundation.Listing
import SorobanPay.Payments.Book
import SorobanPay.Payments.PathAgreement

/-!
# Independence of the entries of a batch

A batch of a merchant is meant to be no more than its entries: each listed subscriber is charged at
most once, at the first place where it is listed, and the batch leaves what batches of one leave
that are run one after another, in any order of the subscribers. `batch_independent` proves this for
token ledgers that honour what is funded and approved, as long as no listed subscriber is the
merchant or the fee collector, whom the other entries pay.

The contract is followed on the book of the merchant (`Payments.Book`): an entry of a batch is a
collection in the book (`Booked.exists_entry`), and collections are independent.

## Main definitions

* `HonoursApproved`: tokens whose transfers of a funded and approved amount go through.
* `IsBook`, `Booked`: the book of a state.
* `singles`: batches of one, one after another.
* `EntriesIndependent`: what a batch owes to its entries.

## Main results

* `Booked.exists_entry`, `Booked.invoke_batch`: an entry and a batch in the book.
* `batch_independent`: the entries of a batch are independent.
-/

set_option autoImplicit false

namespace SorobanPay

open Foundation

variable {Address Hash World Op : Type} [DecidableEq Address]

/-! ### Statement -/

section Statement

/-- The token contracts are ledgers with the balances `bal`, on which the contract may move
`allowed`. A transfer is no operation on allowances, and one of the `payers` which is funded and
approved goes through. -/
structure HonoursApproved (H : Host Address Hash World Op) (env : Env Address)
    (bal allowed : World → Address → Address → ℤ) (payers : List Address) : Prop where
  ledger : IsLedger H.tokens bal
  allowance : ∀ w token owner,
    H.tokens.allowance w token owner H.currentContractAddress = some (allowed w token owner)
  allowance_transfer : ∀ authorized w token src dst amount w',
    H.tokens.transfer authorized w token src dst amount = some w' → allowed w' = allowed w
  honours : ∀ w token src dst amount, src ∈ payers → 0 ≤ amount → amount ≤ bal w token src →
    amount ≤ allowed w token src →
      ∃ w', H.tokens.transfer (H.tokenAuthorization env) w token src dst amount = some w'

variable [DecidableEq Hash] (H : Host Address Hash World Op) (env : Env Address)
  (m token : Address)

/-- Batches of one for the subscribers of a list, one after another: the replies, and the state they
leave. -/
def singles : List Address → State Address Hash World →
    List (Except Fault (Reply Address)) × State Address Hash World
  | [], σ => ([], σ)
  | s :: order, σ =>
    ((invokeBatch H env σ s m token).1 :: (singles order (invokeBatch H env σ s m token).2).1,
      (singles order (invokeBatch H env σ s m token).2).2)

/-- What a batch in the state `σ` owes to its entries, given its reports and the state it leaves.

There is one report for each listed subscriber, in order, and a subscriber is reported as charged at
the first place where it is listed only. Those that are have been charged once, and the others have
paid nothing. Batches of one, in any order of the subscribers, report the same of each subscriber
and leave the same records and balances. Without an entry that is reported as not charged the batch
reports the same of all other entries and leaves the same balances and all other records. -/
structure EntriesIndependent (bal : World → Address → Address → ℤ) (σ : State Address Hash World)
    (subscribers : List Address) (results : List (Address × Bool))
    (σ' : State Address Hash World) : Prop where
  in_order : results.map Prod.fst = subscribers
  first : ∀ (i : ℕ) s, results[i]? = some (s, true) → s ∉ subscribers.take i
  charged : ∀ s, (s, true) ∈ results → ∃ d, H.record σ s m = some d ∧
    H.record σ' s m = some (d.collected env.timestamp) ∧
      ∀ t, bal σ'.tokens t s = bal σ.tokens t s - if t = d.token then d.amount else 0
  uncharged : ∀ s ∈ subscribers, (s, true) ∉ results →
    ∀ t, bal σ'.tokens t s = bal σ.tokens t s
  sequential : ∀ order, Enumerates order {s | s ∈ subscribers} →
    (singles H env m token order σ).1 =
        order.map (fun s => .ok (.reports [(s, decide ((s, true) ∈ results))])) ∧
      H.record (singles H env m token order σ).2 = H.record σ' ∧
      bal (singles H env m token order σ).2.tokens = bal σ'.tokens
  without : ∀ pre s post before after, subscribers = pre ++ s :: post →
    results = before ++ (s, false) :: after → before.length = pre.length → pre ++ post ≠ [] →
      ∃ σ'', invoke H env (.batchExecutePayment m token (pre ++ post)) σ =
          (.ok (.reports (before ++ after)), σ'') ∧
        bal σ''.tokens = bal σ'.tokens ∧
        ∀ x y, ¬ (x = s ∧ y = m) → H.record σ'' x y = H.record σ' x y

end Statement

/-! ### The book of a state -/

section Booked

variable {H : Host Address Hash World Op} {env : Env Address} {σ σ' : State Address Hash World}
  {bal allowed : World → Address → Address → ℤ} {payers : List Address}
  {config : Option (ProtocolFeeConfig Address)} {s m token : Address} {w w' : World} {amount : ℤ}
  {fees : List (Event Address)}

/-- A payment that is funded and approved goes through. -/
theorem HonoursApproved.exists_payment (htoken : HonoursApproved H env bal allowed payers)
    (hs : s ∈ payers) (hfee : ∀ cfg, config = some cfg → cfg.feeBps ≤ maxFeeBps)
    (hpos : 0 < amount) (hle : amount ≤ maxAmount) (hfunded : amount ≤ bal w token s)
    (happroved : amount ≤ allowed w token s) :
    ∃ w' fees, payment H env config w s m token amount = some (w', fees) := by
  refine SorobanPay.exists_payment hpos hle hfee fun fee hnonneg hlt => ?_
  obtain ⟨w₁, htransfer⟩ :=
    htoken.honours w token s m (amount - fee) hs (by omega) (by omega) (by omega)
  have hleft : fee ≤ bal w₁ token s := by
    rw [htoken.ledger.transfer _ _ _ _ _ _ _ htransfer token s, if_pos ⟨rfl, rfl⟩]
    split_ifs <;> omega
  have hallowed : fee ≤ allowed w₁ token s := by
    rw [htoken.allowance_transfer _ _ _ _ _ _ _ htransfer]
    omega
  exact ⟨w₁, htransfer, fun dst => htoken.honours w₁ token s dst fee hs hnonneg hleft hallowed⟩

/-- A payment leaves what the contract may move. -/
theorem HonoursApproved.allowed_payment (htoken : HonoursApproved H env bal allowed payers)
    (hpay : payment H env config w s m token amount = some (w', fees)) :
    allowed w' = allowed w :=
  payment_invariant (I := fun w₁ => allowed w₁ = allowed w)
    (fun _ _ _ _ htransfer h => (htoken.allowance_transfer _ _ _ _ _ _ _ htransfer).trans h)
    hpay rfl

omit [DecidableEq Address] in
/-- The book has the records, balances and allowances of a state. -/
structure IsBook (H : Host Address Hash World Op) (bal allowed : World → Address → Address → ℤ)
    (σ : State Address Hash World) (b : Book Address) : Prop where
  record : ∀ x y, b.record x y = H.record σ x y
  balance : b.balance = bal σ.tokens
  allowance : b.allowance = allowed σ.tokens

/-- The book of a state in which the records of the payers have room for one more payment. -/
structure Booked (H : Host Address Hash World Op) (env : Env Address)
    (bal allowed : World → Address → Address → ℤ) (payers : List Address)
    (config : Option (ProtocolFeeConfig Address)) (m : Address) (σ : State Address Hash World)
    (b : Book Address) : Prop extends IsBook H bal allowed σ b where
  sound : Sound H σ
  protocolFee : σ.protocolFee = config
  fits : ∀ s ∈ payers, (b.row m s).Fits env.timestamp

omit [DecidableEq Address] in
/-- Every state with the invariants of the contract has a book. -/
theorem exists_booked (hσ : Sound H σ)
    (hfits : ∀ s ∈ payers, ∀ d, H.record σ s m = some d →
      d.paymentNonce < 2 ^ 32 - 1 ∧ env.timestamp + d.interval < 2 ^ 64) :
    ∃ b, Booked H env bal allowed payers σ.protocolFee m σ b := by
  refine ⟨⟨H.record σ, bal σ.tokens, allowed σ.tokens, fun s y d hd =>
    (hσ.wellFormed s y d hd).interval_pos⟩, ⟨fun _ _ => rfl, rfl, rfl⟩, hσ, rfl, ?_⟩
  intro s hs d hd _
  obtain ⟨hnonce, hnext⟩ := hfits s hs d hd
  exact ⟨hnext, by omega⟩

/-! ### Entries -/

namespace IsBook

variable {b : Book Address} {d : SubscriptionData Address}

omit [DecidableEq Address] in
theorem row_record (h : IsBook H bal allowed σ b) (m s : Address) :
    (b.row m s).record = H.record σ s m :=
  h.record s m

omit [DecidableEq Address] in
theorem row_balance (h : IsBook H bal allowed σ b) (m s t : Address) :
    (b.row m s).balance t = bal σ.tokens t s :=
  congrFun (congrFun h.balance t) s

omit [DecidableEq Address] in
theorem row_allowance (h : IsBook H bal allowed σ b) (m s t : Address) :
    (b.row m s).allowance t = allowed σ.tokens t s :=
  congrFun (congrFun h.allowance t) s

omit [DecidableEq Address] in
theorem claim_eq (h : IsBook H bal allowed σ b) (hd : H.record σ s m = some d) (now : ℕ) :
    (b.row m s).claim now =
      if d.nextPayment ≤ now ∧ d.amount ≤ allowed σ.tokens d.token s then some d else none := by
  rw [Row.claim, h.row_record, hd, Option.filter_some, h.row_allowance]
  simp only [decide_eq_true_eq]

/-- An entry that does not get as far as the balance leaves the book. -/
theorem of_idle (h : IsBook H bal allowed σ b) (σ' : State Address Hash World)
    (hclaim : (b.row m s).claim env.timestamp = none) (hrecord : H.record σ' = H.record σ)
    (htokens : σ'.tokens = σ.tokens) :
    b.charges env.timestamp m s = false ∧
      IsBook H bal allowed σ' (b.collect env.timestamp config m s) := by
  obtain ⟨hunpaid, hsame⟩ := Book.collect_of_claim_eq_none hclaim
  rw [hsame]
  exact ⟨hunpaid, fun x y => by rw [h.record, hrecord], by rw [h.balance, htokens],
    by rw [h.allowance, htokens]⟩

variable [DecidableEq Hash]

/-- An entry that finds the balance below the amount marks the record in the book. -/
theorem of_short (hkey : H.KeysInjective) (h : IsBook H bal allowed σ b)
    (hout : Outside config m s) (hclaim : (b.row m s).claim env.timestamp = some d)
    (hlow : bal σ.tokens d.token s < d.amount) (event : Event Address) :
    b.charges env.timestamp m s = false ∧
      IsBook H bal allowed
        ((σ.setSubscription (H.subscriptionKey s m) (d.overdue env.timestamp)).publish event)
        (b.collect env.timestamp config m s) := by
  obtain ⟨hcharge, hnext⟩ := Row.next_of_short hclaim ((h.row_balance m s d.token).trans_lt hlow)
  have hunpaid : b.charges env.timestamp m s = false := by
    rw [Book.charges, hcharge]
    rfl
  refine ⟨hunpaid, fun x y => ?_, (Book.alike_collect hout hunpaid).balance.trans h.balance,
    h.allowance⟩
  rw [Book.record_collect, hnext, h.record, Host.record_publish, Host.record_setSubscription hkey]

/-- An entry that charges settles the record in the book, and moves the balances. -/
theorem of_payment (hkey : H.KeysInjective) (htoken : HonoursApproved H env bal allowed payers)
    (h : IsBook H bal allowed σ b) (hwf : d.WellFormed)
    (hfee : ∀ cfg, config = some cfg → cfg.feeBps ≤ maxFeeBps)
    (hclaim : (b.row m s).claim env.timestamp = some d)
    (hfunded : d.amount ≤ bal σ.tokens d.token s)
    (hpay : payment H env config σ.tokens s m d.token d.amount = some (w', fees))
    (event event' : Event Address) :
    b.charges env.timestamp m s = true ∧
      IsBook H bal allowed
        (((σ.settle (H.subscriptionKey s m) d env.timestamp w' fees).publish event).publish event')
        (b.collect env.timestamp config m s) := by
  obtain ⟨hcharge, hnext⟩ :=
    Row.next_of_covered hclaim (hfunded.trans_eq (h.row_balance m s d.token).symm)
  refine ⟨by rw [Book.charges, hcharge]; rfl, fun x y => ?_, funext fun t => funext fun x => ?_,
    h.allowance.trans (htoken.allowed_payment hpay).symm⟩
  · rw [Book.record_collect, hnext, h.record]
    exact (Host.record_setSubscription hkey s m x y _).symm
  · refine Eq.trans ?_ (payment_moves htoken.ledger hwf.amount_pos hwf.amount_le hfee hpay t x).symm
    rw [Book.balance_collect, h.balance, Row.taken_of_some hcharge, Book.moved]
    by_cases ht : t = d.token
    · simp only [ht, true_and, if_true]
      omega
    · simp [ht, feeOn]

end IsBook

namespace Booked

variable [DecidableEq Hash] {b : Book Address}

/-- What an entry of a batch makes of a state, a collection makes of the book. -/
theorem exists_entryStep (hkey : H.KeysInjective)
    (htoken : HonoursApproved H env bal allowed payers)
    (h : Booked H env bal allowed payers config m σ b) (hs : s ∈ payers)
    (hout : Outside config m s) :
    ∃ σ', EntryStep H env config s m σ (b.charges env.timestamp m s) σ' ∧
      IsBook H bal allowed σ' (b.collect env.timestamp config m s) := by
  rcases hr : H.record σ s m with _ | d
  · have hclaim : (b.row m s).claim env.timestamp = none := by
      rw [Row.claim, h.row_record, hr]
      rfl
    obtain ⟨hunpaid, hbook⟩ := h.of_idle σ hclaim rfl rfl
    rw [hunpaid]
    exact ⟨σ, .absent hr, hbook⟩
  have hclaim := h.claim_eq hr env.timestamp
  rcases lt_or_ge env.timestamp d.nextPayment with early | due
  · rw [if_neg fun hc => early.not_ge hc.1] at hclaim
    obtain ⟨hunpaid, hbook⟩ := h.of_idle σ hclaim rfl rfl
    rw [hunpaid]
    exact ⟨σ, .notDue hr early, hbook⟩
  have hallowance := htoken.allowance σ.tokens d.token s
  rcases lt_or_ge (allowed σ.tokens d.token s) d.amount with low | happroved
  · rw [if_neg fun hc => low.not_ge hc.2] at hclaim
    obtain ⟨hunpaid, hbook⟩ := h.of_idle (σ.publish _) hclaim rfl rfl
    rw [hunpaid]
    exact ⟨_, .lowAllowance hr due hallowance low, hbook⟩
  rw [if_pos ⟨due, happroved⟩] at hclaim
  have approved : Approved H σ s d := ⟨_, hallowance, happroved⟩
  have hbalance := htoken.ledger.balance σ.tokens d.token s
  rcases lt_or_ge (bal σ.tokens d.token s) d.amount with low | hfunded
  · obtain ⟨hunpaid, hbook⟩ := h.of_short hkey hout hclaim low _
    rw [hunpaid]
    exact ⟨_, .underfunded hr due approved hbalance low, hbook⟩
  · have hwf := h.sound.wellFormed s m d hr
    have hfee : ∀ cfg, config = some cfg → cfg.feeBps ≤ maxFeeBps := fun cfg hcfg =>
      h.sound.fee_le cfg (h.protocolFee.trans hcfg)
    obtain ⟨w', fees, hpay⟩ :=
      htoken.exists_payment (m := m) hs hfee hwf.amount_pos hwf.amount_le hfunded happroved
    obtain ⟨hnext, hnonce⟩ := h.fits s hs d ((h.row_record m s).trans hr) due
    obtain ⟨hpaid, hbook⟩ := h.of_payment hkey htoken hwf hfee hclaim hfunded hpay _ _
    rw [hpaid]
    exact ⟨_, .charged hr due ⟨approved, ⟨_, hbalance, hfunded⟩, hpay, hnext, hnonce⟩, hbook⟩

/-- **An entry of a batch is a collection in the book.** -/
theorem entry (hkey : H.KeysInjective) (htoken : HonoursApproved H env bal allowed payers)
    (hpayers : ∀ x ∈ payers, Outside config m x) (hauth : H.authorizes env m = true)
    (hnow : 0 < env.timestamp) (h : Booked H env bal allowed payers config m σ b)
    (hs : s ∈ payers) :
    ∃ σ', EntryStep H env config s m σ (b.charges env.timestamp m s) σ' ∧
      Booked H env bal allowed payers config m σ' (b.collect env.timestamp config m s) := by
  obtain ⟨σ', hentry, hbook⟩ := h.exists_entryStep hkey htoken hs (hpayers s hs)
  have hgen : MicroStep.Genuine H ⟨env, σ, .entry s m (b.charges env.timestamp m s), σ'⟩ :=
    .entry hauth hnow (h.protocolFee.symm ▸ hentry)
  refine ⟨σ', hentry, hbook, hgen.sound hkey h.sound, hentry.protocolFee_eq.trans h.protocolFee,
    fun x hx => ?_⟩
  rcases eq_or_ne x s with rfl | hne
  · rw [Book.row_collect_self (hpayers x hx)]
    exact (h.fits x hx).collected (b.interval_pos x m)
  · rw [Book.row_collect_of_ne (hpayers x hx) hne]
    exact h.fits x hx

/-- The loop of a batch in the book. -/
theorem run_batchLoop (hkey : H.KeysInjective) (htoken : HonoursApproved H env bal allowed payers)
    (hpayers : ∀ x ∈ payers, Outside config m x) (hauth : H.authorizes env m = true)
    (hnow : 0 < env.timestamp) {subscribers : List Address}
    (hsub : ∀ x ∈ subscribers, x ∈ payers)
    (h : Booked H env bal allowed payers config m σ b) :
    ∃ σ', (batchLoop H env config env.timestamp m subscribers).Returns σ
        (reports (Book.collect env.timestamp config m) (Book.charges env.timestamp m) b
          subscribers) σ' ∧
      Booked H env bal allowed payers config m σ'
        (subscribers.foldl (Book.collect env.timestamp config m) b) := by
  induction subscribers generalizing σ b with
  | nil => exact ⟨σ, returns_batchLoop_nil.2 ⟨rfl, rfl⟩, h⟩
  | cons s subscribers ih =>
    obtain ⟨τ, hentry, hτ⟩ := h.entry hkey htoken hpayers hauth hnow (hsub s List.mem_cons_self)
    obtain ⟨σ', hloop, hσ'⟩ := ih (fun x hx => hsub x (List.mem_cons_of_mem s hx)) hτ
    exact ⟨σ', returns_batchLoop_cons.2 ⟨_, τ, hentry, _, hloop, rfl⟩, hσ'⟩

/-- **A batch in the book.** -/
theorem invoke_batch (token : Address) (hkey : H.KeysInjective)
    (htoken : HonoursApproved H env bal allowed payers)
    (hpayers : ∀ x ∈ payers, Outside config m x) (hauth : H.authorizes env m = true)
    (hnow : 0 < env.timestamp) {subscribers : List Address}
    (hsub : ∀ x ∈ subscribers, x ∈ payers) (hne : subscribers ≠ [])
    (hlen : subscribers.length ≤ batchMaxSize)
    (h : Booked H env bal allowed payers config m σ b) :
    ∃ σ', invoke H env (.batchExecutePayment m token subscribers) σ =
        (.ok (.reports (reports (Book.collect env.timestamp config m)
          (Book.charges env.timestamp m) b subscribers)), σ') ∧
      Booked H env bal allowed payers config m σ'
        (subscribers.foldl (Book.collect env.timestamp config m) b) := by
  have hgen : MicroStep.Genuine H ⟨env, σ, .opened m subscribers.length,
      σ.publish (.batchExecuteInitiated m subscribers.length)⟩ := .opened
  have hopened : Booked H env bal allowed payers config m
      (σ.publish (.batchExecuteInitiated m subscribers.length)) b :=
    ⟨⟨h.record, h.balance, h.allowance⟩, hgen.sound hkey h.sound, h.protocolFee, h.fits⟩
  obtain ⟨σ', hloop, hσ'⟩ := hopened.run_batchLoop hkey htoken hpayers hauth hnow hsub
  have hreturns : (batchExecutePayment H env m token subscribers).Returns σ _ σ' :=
    returns_batchExecutePayment.2 ⟨hauth, hne, hlen, hnow, by rw [h.protocolFee]; exact hloop⟩
  exact ⟨σ', Tx.commit_of_returns (returns_run_batch.2 ⟨_, hreturns, rfl⟩), hσ'⟩

/-- **Batches of one in the book.** -/
theorem run_singles (token : Address) (hkey : H.KeysInjective)
    (htoken : HonoursApproved H env bal allowed payers)
    (hpayers : ∀ x ∈ payers, Outside config m x) (hauth : H.authorizes env m = true)
    (hnow : 0 < env.timestamp) {order : List Address} (hsub : ∀ x ∈ order, x ∈ payers)
    (h : Booked H env bal allowed payers config m σ b) :
    (singles H env m token order σ).1 =
        (reports (Book.collect env.timestamp config m) (Book.charges env.timestamp m) b order).map
          (fun report => .ok (.reports [report])) ∧
      Booked H env bal allowed payers config m (singles H env m token order σ).2
        (order.foldl (Book.collect env.timestamp config m) b) := by
  induction order generalizing σ b with
  | nil => exact ⟨rfl, h⟩
  | cons s order ih =>
    obtain ⟨τ, hinvoke, hτ⟩ := h.invoke_batch token hkey htoken hpayers hauth hnow
      (List.forall_mem_singleton.2 (hsub s List.mem_cons_self)) (List.cons_ne_nil s [])
      (by decide : 1 ≤ batchMaxSize)
    obtain ⟨hreplies, hσ'⟩ := ih (fun x hx => hsub x (List.mem_cons_of_mem s hx)) hτ
    have hone : invokeBatch H env σ s m token = _ := hinvoke
    simp only [singles, hone]
    exact ⟨congrArg _ hreplies, hσ'⟩

end Booked

end Booked

/-! ### Independence -/

section Independence

variable [DecidableEq Hash] {H : Host Address Hash World Op} {env : Env Address}
  {σ σ' : State Address Hash World} {bal allowed : World → Address → Address → ℤ}
  {payers : List Address} {config : Option (ProtocolFeeConfig Address)} {s m token : Address}
  {b b' : Book Address} {subscribers : List Address}

omit [DecidableEq Hash] in
/-- The row of a subscriber after a list of collections that has it. -/
theorem Booked.row_eq (h' : Booked H env bal allowed payers config m σ'
      (subscribers.foldl (Book.collect env.timestamp config m) b))
    (hout : ∀ x ∈ subscribers, Outside config m x) (hs : s ∈ subscribers) :
    H.record σ' s m = (b.row m s).next env.timestamp ∧
      ∀ t, bal σ'.tokens t s = b.balance t s - (b.row m s).taken env.timestamp t := by
  have hrow : (subscribers.foldl (Book.collect env.timestamp config m) b).row m s =
      if s ∈ subscribers then (b.row m s).collected env.timestamp else b.row m s :=
    Book.row_foldl_collect hout (hout s hs) b
  rw [if_pos hs] at hrow
  refine ⟨(h'.row_record m s).symm.trans (congrArg Row.record hrow), fun t => ?_⟩
  rw [← h'.balance]
  exact congrFun (congrArg Row.balance hrow) t

omit [DecidableEq Hash] in
/-- A listed subscriber that is charged has paid once. -/
theorem Booked.charged (h : Booked H env bal allowed payers config m σ b)
    (h' : Booked H env bal allowed payers config m σ'
      (subscribers.foldl (Book.collect env.timestamp config m) b))
    (hout : ∀ x ∈ subscribers, Outside config m x) (hs : s ∈ subscribers)
    (hcharges : b.charges env.timestamp m s = true) :
    ∃ d, H.record σ s m = some d ∧ H.record σ' s m = some (d.collected env.timestamp) ∧
      ∀ t, bal σ'.tokens t s = bal σ.tokens t s - if t = d.token then d.amount else 0 := by
  obtain ⟨hrecord, hbalance⟩ := h'.row_eq hout hs
  obtain ⟨d, hcharge⟩ := Option.isSome_iff_exists.1 hcharges
  obtain ⟨hclaim, hcover⟩ := Row.charge_eq_some_iff.1 hcharge
  refine ⟨d, (h.row_record m s).symm.trans (Row.claim_eq_some_iff.1 hclaim).1,
    hrecord.trans (Row.next_of_covered hclaim hcover).2, fun t => ?_⟩
  rw [hbalance, h.balance, Row.taken_of_some hcharge]

omit [DecidableEq Hash] in
/-- A listed subscriber that is not charged has paid nothing. -/
theorem Booked.uncharged (h : Booked H env bal allowed payers config m σ b)
    (h' : Booked H env bal allowed payers config m σ'
      (subscribers.foldl (Book.collect env.timestamp config m) b))
    (hout : ∀ x ∈ subscribers, Outside config m x) (hs : s ∈ subscribers)
    (hcharges : b.charges env.timestamp m s = false) (t : Address) :
    bal σ'.tokens t s = bal σ.tokens t s := by
  rw [(h'.row_eq hout hs).2, h.balance, Book.taken_eq_zero hcharges, sub_zero]

/-- **Batches of one, in any order**, report what the batch reports of each subscriber, and leave
the same records and balances. -/
theorem Booked.sequential (token : Address) (hkey : H.KeysInjective)
    (htoken : HonoursApproved H env bal allowed subscribers)
    (hout : ∀ x ∈ subscribers, Outside config m x) (hauth : H.authorizes env m = true)
    (hnow : 0 < env.timestamp) (h : Booked H env bal allowed subscribers config m σ b)
    (h' : Booked H env bal allowed subscribers config m σ'
      (subscribers.foldl (Book.collect env.timestamp config m) b))
    {order : List Address} (horder : Enumerates order {s | s ∈ subscribers}) :
    (singles H env m token order σ).1 =
        order.map (fun s => .ok (.reports [(s, b.charges env.timestamp m s)])) ∧
      H.record (singles H env m token order σ).2 = H.record σ' ∧
      bal (singles H env m token order σ).2.tokens = bal σ'.tokens := by
  have hsub : ∀ x ∈ order, x ∈ subscribers := fun x hx => (horder.mem_iff x).1 hx
  have hind := Book.independent_collect env.timestamp config m
  obtain ⟨hreplies, hlast⟩ := h.run_singles token hkey htoken hout hauth hnow hsub
  have hsame : order.foldl (Book.collect env.timestamp config m) b =
      subscribers.foldl (Book.collect env.timestamp config m) b :=
    (hind.foldl_eq hout (fun x => (horder.mem_iff x).symm) b).symm
  rw [hsame] at hlast
  refine ⟨?_, funext fun x => funext fun y => ?_, hlast.balance.symm.trans h'.balance⟩
  · rw [hreplies, hind.reports_of_nodup (fun x hx => hout x (hsub x hx)) horder.nodup,
      List.map_map]
    rfl
  · exact (hlast.record x y).symm.trans (h'.record x y)

/-- **Without an entry that does not charge**, the other entries end as they do with it. -/
theorem Booked.without (token : Address) (hkey : H.KeysInjective)
    (htoken : HonoursApproved H env bal allowed payers)
    (hout : ∀ x ∈ payers, Outside config m x) (hauth : H.authorizes env m = true)
    (hnow : 0 < env.timestamp) (h : Booked H env bal allowed payers config m σ b)
    {pre post : List Address} {before after : List (Address × Bool)}
    (hsub : ∀ x ∈ pre ++ s :: post, x ∈ payers) (hlen : (pre ++ post).length ≤ batchMaxSize)
    (h' : Booked H env bal allowed payers config m σ'
      ((pre ++ s :: post).foldl (Book.collect env.timestamp config m) b))
    (hreports : reports (Book.collect env.timestamp config m) (Book.charges env.timestamp m) b
      (pre ++ s :: post) = before ++ (s, false) :: after)
    (hplace : before.length = pre.length) (hne : pre ++ post ≠ []) :
    ∃ σ'', invoke H env (.batchExecutePayment m token (pre ++ post)) σ =
        (.ok (.reports (before ++ after)), σ'') ∧
      bal σ''.tokens = bal σ'.tokens ∧
      ∀ x y, ¬ (x = s ∧ y = m) → H.record σ'' x y = H.record σ' x y := by
  have hs : Outside config m s := hout s (hsub s (by simp))
  have hsub' : ∀ x ∈ pre ++ post, x ∈ payers := fun x hx =>
    hsub x (by simp only [List.mem_append, List.mem_cons] at hx ⊢; tauto)
  rw [reports_append, reports] at hreports
  obtain ⟨hbefore, hrest⟩ := List.append_inj hreports (by rw [length_reports, hplace])
  obtain ⟨hentry, hafter⟩ := List.cons.inj hrest
  -- with the entry and without it the books are alike from here on
  have halike := Book.alike_collect hs (Prod.mk.inj hentry).2
  obtain ⟨hpost, hbooks⟩ := reports_eq_of_simulation (l := post) (P := fun _ => True)
    (fun c c' x _ hc => hc.charges_eq x) (fun c c' x _ hc => hc.collect hs x) halike
    fun _ _ => trivial
  obtain ⟨σ'', hinvoke, hσ''⟩ := h.invoke_batch token hkey htoken hout hauth hnow hsub' hne hlen
  rw [List.foldl_append] at hσ''
  rw [List.foldl_append, List.foldl_cons] at h'
  refine ⟨σ'', ?_, ?_, fun x y hpair => ?_⟩
  · rw [hinvoke, reports_append, hbefore, ← hafter, hpost]
  · rw [← hσ''.balance, ← h'.balance, hbooks.balance]
  · rw [← hσ''.record, ← h'.record, hbooks.record x y hpair]

/-- **The entries of a batch are independent.** In a reachable state, let a merchant collect from a
list of one to fifty subscribers, none of them the merchant or the fee collector, over token ledgers
that honour what is funded and approved; let no record of them have the last nonce, and let the next
payments fit a `u64`. Then the batch reports on its entries in order, and is no more than they are:
nothing is charged twice, batches of one in any order amount to the same, and an entry that is not
charged changes nothing for the others. -/
theorem batch_independent (hkey : H.KeysInjective) (hreach : Reachable H σ)
    (htoken : HonoursApproved H env bal allowed subscribers) (hauth : H.authorizes env m = true)
    (hnow : 0 < env.timestamp) (hne : subscribers ≠ [])
    (hlen : subscribers.length ≤ batchMaxSize) (hmerchant : m ∉ subscribers)
    (hcollector : ∀ cfg, σ.protocolFee = some cfg → cfg.feeCollector ∉ subscribers)
    (hfits : ∀ s ∈ subscribers, ∀ d, H.record σ s m = some d →
      d.paymentNonce < 2 ^ 32 - 1 ∧ env.timestamp + d.interval < 2 ^ 64) :
    ∃ results σ', invoke H env (.batchExecutePayment m token subscribers) σ =
        (.ok (.reports results), σ') ∧
      EntriesIndependent H env m token bal σ subscribers results σ' := by
  have hout : ∀ x ∈ subscribers, Outside σ.protocolFee m x := fun x hx =>
    ⟨fun heq => hmerchant (heq ▸ hx), fun heq => by
      obtain ⟨cfg, hcfg, rfl⟩ := Option.map_eq_some_iff.1 heq
      exact hcollector cfg hcfg hx⟩
  obtain ⟨b, h⟩ : ∃ b, Booked H env bal allowed subscribers σ.protocolFee m σ b :=
    exists_booked (hreach.sound hkey) hfits
  have hind := Book.independent_collect env.timestamp σ.protocolFee m
  obtain ⟨σ', hinvoke, h'⟩ :=
    h.invoke_batch token hkey htoken hout hauth hnow (fun _ hx => hx) hne hlen
  refine ⟨_, σ', hinvoke, map_fst_reports _ _, fun i s hat => ((hind.getElem?_reports hout _ i).1
    hat).2.1, fun s hs => ?_, fun s hs hnot => ?_, fun order horder => ?_,
    fun pre s post before after hsplit hreports hplace hothers => ?_⟩
  · obtain ⟨hmem, hcharges⟩ := (hind.mem_reports_iff hout _).1 hs
    exact h.charged h' hout hmem hcharges
  · exact h.uncharged h' hout hs (Bool.eq_false_iff.2 fun hcharges =>
      hnot ((hind.mem_reports_iff hout _).2 ⟨hs, hcharges⟩))
  · obtain ⟨hreplies, hrest⟩ := h.sequential token hkey htoken hout hauth hnow h' horder
    refine ⟨hreplies.trans (List.map_congr_left fun s hs => ?_), hrest⟩
    have hmem : s ∈ subscribers := (horder.mem_iff s).1 hs
    have hcharged : b.charges env.timestamp m s = decide ((s, true) ∈
        reports (Book.collect env.timestamp σ.protocolFee m) (Book.charges env.timestamp m) b
          subscribers) := by
      rw [Bool.eq_iff_iff, decide_eq_true_iff, hind.mem_reports_iff hout, and_iff_right hmem]
    rw [hcharged]
  · subst hsplit
    exact h.without token hkey htoken hout hauth hnow (fun _ hx => hx)
      (by simp only [List.length_append, List.length_cons] at hlen ⊢; omega) h' hreports hplace
      hothers

end Independence

/-! ### A sample -/

theorem sampleHost_honoursApproved (now : ℕ) (payers : List UInt8) :
    HonoursApproved sampleHost (sampleEnv now) (fun L t x => L.balance t x)
      (fun L t x => L.allowance t x 0) payers where
  ledger := sampleHost_isLedger
  allowance _ _ _ := rfl
  allowance_transfer authorized L token src dst amount L' h := by
    obtain ⟨-, rfl⟩ := TokenLedger.transfer_eq_some_iff.1 h
    rfl
  honours L token src dst amount _ hnonneg hfunded _ :=
    ⟨_, TokenLedger.transfer_eq_some_iff.2
      ⟨⟨by simp [Host.tokenAuthorization, sampleEnv], hnonneg, hfunded⟩, rfl⟩⟩

/-- Subscriptions of the merchant 2: that of 1 is covered, that of 5 lacks the balance, that of 4
the allowance, and that of 8 is not due. -/
abbrev sampleMixed : State UInt8 (List UInt8) (TokenLedger UInt8) :=
  after (next sampleHost) sampleStart
    [sampleStep 1 (.subscribe 1 2 9 100 86400 false none),
      sampleStep 1 (.subscribe 5 2 9 600 86400 false none),
      sampleStep 1 (.subscribe 5 6 9 600 86400 false none),
      sampleStep 1 (.subscribe 4 2 9 2000 86400 false none),
      sampleStep 9 (.subscribe 8 2 9 100 86400 false none),
      sampleStep 86401 (.executePayment 5 6 9)]

/-- A batch that lists them, one without a subscription, and 1 twice. -/
theorem batch_independent_sample :
    ∃ results σ', invoke sampleHost (sampleEnv 86402)
        (.batchExecutePayment 2 9 [1, 5, 7, 1, 4, 8]) sampleMixed = (.ok (.reports results), σ') ∧
      EntriesIndependent sampleHost (sampleEnv 86402) 2 9 (fun L t x => L.balance t x) sampleMixed
        [1, 5, 7, 1, 4, 8] results σ' := by
  have hfits : [1, 5, 7, 1, 4, 8].all (fun s => (sampleHost.record sampleMixed s 2).all fun d =>
      d.paymentNonce < 2 ^ 32 - 1 ∧ 86402 + d.interval < 2 ^ 64) = true := by decide
  refine batch_independent sampleHost_keysInjective ⟨_, _, rfl⟩ (sampleHost_honoursApproved _ _)
    (by decide) (by decide) (by decide) (by decide) (by decide) (fun _ h => nomatch h)
    fun s hs d hd => ?_
  have hrecord := List.all_eq_true.1 hfits s hs
  rw [hd] at hrecord
  exact of_decide_eq_true hrecord

end SorobanPay
