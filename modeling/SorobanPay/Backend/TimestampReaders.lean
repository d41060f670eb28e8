import SorobanPay.Backend.EventReplay
import SorobanPay.Backend.Reconciler
import SorobanPay.Foundation.Grouping
import SorobanPay.Foundation.Queries
import SorobanPay.Frontend.NativeValues

/-!
# Readers of the timestamps of events

`computeMrr` of `routes/mrr.ts`, `findDueSubscriptions` of `services/paymentScheduler.ts` and
`findAtRiskSubscriptions` of `services/ttlHealthMonitor.ts` compare the column `ledgerTimestamp` of
the table `Event` with the clock, in seconds. The clock is given in milliseconds. Rows with the same
timestamp are in some order; a time that is shown as a text is left as milliseconds.

## Main definitions

* `recentPayments`, `computeMrr`: the recurring revenue of a merchant.
* `findDueSubscriptions`: the pairs to collect a payment from.
* `findAtRiskSubscriptions`: the subscriptions that may expire on chain.
* `IdleSince`: neither the last payment nor, if there is none, the subscription is later than this.

## Main results

* `mem_recentPayments_iff`, `mem_findDueSubscriptions_iff`,
  `exists_mem_findAtRiskSubscriptions_iff`: what the readers find.
-/

set_option autoImplicit false

namespace SorobanPay.EventIndexer

open Foundation

/-- `Math.floor(Date.now() / 1000)`. -/
def nowSeconds (nowMs : ℕ) : ℤ := (nowMs : ℤ) / 1000

/-! ### Recurring revenue -/

def sixtyDaysMs : ℤ := 60 * 24 * 60 * 60 * 1000

/-- `normaliseToMonthly`. -/
def normaliseToMonthly (amount intervalSeconds : ℤ) : ℤ :=
  if intervalSeconds ≤ 0 then amount else (amount * 2592000).tdiv intervalSeconds

/-- `inferInterval`: the median of the gaps, in seconds. -/
def inferInterval (timestampsMs : List ℤ) : ℤ :=
  if timestampsMs.length < 2 then 2592000
  else
    let sorted := timestampsMs.insertionSort (· ≤ ·)
    let gaps :=
      (List.zipWith (fun later earlier => (later - earlier + 500) / 1000) sorted.tail
        sorted).insertionSort (· ≤ ·)
    gaps.getD (gaps.length / 2) 0

structure TokenMrr where
  token : String
  mrrAmount : ℤ
  activeSubscriptions : ℕ
  deriving DecidableEq, Repr

structure MrrResponse where
  merchant : String
  tokens : List TokenMrr
  computedAt : ℕ
  cacheHit : Bool
  deriving DecidableEq, Repr

/-- The payments that `computeMrr` takes. -/
def recentPayments (db : Db) (merchant : String) (nowMs : ℕ) : List EventRow :=
  let sixtyDaysAgoSeconds : ℤ := ((nowMs : ℤ) - sixtyDaysMs) / 1000
  (db.events.filter fun row => row.merchant = merchant && row.type = .executed &&
      sixtyDaysAgoSeconds ≤ row.ledgerTimestamp).insertionSort
    fun a b => a.ledgerTimestamp ≤ b.ledgerTimestamp

/-- The contribution of a group of payments to the revenue of their token. -/
def addGroup (tokenMrr : InsertionMap String (ℤ × ℕ)) (group : List (EventRow × ℤ)) :
    InsertionMap String (ℤ × ℕ) :=
  match group.head?, group.getLast? with
  | some first, some last =>
    let interval := inferInterval (group.map fun p => (p.1.ledgerTimestamp : ℤ) * 1000)
    let monthlyContribution := normaliseToMonthly last.2 interval
    let existing := (tokenMrr.get first.1.token).getD (0, 0)
    tokenMrr.set first.1.token (existing.1 + monthlyContribution, existing.2 + 1)
  | _, _ => tokenMrr

/-- `computeMrr`; it throws if an amount is no number. -/
def computeMrr (db : Db) (merchant : String) (nowMs : ℕ) : Option MrrResponse := do
  let payments ← (recentPayments db merchant nowMs).mapM fun row =>
    (Frontend.bigIntOfText row.amount).map fun amount => (row, amount)
  let groups := InsertionMap.group
    (payments.map fun p => (p.1.subscriber ++ "|" ++ p.1.token, p))
  let tokenMrr := groups.values.foldl addGroup .empty
  return {
    merchant := merchant
    tokens := tokenMrr.entries.map fun entry => ⟨entry.1, entry.2.1, entry.2.2⟩
    computedAt := nowMs
    cacheHit := false }

/-! ### The last activity -/

/-- The rows of a type for which a condition holds. -/
def EventRow.isFor (type : EventType) (same : EventRow → Bool) (row : EventRow) : Bool :=
  row.type = type && same row

/-- The timestamp of the last payment, or else of the subscription. -/
def lastActivity (rows : List EventRow) (same : EventRow → Bool) (sub : EventRow) : ℕ :=
  match newest? EventRow.ledgerTimestamp (EventRow.isFor .executed same) rows with
  | some lastPayment => lastPayment.ledgerTimestamp
  | none => sub.ledgerTimestamp

/-- The last subscription of each key. -/
def subscribeEvents {κ : Type} [DecidableEq κ] (key : EventRow → κ) (rows : List EventRow) :
    List EventRow :=
  (InsertionMap.firstBy key
    (newestFirst EventRow.ledgerTimestamp (rows.filter fun row => row.type = .subscribe))).values

/-- The row is of this pair. -/
def EventRow.ofPair (s m : String) (row : EventRow) : Bool := row.subscriber = s && row.merchant = m

/-- The row is of this pair and this token. -/
def EventRow.ofTriple (s m token : String) (row : EventRow) : Bool :=
  row.ofPair s m && row.token = token

/-- `findDueSubscriptions`. -/
def findDueSubscriptions (db : Db) (nowMs : ℕ) : List (String × String) :=
  (subscribeEvents (fun row => (row.subscriber, row.merchant)) db.events).filterMap fun sub =>
    let lastTimestamp := lastActivity db.events (EventRow.ofPair sub.subscriber sub.merchant) sub
    let secondsSinceLast := nowSeconds nowMs - lastTimestamp
    if 86400 ≤ secondsSinceLast then some (sub.subscriber, sub.merchant) else none

def ttlRiskDays : ℤ := 300

def ttlRiskSeconds : ℤ := ttlRiskDays * 24 * 60 * 60

structure TtlAtRiskEntry where
  subscriber : String
  merchant : String
  token : String
  amount : String
  lastPaymentAt : Option ℕ
  daysSinceLastPayment : ℤ
  deriving DecidableEq, Repr

/-- `findAtRiskSubscriptions`. -/
def findAtRiskSubscriptions (db : Db) (nowMs : ℕ) : List TtlAtRiskEntry :=
  let cutoffSeconds := nowSeconds nowMs - ttlRiskSeconds
  let seen := subscribeEvents
    (fun row => row.subscriber ++ ":" ++ row.merchant ++ ":" ++ row.token) db.events
  seen.filterMap fun sub =>
    let same := EventRow.ofTriple sub.subscriber sub.merchant sub.token
    let lastPayment := newest? EventRow.ledgerTimestamp (EventRow.isFor .executed same) db.events
    let lastActivitySeconds := lastActivity db.events same sub
    if lastActivitySeconds < cutoffSeconds then
      some
        { subscriber := sub.subscriber
          merchant := sub.merchant
          token := sub.token
          amount := sub.amount
          lastPaymentAt := lastPayment.map fun payment => payment.ledgerTimestamp * 1000
          daysSinceLastPayment := (nowSeconds nowMs - lastActivitySeconds) / (24 * 60 * 60) }
    else none

/-! ### What the readers find -/

/-- Neither the last payment nor, if there is none, the subscription has a later timestamp. -/
def IdleSince (rows : List EventRow) (same : EventRow → Bool) (limit : ℤ) : Prop :=
  (∀ row ∈ rows, row.isFor .executed same → row.ledgerTimestamp ≤ limit) ∧
    ((∃ row ∈ rows, row.isFor .executed same) ∨
      ∀ row ∈ rows, row.isFor .subscribe same → row.ledgerTimestamp ≤ limit)

section Readers

variable {κ : Type} [DecidableEq κ] {key : EventRow → κ} {db : Db} {rows : List EventRow}
  {row sub : EventRow} {same : EventRow → Bool} {limit : ℤ} {s m token : String} {nowMs : ℕ}

theorem isFor_iff {type : EventType} :
    row.isFor type same = true ↔ row.type = type ∧ same row = true := by
  rw [EventRow.isFor, Bool.and_eq_true, decide_eq_true_eq]

/-- A subscription that is kept is the last one of its key. -/
theorem spec_subscribeEvents (h : sub ∈ subscribeEvents key rows) :
    sub ∈ rows ∧ sub.type = .subscribe ∧ ∀ row ∈ rows, row.type = .subscribe → key row = key sub →
      row.ledgerTimestamp ≤ sub.ledgerTimestamp := by
  have hnewest := InsertionMap.mem_values_firstBy_newestFirst_iff.1 h
  obtain ⟨hmem, -, hmax⟩ := newest?_eq_some hnewest
  obtain ⟨hsub, htype⟩ := List.mem_filter.1 hmem
  refine ⟨hsub, of_decide_eq_true htype, fun row hrow htype' hkey => ?_⟩
  exact hmax row (List.mem_filter.2 ⟨hrow, by simp [htype']⟩) (by simp [hkey])

/-- The key of every subscription is kept. -/
theorem exists_mem_subscribeEvents (key : EventRow → κ) (hrow : row ∈ rows)
    (htype : row.type = .subscribe) :
    ∃ sub ∈ subscribeEvents key rows, key sub = key row := by
  have hmem : row ∈ rows.filter fun row => row.type = .subscribe :=
    List.mem_filter.2 ⟨hrow, by simp [htype]⟩
  rcases hnewest : newest? EventRow.ledgerTimestamp (fun b => key b = key row)
      (rows.filter fun row => row.type = .subscribe) with _ | sub
  · have hnone := newest?_eq_none_iff.1 hnewest row hmem
    simp at hnone
  · have hkey : key sub = key row := of_decide_eq_true (newest?_eq_some hnewest).2.1
    exact ⟨sub, InsertionMap.mem_values_firstBy_newestFirst_iff.2 (hkey ▸ hnewest), hkey⟩

/-- What the last activity is compared with. -/
theorem lastActivity_le_iff (hmem : sub ∈ rows) (hsub : sub.isFor .subscribe same)
    (hlast : ∀ row ∈ rows, row.isFor .subscribe same → row.ledgerTimestamp ≤ sub.ledgerTimestamp) :
    (lastActivity rows same sub : ℤ) ≤ limit ↔ IdleSince rows same limit := by
  rw [lastActivity, IdleSince]
  rcases hpayment : newest? EventRow.ledgerTimestamp (EventRow.isFor .executed same) rows
    with _ | payment
  · have hnone := newest?_eq_none_iff.1 hpayment
    constructor
    · intro hle
      refine ⟨fun row hrow hfor => ?_, .inr fun row hrow hfor => ?_⟩
      · rw [hnone row hrow] at hfor
        cases hfor
      · exact (Int.ofNat_le.2 (hlast row hrow hfor)).trans hle
    · rintro ⟨-, ⟨row, hrow, hfor⟩ | hall⟩
      · rw [hnone row hrow] at hfor
        cases hfor
      · exact hall sub hmem hsub
  · obtain ⟨hpaid, hfor, hmax⟩ := newest?_eq_some hpayment
    constructor
    · intro hle
      refine ⟨fun row hrow hfor => ?_, .inl ⟨payment, hpaid, hfor⟩⟩
      exact (Int.ofNat_le.2 (hmax row hrow hfor)).trans hle
    · exact fun h => h.1 payment hpaid hfor

/-- What the last activity of a subscription that is kept tells, if rows of its kind have its key.
-/
theorem idleSince_of_mem_subscribeEvents (limit : ℤ) (h : sub ∈ subscribeEvents key rows)
    (hsame : same sub) (hkey : ∀ row, same row → key row = key sub) :
    sub ∈ rows ∧ sub.isFor .subscribe same ∧
      ((lastActivity rows same sub : ℤ) ≤ limit ↔ IdleSince rows same limit) := by
  obtain ⟨hsub, htype, hlast⟩ := spec_subscribeEvents h
  have hfor := isFor_iff.2 ⟨htype, hsame⟩
  refine ⟨hsub, hfor, lastActivity_le_iff hsub hfor fun row hrow hrow' => ?_⟩
  exact hlast row hrow (isFor_iff.1 hrow').1 (hkey row (isFor_iff.1 hrow').2)

theorem mem_recentPayments_iff : row ∈ recentPayments db m nowMs ↔
    row ∈ db.events ∧ row.merchant = m ∧ row.type = .executed ∧
      nowSeconds nowMs - 60 * 86400 ≤ row.ledgerTimestamp := by
  have hfloor : ((nowMs : ℤ) - sixtyDaysMs) / 1000 = nowSeconds nowMs - 60 * 86400 := by
    rw [nowSeconds, sixtyDaysMs]
    omega
  rw [recentPayments, List.mem_insertionSort, List.mem_filter, hfloor]
  simp only [Bool.and_eq_true, decide_eq_true_eq, and_assoc]

theorem ofPair_iff : row.ofPair s m = true ↔ row.subscriber = s ∧ row.merchant = m := by
  rw [EventRow.ofPair, Bool.and_eq_true, decide_eq_true_eq, decide_eq_true_eq]

theorem ofTriple_iff : row.ofTriple s m token = true ↔
    row.subscriber = s ∧ row.merchant = m ∧ row.token = token := by
  rw [EventRow.ofTriple, Bool.and_eq_true, ofPair_iff, decide_eq_true_eq, and_assoc]

/-- **The pairs that are due.** -/
theorem mem_findDueSubscriptions_iff : (s, m) ∈ findDueSubscriptions db nowMs ↔
    (∃ row ∈ db.events, row.isFor .subscribe (EventRow.ofPair s m)) ∧
      IdleSince db.events (EventRow.ofPair s m) (nowSeconds nowMs - 86400) := by
  have hkey : ∀ row : EventRow, row.ofPair s m → (row.subscriber, row.merchant) = (s, m) :=
    fun row hrow => Prod.ext_iff.2 (ofPair_iff.1 hrow)
  rw [findDueSubscriptions, List.mem_filterMap]
  constructor
  · rintro ⟨sub, hmem, hdue⟩
    dsimp only at hdue
    split_ifs at hdue with hold
    obtain ⟨rfl, rfl⟩ := Prod.mk.inj (Option.some.inj hdue)
    obtain ⟨hsub, hfor, hidle⟩ := idleSince_of_mem_subscribeEvents (nowSeconds nowMs - 86400)
      hmem (ofPair_iff.2 ⟨rfl, rfl⟩) hkey
    exact ⟨⟨sub, hsub, hfor⟩, hidle.1 (by omega)⟩
  · rintro ⟨⟨row, hrow, hfor⟩, hidle⟩
    obtain ⟨htype, hpair⟩ := isFor_iff.1 hfor
    obtain ⟨sub, hmem, hsub⟩ := exists_mem_subscribeEvents
      (fun row => (row.subscriber, row.merchant)) hrow htype
    obtain ⟨hs, hm⟩ := Prod.mk.inj (hsub.trans (hkey row hpair))
    obtain ⟨-, -, hiff⟩ := idleSince_of_mem_subscribeEvents (nowSeconds nowMs - 86400)
      hmem (ofPair_iff.2 ⟨hs, hm⟩) fun row' hrow' =>
        (hkey row' hrow').trans (Prod.ext_iff.2 ⟨hs, hm⟩).symm
    have hold := hiff.2 hidle
    refine ⟨sub, hmem, ?_⟩
    dsimp only
    rw [hs, hm, if_pos (by omega)]

/-- No address has a colon. -/
def Colonless (rows : List EventRow) : Prop :=
  ∀ row ∈ rows, ':' ∉ row.subscriber.toList ∧ ':' ∉ row.merchant.toList ∧ ':' ∉ row.token.toList

/-- Subscriptions of the same key are of the same pair and token. -/
theorem Colonless.eq_of_key (h : Colonless rows) {row row' : EventRow} (hrow : row ∈ rows)
    (hrow' : row' ∈ rows) (hkey : row.subscriber ++ ":" ++ row.merchant ++ ":" ++ row.token =
      row'.subscriber ++ ":" ++ row'.merchant ++ ":" ++ row'.token) :
    row.subscriber = row'.subscriber ∧ row.merchant = row'.merchant ∧ row.token = row'.token := by
  obtain ⟨hs, hm, ht⟩ := h row hrow
  obtain ⟨hs', hm', ht'⟩ := h row' hrow'
  exact (recordKey_inj hs hm ht hs' hm' ht').1 hkey

/-- The subscriptions that are reported: those that are kept and idle. -/
theorem exists_mem_findAtRiskSubscriptions_iff_kept :
    (∃ entry ∈ findAtRiskSubscriptions db nowMs,
        entry.subscriber = s ∧ entry.merchant = m ∧ entry.token = token) ↔
      (∃ sub ∈ subscribeEvents
          (fun row => row.subscriber ++ ":" ++ row.merchant ++ ":" ++ row.token) db.events,
        sub.ofTriple s m token) ∧
        IdleSince db.events (EventRow.ofTriple s m token)
          (nowSeconds nowMs - ttlRiskSeconds - 1) := by
  have hkey : ∀ row : EventRow, row.ofTriple s m token →
      row.subscriber ++ ":" ++ row.merchant ++ ":" ++ row.token =
        s ++ ":" ++ m ++ ":" ++ token := by
    intro row hrow
    obtain ⟨rfl, rfl, rfl⟩ := ofTriple_iff.1 hrow
    rfl
  have hidle : ∀ sub ∈ subscribeEvents
      (fun row => row.subscriber ++ ":" ++ row.merchant ++ ":" ++ row.token) db.events,
      sub.ofTriple s m token →
        ((lastActivity db.events (EventRow.ofTriple s m token) sub : ℤ) ≤
            nowSeconds nowMs - ttlRiskSeconds - 1 ↔
          IdleSince db.events (EventRow.ofTriple s m token)
            (nowSeconds nowMs - ttlRiskSeconds - 1)) := by
    intro sub hmem hsame
    exact (idleSince_of_mem_subscribeEvents _ hmem hsame fun row hrow =>
      (hkey row hrow).trans (hkey sub hsame).symm).2.2
  simp only [findAtRiskSubscriptions, List.mem_filterMap]
  constructor
  · rintro ⟨entry, ⟨sub, hmem, hentry⟩, hs, hm, ht⟩
    split_ifs at hentry with hold
    obtain rfl := Option.some.inj hentry
    dsimp only at hs hm ht
    subst hs hm ht
    have hsame : sub.ofTriple sub.subscriber sub.merchant sub.token :=
      ofTriple_iff.2 ⟨rfl, rfl, rfl⟩
    exact ⟨⟨sub, hmem, hsame⟩, (hidle sub hmem hsame).1 (by omega)⟩
  · rintro ⟨⟨sub, hmem, hsame⟩, hold⟩
    have hage := (hidle sub hmem hsame).2 hold
    obtain ⟨rfl, rfl, rfl⟩ := ofTriple_iff.1 hsame
    exact ⟨_, ⟨sub, hmem, if_pos (by omega)⟩, rfl, rfl, rfl⟩

/-- **The subscriptions at risk.** -/
theorem exists_mem_findAtRiskSubscriptions_iff (hcolonless : Colonless db.events) :
    (∃ entry ∈ findAtRiskSubscriptions db nowMs,
        entry.subscriber = s ∧ entry.merchant = m ∧ entry.token = token) ↔
      (∃ row ∈ db.events, row.isFor .subscribe (EventRow.ofTriple s m token)) ∧
        IdleSince db.events (EventRow.ofTriple s m token)
          (nowSeconds nowMs - ttlRiskSeconds - 1) := by
  rw [exists_mem_findAtRiskSubscriptions_iff_kept]
  refine and_congr_left fun _ => ⟨?_, ?_⟩
  · rintro ⟨sub, hmem, hsame⟩
    obtain ⟨hsub, htype, -⟩ := spec_subscribeEvents hmem
    exact ⟨sub, hsub, isFor_iff.2 ⟨htype, hsame⟩⟩
  · rintro ⟨row, hrow, hfor⟩
    obtain ⟨htype, hsame⟩ := isFor_iff.1 hfor
    obtain ⟨sub, hmem, hsub⟩ := exists_mem_subscribeEvents
      (fun row => row.subscriber ++ ":" ++ row.merchant ++ ":" ++ row.token) hrow htype
    obtain ⟨hs, hm, ht⟩ := hcolonless.eq_of_key (spec_subscribeEvents hmem).1 hrow hsub
    obtain ⟨rfl, rfl, rfl⟩ := ofTriple_iff.1 hsame
    exact ⟨sub, hmem, ofTriple_iff.2 ⟨hs, hm, ht⟩⟩

end Readers

end SorobanPay.EventIndexer
