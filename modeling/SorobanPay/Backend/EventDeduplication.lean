import SorobanPay.Foundation.Encoding
import SorobanPay.Foundation.FirstSeen
import SorobanPay.Foundation.Independence
import SorobanPay.Foundation.Replay
import SorobanPay.Payments.OneCharge
import SorobanPay.Tokens.Ledger

/-!
# Payments that are delivered more than once

`EventDeduplicator` of `services/eventDeduplication.ts` takes a payment event for one that it has
processed if the hash of its transaction and its ledger are known. A transaction may charge many
subscribers, each with an `executed` event of its own, and of these only the first one that is
delivered is inserted. `paymentsSurvive_iff` says that every payment of a run is inserted exactly
once if and only if no transaction charges twice.

A transaction is a list of steps of the contract. Its hash and its ledger, and the paging tokens of
its events, are those that the network gives. `processGenericEventAtomic` is left out.

## Main definitions

* `EventDeduplicator`, `processPaymentEventAtomic`: the de-duplication.
* `Transaction`, `payments`: the payments of a run.
* `PaymentsSurvive`: what is asked for.

## Main results

* `inserted_eq`: the deliveries that are inserted.
* `length_executed_batch`: a batch has one payment for each subscriber that it charges.
* `paymentsSurvive_iff`: when all payments are inserted.
* `mem_inserted_of_past`: where they are, and are delivered in order, the cursor passes none.
-/

set_option autoImplicit false

namespace SorobanPay.EventDeduplication

open Foundation

/-! ### The de-duplication -/

structure PaymentEventRecord (Data : Type) where
  txHash : String
  ledger : ℕ
  data : Data
  deriving DecidableEq, Repr

structure Cursor where
  lastLedger : ℕ
  pagingToken : String
  deriving DecidableEq, Repr

structure EventDeduplicator where
  processedPayments : List String
  cursor : Cursor
  deriving DecidableEq, Repr

/-- A new `EventDeduplicator`. -/
def EventDeduplicator.new : EventDeduplicator := ⟨[], ⟨0, ""⟩⟩

variable {Data : Type}

/-- `naturalKey`. -/
def PaymentEventRecord.naturalKey (event : PaymentEventRecord Data) : String :=
  event.txHash ++ ":" ++ toString event.ledger

/-- `processPaymentEventAtomic`: the state afterwards, and whether the event is inserted. -/
def processPaymentEventAtomic (d : EventDeduplicator) (event : PaymentEventRecord Data)
    (ledger : ℕ) (pagingToken : String) : EventDeduplicator × Bool :=
  if event.naturalKey ∈ d.processedPayments then (d, false)
  else (⟨d.processedPayments ++ [event.naturalKey], ⟨ledger, pagingToken⟩⟩, true)

/-! ### Payments and their deliveries -/

/-- A payment: the event, its place among the payments of its transaction, and its paging token. -/
structure Payment (Data : Type) where
  event : PaymentEventRecord Data
  index : ℕ
  pagingToken : String
  deriving DecidableEq, Repr

namespace Payment

/-- The key of a payment. -/
def key (p : Payment Data) : String := p.event.naturalKey

/-- Where the cursor is after the payment. -/
def cursor (p : Payment Data) : Cursor := ⟨p.event.ledger, p.pagingToken⟩

end Payment

/-- A payment is delivered. -/
def deliver (d : EventDeduplicator) (p : Payment Data) : EventDeduplicator :=
  (processPaymentEventAtomic d p.event p.event.ledger p.pagingToken).1

/-- What is reported of the delivery. -/
def isInserted (d : EventDeduplicator) (p : Payment Data) : Bool :=
  (processPaymentEventAtomic d p.event p.event.ledger p.pagingToken).2

/-- The deliveries that are reported as inserted. -/
def inserted (deliveries : List (Payment Data)) : List (Payment Data) :=
  ((reports deliver isInserted .new deliveries).filter fun report => report.2).map Prod.fst

/-- The cursor after some deliveries. -/
def cursorAfter (deliveries : List (Payment Data)) : Cursor :=
  (deliveries.foldl deliver .new).cursor

/-- A cursor is that of a payment or of a later one. -/
def Past (stream : List (Payment Data)) (cursor : Cursor) (p : Payment Data) : Prop :=
  ∃ i j : ℕ, ∃ q, stream[i]? = some p ∧ stream[j]? = some q ∧ i ≤ j ∧ cursor = q.cursor

variable [DecidableEq Data]

/-- Of each payment of the stream exactly one delivery is inserted, and the cursor never gets past
a payment that is never inserted. -/
structure PaymentsSurvive (stream deliveries : List (Payment Data)) : Prop where
  once : ∀ p ∈ stream, (inserted deliveries).count p = 1
  cursor : ∀ delivered, delivered <+: deliveries → ∀ p ∈ stream,
    Past stream (cursorAfter delivered) p → p ∈ inserted deliveries

section Deliveries

variable {stream deliveries : List (Payment Data)} {d : EventDeduplicator} {p : Payment Data}

omit [DecidableEq Data] in
theorem deliver_eq : deliver d p =
    if p.key ∈ d.processedPayments then d
    else ⟨d.processedPayments ++ [p.key], p.cursor⟩ := by
  unfold deliver processPaymentEventAtomic Payment.key Payment.cursor
  split_ifs <;> rfl

omit [DecidableEq Data] in
theorem isInserted_eq : isInserted d p = decide (p.key ∉ d.processedPayments) := by
  unfold isInserted processPaymentEventAtomic Payment.key
  split_ifs with h <;> simp [h]

omit [DecidableEq Data] in
theorem filter_reports_eq (d : EventDeduplicator) (deliveries : List (Payment Data)) :
    ((reports deliver isInserted d deliveries).filter fun report => report.2).map Prod.fst =
      firstSeen Payment.key d.processedPayments deliveries := by
  induction deliveries generalizing d with
  | nil => rfl
  | cons p deliveries ih =>
    rw [reports, firstSeen, isInserted_eq, List.filter_cons]
    by_cases h : p.key ∈ d.processedPayments
    · have hsame : deliver d p = d := by rw [deliver_eq, if_pos h]
      rw [if_neg (by simpa using h), if_pos h, hsame, ih]
    · have hnew : (deliver d p).processedPayments = d.processedPayments ++ [p.key] := by
        rw [deliver_eq, if_neg h]
      rw [if_pos (by simpa using h), if_neg h, List.map_cons, ih, hnew]

omit [DecidableEq Data] in
/-- **The deliveries that are inserted** are the first ones of their keys. -/
theorem inserted_eq (deliveries : List (Payment Data)) :
    inserted deliveries = firstSeen Payment.key [] deliveries :=
  filter_reports_eq .new deliveries

/-- All payments are inserted, each once, if and only if they have different keys. -/
theorem paymentsSurvive_iff_key (hdeliveries : ∀ p, p ∈ deliveries ↔ p ∈ stream) :
    PaymentsSurvive stream deliveries ↔
      ∀ p ∈ stream, ∀ q ∈ stream, p.key = q.key → p = q := by
  have hcount : (∀ p ∈ deliveries, (firstSeen Payment.key [] deliveries).count p = 1) ↔
      ∀ p ∈ deliveries, ∀ q ∈ deliveries, p.key = q.key → p = q := count_firstSeen_iff
  simp only [hdeliveries, ← inserted_eq] at hcount
  constructor
  · exact fun h => hcount.1 h.once
  · intro h
    have honce := hcount.2 h
    exact ⟨honce, fun _ _ p hp _ => List.count_pos_iff.1 (honce p hp ▸ Nat.one_pos)⟩

omit [DecidableEq Data] in
/-- The cursor is where it starts, or that of a delivered payment. -/
theorem cursorAfter_eq (deliveries : List (Payment Data)) :
    cursorAfter deliveries = EventDeduplicator.new.cursor ∨
      ∃ p ∈ deliveries, cursorAfter deliveries = p.cursor := by
  induction deliveries using List.reverseRecOn with
  | nil => exact .inl rfl
  | append_singleton deliveries p ih =>
    have hcursor : cursorAfter (deliveries ++ [p]) =
        (deliver (deliveries.foldl deliver .new) p).cursor := by
      rw [cursorAfter, List.foldl_append]
      rfl
    rw [hcursor, deliver_eq]
    split_ifs
    · refine ih.imp_right fun ⟨q, hq, heq⟩ => ⟨q, List.mem_append_left _ hq, heq⟩
    · exact .inr ⟨p, List.mem_append_right _ (List.mem_singleton_self p), rfl⟩

omit [DecidableEq Data] in
/-- **The cursor passes no payment** that has not been inserted by then, where different payments
have different keys and cursors, and they are delivered in order but for restarts. -/
theorem mem_inserted_of_past (hkeys : (stream.map Payment.key).Nodup)
    (hcursors : (stream.map Payment.cursor).Nodup)
    (hstart : ∀ p ∈ stream, p.cursor ≠ EventDeduplicator.new.cursor) {n : ℕ}
    (h : Redelivery stream deliveries n) (hpast : Past stream (cursorAfter deliveries) p) :
    p ∈ inserted deliveries := by
  obtain ⟨i, j, q, hi, hj, hij, hcursor⟩ := hpast
  have hq := List.mem_of_getElem? hj
  obtain ⟨q', hq', hcursor'⟩ := (cursorAfter_eq deliveries).resolve_left fun hnew =>
    hstart q hq (hcursor.symm.trans hnew)
  obtain rfl := List.inj_on_of_nodup_map hcursors (h.mem_stream hq') hq
    (hcursor'.symm.trans hcursor)
  have hp : p ∈ deliveries := h.mem_of_le (.of_map _ hcursors) hq' hi hj hij
  obtain ⟨p', hp', hkey⟩ := exists_mem_firstSeen_nil Payment.key hp
  obtain rfl := List.inj_on_of_nodup_map hkeys (h.mem_stream (firstSeen_sublist.subset hp'))
    (h.mem_stream hp) hkey
  rwa [inserted_eq]

end Deliveries

/-! ### The payments of a run -/

section Run

variable {Address Hash World Op : Type} [DecidableEq Address] [DecidableEq Hash]

/-- A transaction: what it does, and what the network says of it. -/
structure Transaction (Address Hash Op : Type) where
  steps : List (Step Address Hash Op)
  hash : String
  ledger : ℕ
  pagingToken : ℕ → String

variable (H : Host Address Hash World Op)

/-- The state after a transaction. -/
def commit (σ : State Address Hash World) (tx : Transaction Address Hash Op) :
    State Address Hash World :=
  after (next H) σ tx.steps

/-- The `executed` events of a transaction. -/
def Transaction.executed (σ : State Address Hash World) (tx : Transaction Address Hash Op) :
    List (Event Address) :=
  ((commit H σ tx).events.drop σ.events.length).filter fun event => event.executedPair.isSome

/-- The payments of a transaction. -/
def Transaction.payments (σ : State Address Hash World) (tx : Transaction Address Hash Op) :
    List (Payment (Event Address)) :=
  (tx.executed H σ).zipIdx.map fun (event, index) =>
    ⟨⟨tx.hash, tx.ledger, event⟩, index, tx.pagingToken index⟩

/-- The payments of a run. -/
abbrev payments (σ : State Address Hash World) (txs : List (Transaction Address Hash Op)) :
    List (Payment (Event Address)) :=
  history (commit H) (Transaction.payments H) σ txs

/-- The transaction charges at most once. -/
def ChargesOnce (σ : State Address Hash World) (tx : Transaction Address Hash Op) : Prop :=
  (tx.executed H σ).length ≤ 1

instance (σ : State Address Hash World) (tx : Transaction Address Hash Op) :
    Decidable (ChargesOnce H σ tx) :=
  inferInstanceAs (Decidable (_ ≤ 1))

variable {H} {σ : State Address Hash World} {tx : Transaction Address Hash Op}
  {txs : List (Transaction Address Hash Op)} {p : Payment (Event Address)}

theorem event_of_mem_payments (h : p ∈ tx.payments H σ) :
    p.event.txHash = tx.hash ∧ p.event.ledger = tx.ledger := by
  obtain ⟨entry, -, rfl⟩ := List.mem_map.1 h
  exact ⟨rfl, rfl⟩

theorem hash_of_mem_payments (h : p ∈ payments H σ txs) :
    p.event.txHash ∈ txs.map Transaction.hash := by
  obtain ⟨tx, htx, τ, hp⟩ := exists_of_mem_history h
  exact List.mem_map.2 ⟨tx, htx, (event_of_mem_payments hp).1.symm⟩

omit [DecidableEq Address] in
theorem txHash_eq_of_key {p q : Payment (Event Address)} (h : p.key = q.key) :
    p.event.txHash = q.event.txHash :=
  (append_colon_toString_inj (m := p.event.ledger) (n := q.event.ledger) h).1

theorem nodup_payments_transaction : (tx.payments H σ).Nodup := by
  refine List.Nodup.of_map Payment.index ?_
  have hindex : (tx.payments H σ).map Payment.index = List.range (tx.executed H σ).length := by
    rw [Transaction.payments, List.map_map]
    exact (List.zipIdx_map_snd 0 (tx.executed H σ)).trans List.range_eq_range'.symm
  rw [hindex]
  exact List.nodup_range

/-- The payments of a run are different from each other. -/
theorem nodup_payments (hhashes : (txs.map Transaction.hash).Nodup) : (payments H σ txs).Nodup :=
  nodup_history Transaction.hash (fun p => p.event.txHash)
    (fun _ _ _ hp => (event_of_mem_payments hp).1) (fun _ => True) (fun _ _ _ => trivial)
    (fun _ _ _ => nodup_payments_transaction) hhashes trivial

/-- The keys of the payments differ if and only if no transaction charges twice. -/
theorem nodup_map_key_iff (hhashes : (txs.map Transaction.hash).Nodup) :
    ((payments H σ txs).map Payment.key).Nodup ↔ Along (commit H) (ChargesOnce H) σ txs := by
  induction txs generalizing σ with
  | nil => simp
  | cons tx txs ih =>
    obtain ⟨hnew, hhashes⟩ := List.nodup_cons.1 hhashes
    have hself : ((tx.payments H σ).map Payment.key).Nodup ↔ ChargesOnce H σ tx := by
      have hsame : ((tx.payments H σ).map Payment.key) =
          List.replicate (tx.executed H σ).length (tx.hash ++ ":" ++ toString tx.ledger) := by
        refine List.eq_replicate_iff.2 ⟨by simp [Transaction.payments], fun k hk => ?_⟩
        obtain ⟨p, hp, rfl⟩ := List.mem_map.1 hk
        obtain ⟨hhash, hledger⟩ := event_of_mem_payments hp
        rw [Payment.key, PaymentEventRecord.naturalKey, hhash, hledger]
      rw [hsame, List.nodup_replicate, ChargesOnce]
    have hapart : List.Disjoint ((tx.payments H σ).map Payment.key)
        ((payments H (commit H σ tx) txs).map Payment.key) := by
      intro k hk hk'
      obtain ⟨p, hp, rfl⟩ := List.mem_map.1 hk
      obtain ⟨q, hq, hkey⟩ := List.mem_map.1 hk'
      have hhash : q.event.txHash = tx.hash :=
        (txHash_eq_of_key hkey).trans (event_of_mem_payments hp).1
      exact hnew (hhash ▸ hash_of_mem_payments hq)
    rw [payments, history_cons, List.map_append, List.nodup_append', along_cons, hself, ih hhashes]
    exact ⟨fun h => ⟨h.1, h.2.1⟩, fun h => ⟨h.1, h.2, hapart⟩⟩

/-- **All payments of a run survive**, however they are delivered, if and only if no transaction
charges twice. -/
theorem paymentsSurvive_iff (hhashes : (txs.map Transaction.hash).Nodup)
    {deliveries : List (Payment (Event Address))}
    (hdeliveries : ∀ p, p ∈ deliveries ↔ p ∈ payments H σ txs) :
    PaymentsSurvive (payments H σ txs) deliveries ↔ Along (commit H) (ChargesOnce H) σ txs := by
  have hdifferent := nodup_payments (H := H) (σ := σ) hhashes
  rw [paymentsSurvive_iff_key hdeliveries, ← nodup_map_key_iff hhashes,
    List.nodup_map_iff_inj_on hdifferent]

/-- **A batch has a payment for each subscriber that it charges.** -/
theorem length_executed_batch (hkey : H.KeysInjective) (hσ : Sound H σ) {env : Env Address}
    {m token : Address} {subscribers : List Address} {results : List (Address × Bool)}
    {τ : State Address Hash World}
    (h : (batchExecutePayment H env m token subscribers).Returns σ results τ)
    (hsteps : tx.steps = [batchStep Op Hash env m token subscribers]) :
    (tx.executed H σ).length = (charges results).length := by
  have hpublished : (commit H σ tx).events.drop σ.events.length =
      publishedBy H σ (batchStep Op Hash env m token subscribers) := by
    rw [commit, hsteps]
    rfl
  rw [Transaction.executed, hpublished, ← List.countP_eq_length_filter,
    ← List.length_filterMap_eq_countP]
  change (executedPairs _).length = _
  rw [executedPairs_publishedBy hkey hσ, executedPairs_microSteps_batch h, List.length_map]

end Run

/-! ### A sample -/

/-- A transaction of one call. -/
def sampleTransaction (hash : String) (ledger now : ℕ) (call : Call UInt8) :
    Transaction UInt8 (List UInt8) (External UInt8) where
  steps := [sampleStep now call]
  hash := hash
  ledger := ledger
  pagingToken index := hash ++ "-" ++ toString index

/-- Two subscribers, charged by one batch. -/
def sampleBatch : List (Transaction UInt8 (List UInt8) (External UInt8)) :=
  [sampleTransaction "a" 1 1 (.subscribe 1 2 9 100 86400 false none),
    sampleTransaction "b" 1 1 (.subscribe 3 2 9 50 86400 false none),
    sampleTransaction "c" 7 86401 (.batchExecutePayment 2 9 [1, 3])]

/-- The second payment of the batch is never inserted. -/
theorem not_paymentsSurvive_batch :
    ¬ PaymentsSurvive (payments sampleHost sampleStart sampleBatch)
      (payments sampleHost sampleStart sampleBatch) := by
  intro h
  have honce := h.once
  revert honce
  decide +kernel

/-- One subscriber is charged by a batch, and the payment is delivered twice. -/
theorem paymentsSurvive_sample :
    let txs := [sampleTransaction "a" 1 1 (.subscribe 1 2 9 100 86400 false none),
      sampleTransaction "b" 7 86401 (.batchExecutePayment 2 9 [1])]
    let stream := payments sampleHost sampleStart txs
    PaymentsSurvive stream (stream ++ stream) ↔
      Along (commit sampleHost) (ChargesOnce sampleHost) sampleStart txs :=
  paymentsSurvive_iff (by decide) fun _ => List.mem_append.trans or_self_iff

end SorobanPay.EventDeduplication
