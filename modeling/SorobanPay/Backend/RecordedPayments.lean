import Mathlib.Data.List.Forall2
import SorobanPay.Backend.Decoding
import SorobanPay.Foundation.Listing
import SorobanPay.Foundation.Replay
import SorobanPay.Payments.OneCharge
import SorobanPay.Tokens.Ledger

/-!
# The payments that the indexer service records

The table `payments` has one row for a transaction, a kind of event and a pair. A transaction may
publish many `executed` events, so that two of them could fall on one row. They do not, since a
transaction charges no pair twice; and an event that is delivered again finds its row.

## Main definitions

* `transcript`: the events of a run, with the transactions that have published them.
* `CarriesTx`: the RPC returns an event with the hash of its transaction.
* `executedKey`: the row that an `executed` event is for.

## Main results

* `nodup_executedKeys`: the `executed` events of a run are for different rows.
* `isSome_payments_index`: which rows there are after some deliveries.
* `enumerates_executed`: the rows of kind `executed` are those of the `executed` events, however
  often these are delivered.
-/

set_option autoImplicit false

namespace SorobanPay

open Foundation

variable {Address Hash World Op : Type}

/-! ### Rows for the events of a run -/

/-- The row that an `executed` event of a transaction is for. -/
def executedKey (W : Wire Address) (entry : String × Event Address) : Option PaymentKey :=
  entry.2.executedPair.map fun pair => ⟨entry.1, .executed, W.text pair.1, W.text pair.2⟩

/-- The RPC returns an event of the contract with the hash of its transaction. -/
structure CarriesTx (W : Wire Address) (raw : EventResponse) (entry : String × Event Address) :
    Prop extends Carries W raw entry.2 where
  txHash : raw.txHash = some entry.1

section Transcript

variable [DecidableEq Address] [DecidableEq Hash] (H : Host Address Hash World Op)

/-- The events that a transaction publishes, with its hash. -/
def published (σ : State Address Hash World) (tx : String × Step Address Hash Op) :
    List (String × Event Address) :=
  (publishedBy H σ tx.2).map (Prod.mk tx.1)

/-- The events of a run of transactions. The hash of a step that is no transaction is on no event.
-/
def transcript (σ : State Address Hash World) (txs : List (String × Step Address Hash Op)) :
    List (String × Event Address) :=
  history (fun σ tx => next H σ tx.2) (published H) σ txs

variable {H} {σ : State Address Hash World} {txs : List (String × Step Address Hash Op)}

theorem Sound.next (hkey : H.KeysInjective) (hσ : Sound H σ) (step : Step Address Hash Op) :
    Sound H (next H σ step) :=
  sound_of_path hkey (path_microSteps σ step) hσ

/-- The events of the transcript are those of the run. -/
theorem events_after (hkey : H.KeysInjective) (hσ : Sound H σ) :
    (after (next H) σ (txs.map Prod.snd)).events =
      σ.events ++ (transcript H σ txs).map Prod.snd := by
  induction txs generalizing σ with
  | nil => exact (List.append_nil _).symm
  | cons tx txs ih =>
    have hpublished : (published H σ tx).map Prod.snd = publishedBy H σ tx.2 := by
      simp [published, Function.comp_def]
    have hcons : transcript H σ (tx :: txs) =
        published H σ tx ++ transcript H (next H σ tx.2) txs :=
      rfl
    rw [List.map_cons, after_cons, ih (hσ.next hkey tx.2), events_next hkey hσ, hcons,
      List.map_append, hpublished, List.append_assoc]

theorem filterMap_executedKey_published (W : Wire Address)
    (tx : String × Step Address Hash Op) :
    (published H σ tx).filterMap (executedKey W) = (executedPairs (publishedBy H σ tx.2)).map
      fun pair => ⟨tx.1, .executed, W.text pair.1, W.text pair.2⟩ := by
  rw [published, List.filterMap_map, executedPairs, List.map_filterMap]
  rfl

/-- **The `executed` events of a run are for different rows**, if the transactions have different
hashes. -/
theorem nodup_executedKeys (hkey : H.KeysInjective) (hσ : Sound H σ) (W : Wire Address)
    (hhashes : (txs.map Prod.fst).Nodup) :
    ((transcript H σ txs).filterMap (executedKey W)).Nodup := by
  rw [transcript, filterMap_history]
  refine nodup_history Prod.fst PaymentKey.txHash (fun σ tx key hmem => ?_) (Sound H)
    (fun σ tx hσ => hσ.next hkey tx.2) (fun σ tx hσ => ?_) hhashes hσ
  · rw [filterMap_executedKey_published] at hmem
    obtain ⟨pair, -, rfl⟩ := List.mem_map.1 hmem
    rfl
  · rw [filterMap_executedKey_published]
    refine List.Nodup.map (fun pair pair' h => ?_) (nodup_executedPairs hkey hσ tx.2)
    obtain ⟨-, -, hs, hm⟩ := PaymentKey.mk.inj h
    exact Prod.ext (W.text_injective hs) (W.text_injective hm)

end Transcript

/-! ### Rows after some deliveries -/

/-- Which rows there are after some deliveries. -/
theorem isSome_payments_index (sdk : Sdk) (t : Tables) (deliveries : List (ℕ × EventResponse))
    (key : PaymentKey) :
    ((index sdk t deliveries).payments key).isSome ↔ (t.payments key).isSome ∨
      ∃ delivery ∈ deliveries, ∃ decoded, decodeEvent sdk delivery.1 delivery.2 = some decoded ∧
        (decoded.payment key).isSome := by
  have hview := Replayable.foldl_view (g := fun row event => row.or (event.payment key))
    (fun t : Tables => t.payments key) (fun t event => persistEvent_payments t event key)
  rw [index, hview, Replayable.foldl_keepFirst, Option.isSome_or, Bool.or_eq_true,
    List.findSome?_isSome_iff]
  simp only [List.mem_filterMap]
  refine or_congr Iff.rfl ⟨?_, ?_⟩
  · rintro ⟨decoded, ⟨delivery, hdelivery, hdecoded⟩, hpayment⟩
    exact ⟨delivery, hdelivery, decoded, hdecoded, hpayment⟩
  · rintro ⟨delivery, hdelivery, decoded, hdecoded, hpayment⟩
    exact ⟨decoded, ⟨delivery, hdelivery, hdecoded⟩, hpayment⟩

/-- The rows of kind `executed` that an event of the contract is recorded in. -/
theorem CarriesTx.recorded_iff {W : Wire Address} {sdk : Sdk} {now : ℕ} {raw : EventResponse}
    {entry : String × Event Address} (h : CarriesTx W raw entry) {key : PaymentKey}
    (hkind : key.eventType = .executed) :
    (∃ decoded, decodeEvent sdk now raw = some decoded ∧ (decoded.payment key).isSome) ↔
      executedKey W entry = some key := by
  obtain ⟨hash, event⟩ := entry
  obtain ⟨txHash, kind, s, m⟩ := key
  obtain rfl : kind = .executed := hkind
  rw [decodeEvent_of_carries h.toCarries, h.txHash]
  cases event with
  | executed s' m' token amount nonce =>
    simp [Event.report, executedKey, Event.executedPair, DecodedEvent.payment,
      EventType.paymentType]
    exact and_congr eq_comm (and_congr eq_comm eq_comm)
  | _ =>
    simp [Event.report, executedKey, Event.executedPair, DecodedEvent.payment,
      EventType.paymentType]

/-- A member of a list has a partner in a list that it is matched with. -/
theorem exists_of_mem_of_forall₂ {α β : Type} {R : α → β → Prop} {l : List α} {l' : List β}
    (h : List.Forall₂ R l l') {a : α} (ha : a ∈ l) : ∃ b ∈ l', R a b := by
  induction h with
  | nil => simp at ha
  | @cons a' b' _ _ hR _ ih =>
    rcases List.mem_cons.1 ha with rfl | ha
    · exact ⟨b', List.mem_cons_self, hR⟩
    · obtain ⟨b, hb, hR⟩ := ih ha
      exact ⟨b, List.mem_cons_of_mem _ hb, hR⟩

/-- **Every collection is recorded once.** The transactions of a run have different hashes, and
their events are delivered in order to the end, starting again from any earlier ones on the way.
Then the rows of kind `executed` are those of the `executed` events, and no two of these share a
row. -/
theorem enumerates_executed [DecidableEq Address] [DecidableEq Hash]
    {H : Host Address Hash World Op} (hkey : H.KeysInjective) (W : Wire Address) (sdk : Sdk)
    {w : World} {txs : List (String × Step Address Hash Op)} (hhashes : (txs.map Prod.fst).Nodup)
    {stream : List EventResponse}
    (hstream : List.Forall₂ (CarriesTx W) stream (transcript H (.deployed Address Hash w) txs))
    {deliveries : List (ℕ × EventResponse)}
    (hdelivered : Redelivery stream (deliveries.map Prod.snd) stream.length) :
    Enumerates ((transcript H (.deployed Address Hash w) txs).filterMap (executedKey W))
      {key | key.eventType = .executed ∧ ((index sdk .empty deliveries).payments key).isSome} where
  nodup := nodup_executedKeys hkey (sound_deployed w) W hhashes
  mem_iff key := by
    have hempty : ¬ (Tables.empty.payments key).isSome := by simp [Tables.empty]
    rw [Set.mem_ofPred_eq, isSome_payments_index, or_iff_right hempty, List.mem_filterMap]
    constructor
    · rintro ⟨entry, hentry, hkeyOf⟩
      have hkind : key.eventType = .executed := by
        obtain ⟨pair, -, rfl⟩ := Option.map_eq_some_iff.1 hkeyOf
        rfl
      obtain ⟨raw, hraw, hcarries⟩ := exists_of_mem_of_forall₂ hstream.flip hentry
      obtain ⟨delivery, hdelivery, rfl⟩ := List.mem_map.1 (hdelivered.mem_iff.2 hraw)
      exact ⟨hkind, delivery, hdelivery, (hcarries.recorded_iff hkind).2 hkeyOf⟩
    · rintro ⟨hkind, delivery, hdelivery, hrecorded⟩
      have hraw := hdelivered.mem_iff.1 (List.mem_map_of_mem hdelivery)
      obtain ⟨entry, hentry, hcarries⟩ := exists_of_mem_of_forall₂ hstream hraw
      exact ⟨entry, hentry, (hcarries.recorded_iff hkind).1 hrecorded⟩

/-- A batch that lists its subscriber twice. -/
def sampleListedTwice : List (String × Step UInt8 (List UInt8) (External UInt8)) :=
  [("a", sampleStep 1 (.subscribe 1 2 9 100 86400 false none)),
    ("b", sampleStep 86401 (.batchExecutePayment 2 9 [1, 1]))]

/-- An event of a transaction of the sample. -/
def sampleReceived (ledger : ℕ) (entry : String × Event UInt8) : EventResponse :=
  { sampleResponse entry.1 ledger entry.2 with txHash := some entry.1 }

/-- The last two of the four events are delivered twice. -/
theorem enumerates_executed_sample :
    let stream := (transcript sampleHost sampleStart sampleListedTwice).map (sampleReceived 1)
    let deliveries := (stream ++ stream.drop 2).map (Prod.mk 0)
    Enumerates [⟨"b", .executed, sampleWire.text 1, sampleWire.text 2⟩]
      {key | key.eventType = .executed ∧
        ((index sampleSdk .empty deliveries).payments key).isSome} := by
  intro stream deliveries
  have hstream : List.Forall₂ (CarriesTx sampleWire) stream
      (transcript sampleHost sampleStart sampleListedTwice) :=
    List.forall₂_map_left_iff.2 (List.forall₂_same.2 fun _ _ => ⟨⟨rfl, rfl⟩, rfl⟩)
  have hfirst : Redelivery stream (stream.take 4) 4 :=
    .deliver (.deliver (.deliver (.deliver .start (Nat.le_refl 0) rfl) (Nat.le_refl 1) rfl)
      (Nat.le_refl 2) rfl) (Nat.le_refl 3) rfl
  have hagain : Redelivery stream (deliveries.map Prod.snd) 4 :=
    .deliver (.deliver hfirst (q := 2) (by decide) rfl) (Nat.le_refl 3) rfl
  have hhashes : (sampleListedTwice.map Prod.fst).Nodup := by decide
  exact enumerates_executed sampleHost_keysInjective sampleWire sampleSdk hhashes hstream hagain

end SorobanPay
