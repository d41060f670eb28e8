import SorobanPay.Backend.EventIndexer

/-!
# The status that the event indexer keeps

The event indexer applies the events of a subscription one by one to the status in its row. The
state machine says what the status should be: `foldStatus` of the state machine's events that they
stand for.

`processEvent` returns before it applies an event of a type that is not stored, so that a
cancellation and a payment that fails never reach the status. `status_fold_iff` says for which
histories of a subscription the status is right all the same: for those whose last event is a
subscription, or a payment with no cancellation since the last subscription.

## Main definitions

* `Event.StandsFor`, `DeliversFor`: the events of the state machine that the events of a
  subscription stand for.
* `indexedStatus`: the status of a subscription in the database.

## Main results

* `applyRow_status`: the state service does to the status what the state machine says.
* `indexedStatus_foldl`: the status that the indexer keeps is that of the events it stores.
* `status_fold_iff`: when it is the status that the state machine says.
-/

set_option autoImplicit false

namespace SorobanPay

open Foundation

/-! ### Histories of a subscription -/

section Histories

variable {Address : Type}

/-- The event of the state machine that an event of the subscription of `s` with `m` stands for. -/
inductive Event.StandsFor (s m : Address) : Event Address → SubscriptionEventType → Prop
  | subscribe (token : Address) (amount : ℤ) :
      StandsFor s m (.subscribe s m token amount) .subscribe
  | executed (token : Address) (amount : ℤ) (nonce : ℕ) :
      StandsFor s m (.executed s m token amount nonce) .executed
  | paymentTransferFailure (amount : ℤ) (overdueSince : ℕ) :
      StandsFor s m (.paymentTransferFailure s m amount overdueSince) .paymentTransferFailure
  | cancel (reason : ℕ) : StandsFor s m (.cancel s m reason) .cancel

/-- The RPC returns `raw` for an event of the subscription that stands for `e`. -/
def DeliversFor (W : Wire Address) (s m : Address) (raw : EventResponse)
    (e : SubscriptionEventType) : Prop :=
  ∃ event, Carries W raw event ∧ event.StandsFor s m e

end Histories

namespace EventIndexer

/-- The text of an address. -/
def SdkTexts.text {Address : Type} (sdk : SdkTexts) (W : Wire Address) (a : Address) : String :=
  sdk.addressText (W.toScAddress a)

/-! ### One event -/

/-- The status of a subscription in the database. -/
def indexedStatus (db : Db) (subscriber merchant : String) : Option SubscriptionState :=
  (db.subscriptions subscriber merchant).map (·.status)

/-- **The state service follows the state machine.** -/
theorem applyRow_status (row : Option StatusRow) (eventType : SubscriptionEventType)
    (data : EventData) :
    (applyRow row eventType data).map (·.status) = statusStep (row.map (·.status)) eventType := by
  rw [applyRow, statusStep]
  cases transition ((row.map (·.status)).getD .active) eventType <;> cases row <;> rfl

/-- The events that are stored. -/
def Kept (e : SubscriptionEventType) : Prop := e = .subscribe ∨ e = .executed

instance : DecidablePred Kept := fun e => inferInstanceAs (Decidable (e = _ ∨ e = _))

section Events

variable {Address : Type} {W : Wire Address} {sdk : SdkTexts} {s m : Address}
  {raw : EventResponse} {e : SubscriptionEventType}

theorem present_of_ne {text : String} (h : text ≠ "") : present (some text) = some text := by
  simp [present, h]

/-- What is taken to the database of an event of the subscription. -/
theorem toStored_of_deliversFor (hs : sdk.text W s ≠ "")
    (hm : sdk.text W m ≠ "") (h : DeliversFor W s m raw e) :
    (Kept e → ∃ stored, toStored sdk raw = some stored ∧
      stored.subscriber = sdk.text W s ∧
      stored.merchant = sdk.text W m ∧
      stateMachineEvent stored.eventType = e) ∧
    (¬ Kept e → toStored sdk raw = none) := by
  obtain ⟨event, ⟨htopic, -⟩, hstands⟩ := h
  have hs' : present (some (sdk.addressText (W.toScAddress s))) = some (sdk.text W s) :=
    present_of_ne hs
  have hm' : present (some (sdk.addressText (W.toScAddress m))) = some (sdk.text W m) :=
    present_of_ne hm
  cases hstands with
  | subscribe | executed =>
    refine ⟨fun _ => ?_, fun hkept => absurd hkept (by decide)⟩
    simp [toStored, decodeFields, htopic, Event.topics, scValToSymbol, scValToAddress,
      EventType.ofName, hs', hm', storedEventTypes, stateMachineEvent]
  | paymentTransferFailure | cancel =>
    refine ⟨fun hkept => absurd hkept (by decide), fun _ => ?_⟩
    simp [toStored, decodeFields, htopic, Event.topics, scValToSymbol, EventType.ofName,
      storedEventTypes]

theorem indexedStatus_processEvent (hs : sdk.text W s ≠ "")
    (hm : sdk.text W m ≠ "") (h : DeliversFor W s m raw e) (db : Db) :
    indexedStatus (processEvent sdk noFailures db raw) (sdk.text W s) (sdk.text W m) =
      let status := indexedStatus db (sdk.text W s) (sdk.text W m)
      if Kept e then statusStep status e else status := by
  obtain ⟨hkept, hdropped⟩ := toStored_of_deliversFor hs hm h
  by_cases hkeep : Kept e
  · obtain ⟨stored, hstored, hsubscriber, hmerchant, heq⟩ := hkept hkeep
    simp only [indexedStatus, processEvent_subscriptions, hstored, Option.elim_some, if_pos hkeep]
    rw [if_pos ⟨hsubscriber.symm, hmerchant.symm⟩, StoredEvent.applyTo, applyRow_status, heq]
  · simp only [indexedStatus, processEvent_subscriptions, hdropped hkeep, Option.elim_none,
      if_neg hkeep]

end Events

/-! ### Histories -/

section Histories

variable {Address : Type} {W : Wire Address} {sdk : SdkTexts} {s m : Address}
  {raws : List EventResponse} {es : List SubscriptionEventType}

/-- The status that the indexer keeps is that of the events it stores. -/
theorem indexedStatus_foldl (hs : sdk.text W s ≠ "")
    (hm : sdk.text W m ≠ "") (h : List.Forall₂ (DeliversFor W s m) raws es)
    (db : Db) :
    indexedStatus (raws.foldl (processEvent sdk noFailures) db) (sdk.text W s) (sdk.text W m) =
      (es.filter Kept).foldl statusStep (indexedStatus db (sdk.text W s) (sdk.text W m)) := by
  induction h generalizing db with
  | nil => rfl
  | @cons raw e raws es hraw _ ih =>
    rw [List.foldl_cons, ih, indexedStatus_processEvent hs hm hraw]
    by_cases hkeep : Kept e <;> simp [hkeep]

/-- A history of stored events leaves the status `ACTIVE`. -/
theorem foldStatus_of_kept (hes : es ≠ []) (hkept : ∀ e ∈ es, Kept e) :
    foldStatus es = some .active := by
  obtain ⟨pre, e, rfl⟩ := (List.eq_nil_or_concat' es).resolve_left hes
  rw [foldStatus_eq_active_iff]
  refine ⟨pre, e, rfl, (hkept e (by simp)).imp_right fun he => ⟨he, ?_⟩⟩
  rintro ⟨before, ending, later, rfl, hends, -⟩
  have hending : Kept ending := hkept ending (by simp)
  rcases hends with rfl | rfl <;> exact absurd hending (by decide)

/-- The stored events of a history make the status that the history makes exactly if there is no
event, or the last one is a subscription, or a payment with no cancellation after the last
subscription before it. -/
theorem foldStatus_filter_kept_iff (es : List SubscriptionEventType) :
    foldStatus (es.filter Kept) = foldStatus es ↔
      es = [] ∨ ∃ pre e, es = pre ++ [e] ∧ (e = .subscribe ∨
        e = .executed ∧ ¬ Raised SubscriptionEventType.Ends (· = .subscribe) pre) := by
  rw [← foldStatus_eq_active_iff, ← foldStatus_eq_none_iff]
  have hkept : ∀ e ∈ es.filter Kept, Kept e := fun e he => by simpa using List.of_mem_filter he
  by_cases hnil : es.filter Kept = []
  · -- nothing is stored, and a status that the machine gives is not `ACTIVE`
    rw [hnil]
    have hinactive : foldStatus es ≠ some .active := by
      intro hactive
      obtain ⟨pre, e, rfl, hlast⟩ := foldStatus_eq_active_iff.1 hactive
      have he : Kept e := hlast.imp_right And.left
      simp [List.filter_append, he] at hnil
    constructor
    · exact fun heq => .inl (heq.symm.trans rfl)
    · exact fun hstatus => (hstatus.resolve_right hinactive).symm
  · rw [foldStatus_of_kept hnil hkept]
    have hes : foldStatus es ≠ none := fun hnone => hnil (by simp [foldStatus_eq_none_iff.1 hnone])
    constructor
    · exact fun heq => .inr heq.symm
    · exact fun hstatus => (hstatus.resolve_left hes).symm

/-- **When the status is that of the state machine.** After the events of a subscription, from no
subscription, the status in the database is the one that the state machine says exactly if there
are no events, or the last one is a subscription, or a payment with no cancellation after the last
subscription before it. -/
theorem status_fold_iff (hs : sdk.text W s ≠ "")
    (hm : sdk.text W m ≠ "") (h : List.Forall₂ (DeliversFor W s m) raws es)
    {db : Db} (hdb : db.subscriptions (sdk.text W s) (sdk.text W m) = none) :
    indexedStatus (raws.foldl (processEvent sdk noFailures) db) (sdk.text W s) (sdk.text W m) =
        foldStatus es ↔
      es = [] ∨ ∃ pre e, es = pre ++ [e] ∧ (e = .subscribe ∨
        e = .executed ∧ ¬ Raised SubscriptionEventType.Ends (· = .subscribe) pre) := by
  have hindexed := indexedStatus_foldl hs hm h db
  have hstart : indexedStatus db (sdk.text W s) (sdk.text W m) = none := by
    rw [indexedStatus, hdb, Option.map_none]
  rw [hstart, ← foldStatus] at hindexed
  rw [hindexed, foldStatus_filter_kept_iff]

end Histories

/-- After a cancellation the status is still `ACTIVE`. -/
theorem not_status_fold_cancelled :
    indexedStatus
        ([sampleResponse "1" 10 (.subscribe 1 2 9 100), sampleResponse "2" 20 (.cancel 1 2 1)].foldl
          (processEvent sampleTexts noFailures) .empty)
        (sampleTexts.text sampleWire 1) (sampleTexts.text sampleWire 2) ≠
      foldStatus [.subscribe, .cancel] := by
  decide +kernel

/-- A payment fails and is made up for. -/
theorem status_fold_sample :
    indexedStatus
        ([sampleResponse "1" 10 (.subscribe 1 2 9 100),
          sampleResponse "2" 20 (.paymentTransferFailure 1 2 100 20),
          sampleResponse "3" 30 (.executed 1 2 9 100 1)].foldl
            (processEvent sampleTexts noFailures) .empty)
        (sampleTexts.text sampleWire 1) (sampleTexts.text sampleWire 2) =
      foldStatus [.subscribe, .paymentTransferFailure, .executed] := by
  refine (status_fold_iff (by decide +kernel) (by decide +kernel) ?_ rfl).2 ?_
  · exact .cons ⟨_, ⟨rfl, rfl⟩, .subscribe 9 100⟩ <|
      .cons ⟨_, ⟨rfl, rfl⟩, .paymentTransferFailure 100 20⟩ <|
      .cons ⟨_, ⟨rfl, rfl⟩, .executed 9 100 1⟩ .nil
  · refine .inr ⟨[.subscribe, .paymentTransferFailure], .executed, rfl, .inr ⟨rfl, ?_⟩⟩
    rw [← foldStatus_isTerminal_iff]
    decide

end EventIndexer

end SorobanPay
