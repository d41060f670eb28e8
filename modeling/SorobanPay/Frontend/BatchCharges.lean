import SorobanPay.Frontend.BatchReport
import SorobanPay.Payments.OneCharge
import SorobanPay.Tokens.Ledger

/-!
# Whom a batch is reported to have charged

The transaction of a group invokes the contract, and its simulation returns the outcomes, one for
each entry of the group. The submission makes a map of them, so that only the last outcome of a
subscriber counts. The contract however charges a subscriber that is listed more than once at the
first entry that is due, and skips it afterwards.

## Main definitions

* `GroupCall`: an invocation of the contract for a group.
* `Executed`: a transaction is confirmed with the outcomes that were simulated.
* `ChargesReported`: success is reported for the entries whose subscribers are charged.
* `NotListedAgain`: no subscriber is listed after its charge.

## Main results

* `executedPairs_publishedBy_batch`: the charges of a batch.
* `get_outcome_iff`: what is reported for a subscriber.
* `batch_report_iff`: when the report of a batch is right.
-/

set_option autoImplicit false

namespace SorobanPay.Frontend

open Foundation

variable {N Address Hash World Op : Type} {J : JsNumber N} {legacyRpc : ℕ → SubmitRpc N}
  {groupRpc : String → SubmitRpc N} {entries : List BatchPaymentEntry}

/-! ### Outcomes -/

/-- The value that the contract returns, as the SDK converts it. -/
def outcomesValue (outcomes : List (String × Bool)) : Native N :=
  .array (outcomes.map fun o => .array [.string o.1, .boolean o.2])

theorem decodeBatchOutcomes_value {outcomes : List (String × Bool)} (h : ∀ o ∈ outcomes, o.1 ≠ "") :
    decodeBatchOutcomes J (some (some (outcomesValue outcomes))) = outcomes := by
  have hpairs : (outcomes.map fun o => (Native.array [.string o.1, .boolean o.2] : Native N)).mapM
      (decodePair J) = some outcomes := by
    induction outcomes with
    | nil => rfl
    | cons o outcomes ih =>
      rw [List.map_cons, List.mapM_cons, ih fun o' ho' => h o' (List.mem_cons_of_mem _ ho')]
      rfl
  rw [outcomesValue, decodeBatchOutcomes, hpairs, Option.getD_some]
  exact List.filter_eq_self.2 fun o ho => by simp [h o ho]

/-- The outcomes that come with the hash are those of the simulation. -/
theorem outcomes_of_batchOutcome {rpc : SubmitRpc N} {hash : TxId} {outcomes : List (String × Bool)}
    {retval : Option (Option (Native N))} (hsim : rpc.simulation = .ok (.ok retval))
    (h : batchOutcome J rpc = .ok (hash, outcomes)) : outcomes = decodeBatchOutcomes J retval := by
  unfold batchOutcome at h
  simp only [hsim, bind, Except.bind, pure, Except.pure] at h
  repeat' split at h
  all_goals cases h
  rfl

/-- An outcome is what the map says if the subscriber is charged in it and not listed again. -/
theorem get_outcome_iff {text : Address → String} (htext : Function.Injective text)
    {results : List (Address × Bool)} {s : Address} :
    ((InsertionMap.ofList (results.map fun r => (text r.1, r.2))).get (text s)).getD false = true ↔
      ∃ pre post, results = pre ++ (s, true) :: post ∧ ∀ r ∈ post, r.1 ≠ s := by
  have hget : ∀ o : Option Bool, o.getD false = true ↔ o = some true := by
    rintro (_ | charged)
    · simp
    · simp
  rw [hget, InsertionMap.get_ofList_eq_some_iff]
  constructor
  · rintro ⟨_, _, hsplit, hpost⟩
    obtain ⟨pre, rest, rfl, rfl, hrest⟩ := List.map_eq_append_iff.1 hsplit
    obtain ⟨⟨s', charged⟩, post, rfl, hpair, rfl⟩ := List.map_eq_cons_iff.1 hrest
    obtain ⟨hs, rfl⟩ := Prod.mk.inj hpair
    obtain rfl := htext hs
    exact ⟨pre, post, rfl, fun r hr heq => hpost _ (List.mem_map_of_mem hr) (congrArg text heq)⟩
  · rintro ⟨pre, post, rfl, hpost⟩
    refine ⟨_, _, List.map_append, fun p hp heq => ?_⟩
    obtain ⟨r, hr, rfl⟩ := List.mem_map.1 hp
    exact hpost r hr (htext heq)

/-- No subscriber is listed again after its charge. -/
def NotListedAgain (results : List (Address × Bool)) : Prop :=
  results.Pairwise fun r r' => r.2 = true → r'.1 ≠ r.1

/-- Where no subscriber is charged twice, its charge is its last outcome if and only if it is not
listed again. -/
theorem notListedAgain_iff {results : List (Address × Bool)} (hnodup : (charges results).Nodup) :
    NotListedAgain results ↔
      ∀ s, (s, true) ∈ results →
        ∃ pre post, results = pre ++ (s, true) :: post ∧ ∀ r ∈ post, r.1 ≠ s := by
  induction results with
  | nil => simp [NotListedAgain]
  | cons r rest ih =>
    have hcons : charges (r :: rest) = (if r.2 then [r.1] else []) ++ charges rest := by
      rw [charges, List.filterMap_cons]
      cases r.2 <;> rfl
    rw [hcons, List.nodup_append] at hnodup
    obtain ⟨-, hrest, hdisjoint⟩ := hnodup
    have hnew : ∀ s, r = (s, true) → (s, true) ∉ rest := by
      rintro s rfl hmem
      exact hdisjoint s (by simp) s (List.mem_filterMap.2 ⟨_, hmem, rfl⟩) rfl
    rw [NotListedAgain, List.pairwise_cons, ← NotListedAgain, ih hrest]
    constructor
    · rintro ⟨hfirst, hlast⟩ s hs
      rcases List.mem_cons.1 hs with rfl | hs
      · exact ⟨[], rest, rfl, fun r' hr' => hfirst r' hr' rfl⟩
      · obtain ⟨pre, post, rfl, hpost⟩ := hlast s hs
        exact ⟨r :: pre, post, rfl, hpost⟩
    · intro h
      refine ⟨fun r' hr' hr => ?_, fun s hs => ?_⟩
      · obtain ⟨s, charged⟩ := r
        obtain rfl : charged = true := hr
        obtain ⟨pre, post, hsplit, hpost⟩ := h s List.mem_cons_self
        rcases pre with _ | ⟨r, pre⟩
        · obtain ⟨-, rfl⟩ := List.cons.inj hsplit
          exact hpost r' hr'
        · obtain ⟨-, rfl⟩ := List.cons.inj hsplit
          exact (hnew s rfl (by simp)).elim
      · obtain ⟨pre, post, hsplit, hpost⟩ := h s (List.mem_cons_of_mem _ hs)
        rcases pre with _ | ⟨r, pre⟩
        · obtain ⟨rfl, -⟩ := List.cons.inj hsplit
          exact (hnew s rfl hs).elim
        · obtain ⟨-, rfl⟩ := List.cons.inj hsplit
          exact ⟨pre, post, rfl, hpost⟩

/-! ### Transactions of groups -/

/-- An invocation of the contract for a group, in a state, with what it returns. -/
structure GroupCall (Address Hash World : Type) where
  env : Env Address
  merchant : Address
  token : Address
  subscribers : List Address
  state : State Address Hash World
  results : List (Address × Bool)

variable [DecidableEq Address] [DecidableEq Hash] {H : Host Address Hash World Op}
  {text : Address → String} {rpc : SubmitRpc N} {call : GroupCall Address Hash World}
  {calls : String → GroupCall Address Hash World}

/-- The contract charges a subscriber in the invocation. -/
def GroupCall.Charges (H : Host Address Hash World Op) (call : GroupCall Address Hash World)
    (s : Address) : Prop :=
  (s, call.merchant) ∈ executedPairs (publishedBy H call.state
    (batchStep Op Hash call.env call.merchant call.token call.subscribers))

/-- The transaction for a group is this invocation, and what it returns has been simulated. -/
structure Executed (H : Host Address Hash World Op) (text : Address → String)
    (group : List Numbered) (rpc : SubmitRpc N) (call : GroupCall Address Hash World) : Prop where
  reachable : Reachable H call.state
  returns : ∃ σ', (batchExecutePayment H call.env call.merchant call.token call.subscribers).Returns
    call.state call.results σ'
  merchant : ∀ e ∈ group, e.1.merchant = text call.merchant
  token : ∀ e ∈ group, e.1.token = some (text call.token)
  subscribers : (group.map fun e => e.1.subscriber) = call.subscribers.map text
  simulation : rpc.simulation =
    .ok (.ok (some (some (outcomesValue (call.results.map fun r => (text r.1, r.2))))))

/-- The transaction of a group is confirmed. -/
def Confirmed (J : JsNumber N) (rpc : SubmitRpc N) : Prop :=
  ∃ reply, batchOutcome J rpc = .ok reply

/-- In the groups whose transactions are confirmed, success is reported for an entry if and only if
its subscriber is charged. -/
def ChargesReported (J : JsNumber N) (H : Host Address Hash World Op) (text : Address → String)
    (groupRpc : String → SubmitRpc N) (calls : String → GroupCall Address Hash World)
    (entries : List BatchPaymentEntry) (report : BatchReport) : Prop :=
  ∀ key group, (key, group) ∈ (atomicGroups entries).entries → Confirmed J (groupRpc key) →
    ∀ e ∈ group, ∀ r ∈ report.results, r.position = e.2 →
      (r.txHash.isSome ↔ ∃ s, text s = e.1.subscriber ∧ (calls key).Charges H s)

/-- What the contract returns tells whom it charges. -/
theorem Executed.charges_iff {group : List Numbered} (hkey : H.KeysInjective)
    (h : Executed H text group rpc call) (s : Address) :
    call.Charges H s ↔ (s, true) ∈ call.results := by
  obtain ⟨σ', hreturns⟩ := h.returns
  rw [GroupCall.Charges, executedPairs_publishedBy hkey (h.reachable.sound hkey),
    executedPairs_microSteps_batch hreturns,
    List.mem_map_of_injective fun _ _ h => (Prod.mk.inj h).1, charges, List.mem_filterMap]
  constructor
  · rintro ⟨⟨s', charged⟩, hr, hs⟩
    cases charged with
    | false => cases hs
    | true => exact Option.some.inj hs ▸ hr
  · exact fun hs => ⟨_, hs, rfl⟩

theorem Executed.map_fst {group : List Numbered} (h : Executed H text group rpc call) :
    call.results.map Prod.fst = call.subscribers := by
  obtain ⟨σ', hreturns⟩ := h.returns
  exact map_fst_results (returns_batchExecutePayment.1 hreturns).2.2.2.2

/-- What is reported for an entry of a group that is confirmed. -/
theorem isSome_groupResult {group : List Numbered} (h : Executed H text group rpc call)
    (htext : Function.Injective text) (hconfirmed : Confirmed J rpc) {e : Numbered} {s : Address}
    (hs : text s = e.1.subscriber) (hvalid : ∀ r ∈ call.results, text r.1 ≠ "") :
    (groupResult J rpc e).txHash.isSome ↔
      ∃ pre post, call.results = pre ++ (s, true) :: post ∧ ∀ r ∈ post, r.1 ≠ s := by
  obtain ⟨⟨hash, outcomes⟩, hreply⟩ := hconfirmed
  have houtcomes := outcomes_of_batchOutcome h.simulation hreply
  rw [decodeBatchOutcomes_value fun o ho => ?_] at houtcomes
  swap
  · obtain ⟨r, hr, rfl⟩ := List.mem_map.1 ho
    exact hvalid r hr
  rw [groupResult, hreply, ← get_outcome_iff htext, hs, ← houtcomes]
  dsimp only
  split_ifs with hcharged
  · simp [succeeded, hcharged]
  · simp [failed, hcharged]

/-- The reports of a group are right if and only if no subscriber is listed after its charge. -/
theorem chargesReported_group_iff {group : List Numbered} (hkey : H.KeysInjective)
    (h : Executed H text group rpc call) (htext : Function.Injective text)
    (hconfirmed : Confirmed J rpc) (hvalid : ∀ e ∈ group, e.1.subscriber ≠ "") :
    (∀ e ∈ group, ((groupResult J rpc e).txHash.isSome ↔
        ∃ s, text s = e.1.subscriber ∧ call.Charges H s)) ↔ NotListedAgain call.results := by
  obtain ⟨σ', hreturns⟩ := h.returns
  have hsubscriber : ∀ r ∈ call.results, ∃ e ∈ group, e.1.subscriber = text r.1 := by
    intro r hr
    have hmem : text r.1 ∈ group.map fun e => e.1.subscriber := by
      rw [h.subscribers, ← h.map_fst]
      exact List.mem_map_of_mem (List.mem_map_of_mem hr)
    exact List.mem_map.1 hmem
  have hreported : ∀ e ∈ group, ∀ s, text s = e.1.subscriber →
      ((groupResult J rpc e).txHash.isSome ↔
        ∃ pre post, call.results = pre ++ (s, true) :: post ∧ ∀ r ∈ post, r.1 ≠ s) := by
    refine fun e he s hs => isSome_groupResult h htext hconfirmed hs fun r hr => ?_
    obtain ⟨e', he', heq⟩ := hsubscriber r hr
    exact heq ▸ hvalid e' he'
  rw [notListedAgain_iff (nodup_charges_batch hkey (h.reachable.sound hkey) hreturns)]
  constructor
  · intro hall s hs
    obtain ⟨e, he, heq⟩ := hsubscriber _ hs
    exact (hreported e he s heq.symm).1 ((hall e he).2 ⟨s, heq.symm, (h.charges_iff hkey s).2 hs⟩)
  · intro hlast e he
    constructor
    · intro hsome
      have hmem : e.1.subscriber ∈ call.subscribers.map text :=
        h.subscribers ▸ List.mem_map_of_mem he
      obtain ⟨s, -, hs⟩ := List.mem_map.1 hmem
      obtain ⟨pre, post, hsplit, -⟩ := (hreported e he s hs).1 hsome
      exact ⟨s, hs, (h.charges_iff hkey s).2 (by simp [hsplit])⟩
    · rintro ⟨s, hs, hcharged⟩
      exact (hreported e he s hs).2 (hlast s ((h.charges_iff hkey s).1 hcharged))

/-- The report of a batch is right: one result for each entry, in their order, each counted, and
success where the contract has charged. -/
structure ReportsChain (J : JsNumber N) (H : Host Address Hash World Op) (text : Address → String)
    (groupRpc : String → SubmitRpc N) (calls : String → GroupCall Address Hash World)
    (entries : List BatchPaymentEntry) (report : BatchReport) : Prop where
  inputOrder : InputOrder entries report
  allCounted : AllCounted entries report
  chargesReported : ChargesReported J H text groupRpc calls entries report

theorem chargesReported_iff (hkey : H.KeysInjective) (htext : Function.Injective text)
    (hexecuted : ∀ key group, (key, group) ∈ (atomicGroups entries).entries →
      Confirmed J (groupRpc key) → Executed H text group (groupRpc key) (calls key)) :
    ChargesReported J H text groupRpc calls entries
        (buildAndSubmitBatchExecutePayment J legacyRpc groupRpc entries) ↔
      ∀ key group, (key, group) ∈ (atomicGroups entries).entries → Confirmed J (groupRpc key) →
        NotListedAgain (calls key).results := by
  refine forall_congr' fun key => forall_congr' fun group => forall_congr' fun hgroup =>
    forall_congr' fun hconfirmed => ?_
  have hvalid : ∀ e ∈ group, e.1.subscriber ≠ "" := fun e he =>
    subscriber_ne_empty ((mem_group_iff hgroup).1 he).2
  rw [← chargesReported_group_iff hkey (hexecuted key group hgroup hconfirmed) htext hconfirmed
    hvalid]
  refine forall_congr' fun e => forall_congr' fun he => ?_
  obtain ⟨hentry, hatomic⟩ := (mem_group_iff hgroup).1 he
  have hresult : resultFor J legacyRpc groupRpc e = some (groupResult J (groupRpc key) e) := by
    rw [resultFor, hatomic]
  constructor
  · intro h
    exact h _ (mem_results_iff.2 ⟨e, hentry, hresult⟩) (isFor_groupResult _ e).position
  · intro h r hr hposition
    rw [resultFor_of_position hentry hr hposition, Option.some_inj] at hresult
    rwa [hresult]

/-- **When the report of a batch is right.** Where what is simulated is what is executed, the report
is right if and only if the entries without a group come first and those of a group together, no
transaction fails with an empty message, and no subscriber that is charged is listed again. -/
theorem batch_report_iff (hkey : H.KeysInjective) (htext : Function.Injective text)
    (hexecuted : ∀ key group, (key, group) ∈ (atomicGroups entries).entries →
      Confirmed J (groupRpc key) → Executed H text group (groupRpc key) (calls key)) :
    ReportsChain J H text groupRpc calls entries
        (buildAndSubmitBatchExecutePayment J legacyRpc groupRpc entries) ↔
      GroupsTogether entries ∧ NoEmptyMessage J legacyRpc groupRpc entries ∧
        ∀ key group, (key, group) ∈ (atomicGroups entries).entries → Confirmed J (groupRpc key) →
          NotListedAgain (calls key).results := by
  rw [← chargesReported_iff hkey htext hexecuted, ← allCounted_iff, ← inputOrder_iff]
  exact ⟨fun h => ⟨h.inputOrder, h.allCounted, h.chargesReported⟩,
    fun ⟨horder, hcounted, hcharges⟩ => ⟨horder, hcounted, hcharges⟩⟩

/-! ### A sample -/

/-- Addresses in letters: two digits, after `C` for the token 9 and after `G` for the others. -/
def sampleChars (a : UInt8) : List Char :=
  (if a = 9 then 'C' else 'G') :: Char.ofNat (65 + a.toNat / 16) ::
    Char.ofNat (65 + a.toNat % 16) :: List.replicate 53 'A'

def sampleText (a : UInt8) : String := String.ofList (sampleChars a)

theorem sampleText_injective : Function.Injective sampleText := by
  intro a b h
  obtain ⟨-, hhigh, hlow⟩ : _ ∧ Char.ofNat (65 + a.toNat / 16) = Char.ofNat (65 + b.toNat / 16) ∧
      Char.ofNat (65 + a.toNat % 16) = Char.ofNat (65 + b.toNat % 16) := by
    simpa [sampleChars] using String.ofList_injective h
  have hdigit : ∀ m < 16, (Char.ofNat (65 + m)).toNat = 65 + m := by decide
  have ha := a.toNat_lt
  have hb := b.toNat_lt
  have hhigh := congrArg Char.toNat hhigh
  have hlow := congrArg Char.toNat hlow
  rw [hdigit _ (by omega), hdigit _ (by omega)] at hhigh hlow
  exact UInt8.toNat_inj.1 (by omega)

theorem assertValidGAddress_sampleText {a : UInt8} (ha : a = 1 ∨ a = 2) (label : String) :
    assertValidGAddress (sampleText a) label = .ok (sampleText a) := by
  have hchars : WebhookNotifier.trim (sampleChars a) = sampleChars a ∧
      isValidAddress 'G' (sampleText a) = true := by
    rw [isValidAddress, sampleText, String.toList_ofList]
    rcases ha with rfl | rfl <;> decide
  rw [assertValidGAddress, sampleText, String.toList_ofList, hchars.1]
  exact if_pos hchars.2

theorem assertValidCAddress_sampleText (label : String) :
    assertValidCAddress (sampleText 9) label = .ok (sampleText 9) := by
  have hchars : WebhookNotifier.trim (sampleChars 9) = sampleChars 9 ∧
      isValidAddress 'C' (sampleText 9) = true := by
    rw [isValidAddress, sampleText, String.toList_ofList]
    decide
  rw [assertValidCAddress, sampleText, String.toList_ofList, hchars.1]
  exact if_pos hchars.2

/-- The entry for the subscription of `sampleSubscribed`. -/
def sampleEntry : BatchPaymentEntry := ⟨sampleText 1, sampleText 2, some (sampleText 9)⟩

theorem atomicKey_sampleEntry :
    atomicKey sampleEntry = some (sampleText 2 ++ "\x00" ++ sampleText 9) := by
  have htoken : sampleEntry.token.filter (· ≠ "") = some (sampleText 9) := by
    simp [sampleEntry, sampleText, sampleChars]
  exact atomicKey_of_valid (assertValidGAddress_sampleText (.inl rfl) "subscriber")
    (assertValidGAddress_sampleText (.inr rfl) "merchant") htoken
    (assertValidCAddress_sampleText "token")

/-- The subscriber is listed twice when its payment is due. -/
abbrev sampleCall : GroupCall UInt8 (List UInt8) (TokenLedger UInt8) where
  env := sampleEnv 86401
  merchant := 2
  token := 9
  subscribers := [1, 1]
  state := sampleSubscribed
  results := [(1, true), (1, false)]

/-- Nothing fails, and this is what is simulated. -/
def sampleRpc (outcomes : List (String × Bool)) : SubmitRpc ℤ where
  account := .ok ()
  build := .ok ()
  simulation := .ok (.ok (some (some (outcomesValue outcomes))))
  prepared := .ok ()
  signed := .ok ()
  sent := .ok (.ok ⟨"hash", by decide⟩)
  confirmed := .ok ()

abbrev sampleGroupRpc : SubmitRpc ℤ := sampleRpc [(sampleText 1, true), (sampleText 1, false)]

/-- The sample has one group, of both entries. -/
theorem mem_atomicGroups_sample {key : String} {group : List Numbered}
    (h : (key, group) ∈ (atomicGroups [sampleEntry, sampleEntry]).entries) :
    group = [(sampleEntry, 0), (sampleEntry, 1)] := by
  obtain ⟨hgroup, hne⟩ := InsertionMap.eq_of_mem_group h
  have hkeyed : ∀ k, atomicKey sampleEntry = some k →
      keyed [sampleEntry, sampleEntry].zipIdx = [(k, (sampleEntry, 0)), (k, (sampleEntry, 1))] := by
    intro k hk
    simp [keyed, hk]
  rw [hkeyed _ atomicKey_sampleEntry] at hgroup
  by_cases hkey : sampleText 2 ++ "\x00" ++ sampleText 9 = key
  · simpa [hkey] using hgroup
  · simp [hkey] at hgroup
    exact (hne hgroup).elim

theorem executed_sample (key : String) (group : List Numbered)
    (h : (key, group) ∈ (atomicGroups [sampleEntry, sampleEntry]).entries) :
    Executed sampleHost sampleText group sampleGroupRpc sampleCall := by
  obtain rfl := mem_atomicGroups_sample h
  have hmem : ∀ e ∈ [(sampleEntry, 0), (sampleEntry, 1)], e.1 = sampleEntry := by simp
  exact {
    reachable := ⟨_, _, rfl⟩
    returns := ⟨_, rfl⟩
    merchant := fun e he => by rw [hmem e he]; rfl
    token := fun e he => by rw [hmem e he]; rfl
    subscribers := rfl
    simulation := rfl }

/-- The subscriber is charged, and both of its entries are reported as skipped. -/
theorem skipped_though_charged :
    Function.Injective sampleText ∧
      (∀ key group, (key, group) ∈ (atomicGroups [sampleEntry, sampleEntry]).entries →
        Executed sampleHost sampleText group sampleGroupRpc sampleCall) ∧
      ¬ ReportsChain sampleNumber sampleHost sampleText (fun _ => sampleGroupRpc)
          (fun _ => sampleCall) [sampleEntry, sampleEntry]
          (buildAndSubmitBatchExecutePayment sampleNumber (fun _ => sampleGroupRpc)
            (fun _ => sampleGroupRpc) [sampleEntry, sampleEntry]) := by
  refine ⟨sampleText_injective, executed_sample, fun h => ?_⟩
  have hentry : (sampleEntry, 0) ∈ [sampleEntry, sampleEntry].zipIdx := List.mem_cons_self
  obtain ⟨group, hgroup⟩ := exists_group hentry atomicKey_sampleEntry
  have hnot := (chargesReported_iff sampleHost_keysInjective sampleText_injective
    fun key group h _ => executed_sample key group h).1 h.chargesReported _ group hgroup ⟨_, rfl⟩
  simp [NotListedAgain] at hnot

/-- The report of the sample is right only if no subscriber were listed after its charge. -/
theorem batch_report_sample :
    ReportsChain sampleNumber sampleHost sampleText (fun _ => sampleGroupRpc) (fun _ => sampleCall)
        [sampleEntry, sampleEntry]
        (buildAndSubmitBatchExecutePayment sampleNumber (fun _ => sampleGroupRpc)
          (fun _ => sampleGroupRpc) [sampleEntry, sampleEntry]) ↔
      GroupsTogether [sampleEntry, sampleEntry] ∧
        NoEmptyMessage sampleNumber (fun _ => sampleGroupRpc) (fun _ => sampleGroupRpc)
          [sampleEntry, sampleEntry] ∧
        ∀ key group, (key, group) ∈ (atomicGroups [sampleEntry, sampleEntry]).entries →
          Confirmed sampleNumber sampleGroupRpc → NotListedAgain sampleCall.results :=
  batch_report_iff sampleHost_keysInjective sampleText_injective fun key group h _ =>
    executed_sample key group h

end SorobanPay.Frontend
