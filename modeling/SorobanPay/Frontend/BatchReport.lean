import Mathlib.Data.List.Forall2
import SorobanPay.Frontend.BatchSubmission

/-!
# The results of a batch

The results of a batch are in the order of the entries if and only if the entries without a group
come first and those of a group come together, since the results of the groups are put after the
others, group by group. A result counts as a success by its hash, and as a failure by its error, so
that an entry whose transaction fails with an empty message is not counted.

## Main definitions

* `atomicGroups`, `reordered`: the groups, and the order of the results.
* `IsFor`, `InputOrder`, `AllCounted`: what is expected of the results.
* `GroupsTogether`, `NoEmptyMessage`: when it holds.

## Main results

* `forall₂_results`, `mem_results_iff`: which result is for which entry.
* `inputOrder_iff`: when the results are in order.
* `allCounted_iff`: when every entry is counted.
-/

set_option autoImplicit false

namespace SorobanPay.Frontend

open Foundation

variable {N : Type} {J : JsNumber N} {legacyRpc : ℕ → SubmitRpc N} {groupRpc : String → SubmitRpc N}
  {entries : List BatchPaymentEntry}

/-! ### The order of the results -/

/-- The key of the group that an entry is in. -/
def atomicKey (entry : BatchPaymentEntry) : Option String :=
  match entryKind entry with
  | .atomic groupKey => some groupKey
  | _ => none

theorem entryKind_of_atomicKey {entry : BatchPaymentEntry} {key : String}
    (h : atomicKey entry = some key) : entryKind entry = .atomic key := by
  unfold atomicKey at h
  split at h
  · rename_i hkind
    rw [hkind, Option.some.inj h]
  · cases h

theorem atomicKey_of_valid {entry : BatchPaymentEntry} {subscriber merchant token contract : String}
    (hs : assertValidGAddress entry.subscriber "subscriber" = .ok subscriber)
    (hm : assertValidGAddress entry.merchant "merchant" = .ok merchant)
    (ht : entry.token.filter (· ≠ "") = some token)
    (hc : assertValidCAddress token "token" = .ok contract) :
    atomicKey entry = some (entry.merchant ++ "\x00" ++ token) := by
  have hkind : entryKind entry = .atomic (entry.merchant ++ "\x00" ++ token) := by
    unfold entryKind
    rw [hs, hm, ht]
    simp only [hc]
  rw [atomicKey, hkind]

/-- The entries that are in groups, with their keys. -/
def keyed (es : List Numbered) : List (String × Numbered) :=
  es.filterMap fun e => (atomicKey e.1).map fun key => (key, e)

/-- The groups of a batch. -/
def atomicGroups (entries : List BatchPaymentEntry) : InsertionMap String (List Numbered) :=
  .group (keyed entries.zipIdx)

/-- The entries without a group, and then group after group. -/
def reordered (entries : List BatchPaymentEntry) : List Numbered :=
  (entries.zipIdx.filter fun e => (atomicKey e.1).isNone) ++ (atomicGroups entries).values.flatten

theorem foldl_processEntry (es : List Numbered) :
    es.foldl (processEntry legacyRpc) ([], InsertionMap.empty) =
      (es.filterMap (immediateResult legacyRpc), InsertionMap.group (keyed es)) := by
  induction es using List.reverseRecOn with
  | nil => rfl
  | append_singleton es e ih =>
    have hkeyed : keyed (es ++ [e]) = keyed es ++ keyed [e] := List.filterMap_append
    rw [List.foldl_append, ih, List.foldl_cons, List.foldl_nil, List.filterMap_append, hkeyed]
    cases hkind : entryKind e.1 with
    | invalid message => simp [processEntry, keyed, atomicKey, immediateResult, hkind]
    | legacy =>
      cases hreply : executePaymentOutcome e.1 (legacyRpc e.2) <;>
        simp [processEntry, keyed, atomicKey, immediateResult, hkind, hreply]
    | atomic key =>
      have hone : keyed [e] = [(key, e)] := by simp [keyed, atomicKey, hkind]
      rw [hone, InsertionMap.group_append]
      simp [processEntry, immediateResult, hkind]

/-- The results are those of the entries without a group, and then those of the groups. -/
theorem results_eq : (buildAndSubmitBatchExecutePayment J legacyRpc groupRpc entries).results =
    entries.zipIdx.filterMap (immediateResult legacyRpc) ++
      (atomicGroups entries).entries.flatMap fun group =>
        submitAtomicBatchPayment J (groupRpc group.1) group.2 := by
  unfold buildAndSubmitBatchExecutePayment
  split_ifs with hnil
  · subst hnil
    rfl
  · simp only [foldl_processEntry]
    rfl

/-! ### Results and entries -/

/-- The result is for this entry. -/
structure IsFor (r : EntryResult) (e : Numbered) : Prop where
  position : r.position = e.2
  subscriber : r.subscriber = e.1.subscriber
  merchant : r.merchant = e.1.merchant

theorem isFor_failed (message : String) (e : Numbered) : IsFor (failed e.1.merchant message e) e :=
  ⟨rfl, rfl, rfl⟩

theorem isFor_succeeded (hash : TxId) (e : Numbered) : IsFor (succeeded e.1.merchant hash e) e :=
  ⟨rfl, rfl, rfl⟩

/-- An entry has a result at once, for itself, if it is in no group. -/
theorem immediateResult_cases (legacyRpc : ℕ → SubmitRpc N) (e : Numbered) :
    (∃ key, atomicKey e.1 = some key ∧ immediateResult legacyRpc e = none) ∨
      atomicKey e.1 = none ∧ ∃ r, immediateResult legacyRpc e = some r ∧ IsFor r e := by
  unfold immediateResult atomicKey
  cases entryKind e.1 with
  | invalid message => exact .inr ⟨rfl, _, rfl, isFor_failed _ e⟩
  | legacy =>
    refine .inr ⟨rfl, ?_⟩
    cases executePaymentOutcome e.1 (legacyRpc e.2) with
    | ok hash => exact ⟨_, rfl, isFor_succeeded _ e⟩
    | error message => exact ⟨_, rfl, isFor_failed _ e⟩
  | atomic key => exact .inl ⟨key, rfl, rfl⟩

theorem forall₂_immediate (es : List Numbered) :
    List.Forall₂ IsFor (es.filterMap (immediateResult legacyRpc))
      (es.filter fun e => (atomicKey e.1).isNone) := by
  induction es with
  | nil => exact .nil
  | cons e es ih =>
    rcases immediateResult_cases legacyRpc e with ⟨key, hkey, hnone⟩ | ⟨hkey, r, hr, hfor⟩
    · rw [List.filterMap_cons_none hnone, List.filter_cons_of_neg (by simp [hkey])]
      exact ih
    · rw [List.filterMap_cons_some hr, List.filter_cons_of_pos (by simp [hkey])]
      exact .cons hfor ih

/-- The result of an entry of a group, under its merchant. -/
def groupResult (J : JsNumber N) (rpc : SubmitRpc N) (e : Numbered) : EntryResult :=
  match batchOutcome J rpc with
  | .error message => failed e.1.merchant message e
  | .ok (txHash, outcomes) =>
    if ((InsertionMap.ofList outcomes).get e.1.subscriber).getD false then
      succeeded e.1.merchant txHash e
    else failed e.1.merchant skippedOnChain e

theorem isFor_groupResult (rpc : SubmitRpc N) (e : Numbered) : IsFor (groupResult J rpc e) e := by
  unfold groupResult
  split
  · exact isFor_failed _ e
  · split_ifs
    · exact isFor_succeeded _ e
    · exact isFor_failed _ e

theorem merchant_eq_of_atomicKey {entry entry' : BatchPaymentEntry} {key : String}
    (h : atomicKey entry = some key) (h' : atomicKey entry' = some key) :
    entry.merchant = entry'.merchant :=
  merchant_eq_of_entryKind (entryKind_of_atomicKey h) (entryKind_of_atomicKey h')

/-- The entries of a group. -/
theorem mem_group_iff {key : String} {group : List Numbered}
    (hgroup : (key, group) ∈ (atomicGroups entries).entries) {e : Numbered} :
    e ∈ group ↔ e ∈ entries.zipIdx ∧ atomicKey e.1 = some key := by
  rw [(InsertionMap.eq_of_mem_group hgroup).1]
  simp only [keyed, List.mem_map, List.mem_filter, List.mem_filterMap, Option.map_eq_some_iff,
    decide_eq_true_eq]
  constructor
  · rintro ⟨_, ⟨⟨e', he', key', hkey', rfl⟩, rfl⟩, rfl⟩
    exact ⟨he', hkey'⟩
  · rintro ⟨he, hkey⟩
    exact ⟨(key, e), ⟨⟨e, he, key, hkey, rfl⟩, rfl⟩, rfl⟩

theorem submitAtomicBatchPayment_eq {key : String} {group : List Numbered}
    (hgroup : (key, group) ∈ (atomicGroups entries).entries) (rpc : SubmitRpc N) :
    submitAtomicBatchPayment J rpc group = group.map (groupResult J rpc) := by
  rcases group with _ | ⟨first, rest⟩
  · exact ((InsertionMap.eq_of_mem_group hgroup).2 rfl).elim
  have hmerchant : ∀ e ∈ first :: rest, first.1.merchant = e.1.merchant := fun e he =>
    merchant_eq_of_atomicKey ((mem_group_iff hgroup).1 List.mem_cons_self).2
      ((mem_group_iff hgroup).1 he).2
  unfold submitAtomicBatchPayment
  simp only [List.head?_cons, Option.map_some, Option.getD_some]
  split
  all_goals
    rename_i hreply
    refine List.map_congr_left fun e he => ?_
    rw [groupResult, hreply, hmerchant e he]

/-- Which result is for which entry. -/
theorem forall₂_results :
    List.Forall₂ IsFor (buildAndSubmitBatchExecutePayment J legacyRpc groupRpc entries).results
      (reordered entries) := by
  have hgroups : ∀ l : List (String × List Numbered),
      (∀ g ∈ l, g ∈ (atomicGroups entries).entries) → List.Forall₂ IsFor
        (l.flatMap fun g => submitAtomicBatchPayment J (groupRpc g.1) g.2)
        (l.map Prod.snd).flatten := by
    intro l hl
    induction l with
    | nil => exact .nil
    | cons g l ih =>
      rw [List.flatMap_cons, List.map_cons, List.flatten_cons,
        submitAtomicBatchPayment_eq (hl g List.mem_cons_self)]
      refine List.rel_append ?_ (ih fun g' hg' => hl g' (List.mem_cons_of_mem _ hg'))
      exact List.forall₂_map_left_iff.2 (List.forall₂_same.2 fun e _ => isFor_groupResult _ e)
  rw [results_eq]
  exact List.rel_append (forall₂_immediate _) (hgroups _ fun _ h => h)

/-- The result that an entry has. -/
def resultFor (J : JsNumber N) (legacyRpc : ℕ → SubmitRpc N) (groupRpc : String → SubmitRpc N)
    (e : Numbered) : Option EntryResult :=
  match atomicKey e.1 with
  | none => immediateResult legacyRpc e
  | some key => some (groupResult J (groupRpc key) e)

/-- An entry with a key is in a group. -/
theorem exists_group {e : Numbered} {key : String} (he : e ∈ entries.zipIdx)
    (hkey : atomicKey e.1 = some key) :
    ∃ group, (key, group) ∈ (atomicGroups entries).entries := by
  have hmem : e ∈ ((atomicGroups entries).get key).getD [] := by
    rw [atomicGroups, InsertionMap.get_group_getD, List.mem_map]
    refine ⟨(key, e), List.mem_filter.2 ⟨List.mem_filterMap.2 ⟨e, he, ?_⟩, by simp⟩, rfl⟩
    rw [hkey]
    rfl
  rcases hget : (atomicGroups entries).get key with _ | group
  · rw [hget] at hmem
    cases hmem
  · exact ⟨group, InsertionMap.mem_entries_iff.2 hget⟩

theorem mem_results_iff {r : EntryResult} :
    r ∈ (buildAndSubmitBatchExecutePayment J legacyRpc groupRpc entries).results ↔
      ∃ e ∈ entries.zipIdx, resultFor J legacyRpc groupRpc e = some r := by
  rw [results_eq, List.mem_append, List.mem_filterMap, List.mem_flatMap]
  constructor
  · rintro (⟨e, he, hr⟩ | ⟨⟨key, group⟩, hgroup, hr⟩)
    · refine ⟨e, he, ?_⟩
      rcases immediateResult_cases legacyRpc e with ⟨key, -, hnone⟩ | ⟨hkey, -⟩
      · rw [hnone] at hr
        cases hr
      · rw [resultFor, hkey]
        exact hr
    · rw [submitAtomicBatchPayment_eq hgroup] at hr
      obtain ⟨e, he, rfl⟩ := List.mem_map.1 hr
      obtain ⟨he, hkey⟩ := (mem_group_iff hgroup).1 he
      exact ⟨e, he, by rw [resultFor, hkey]⟩
  · rintro ⟨e, he, hr⟩
    rcases hkey : atomicKey e.1 with _ | key
    · rw [resultFor, hkey] at hr
      exact .inl ⟨e, he, hr⟩
    · rw [resultFor, hkey] at hr
      obtain ⟨group, hgroup⟩ := exists_group he hkey
      refine .inr ⟨(key, group), hgroup, ?_⟩
      rw [submitAtomicBatchPayment_eq hgroup, ← Option.some.inj hr]
      exact List.mem_map_of_mem ((mem_group_iff hgroup).2 ⟨he, hkey⟩)

theorem isFor_of_resultFor {e : Numbered} {r : EntryResult}
    (h : resultFor J legacyRpc groupRpc e = some r) : IsFor r e := by
  unfold resultFor at h
  split at h
  · rename_i hkey
    rcases immediateResult_cases legacyRpc e with ⟨key, hkey', -⟩ | ⟨-, r', hr', hfor⟩
    · rw [hkey] at hkey'
      cases hkey'
    · rw [hr'] at h
      exact Option.some.inj h ▸ hfor
  · exact Option.some.inj h ▸ isFor_groupResult _ e

/-- The position tells the entry. -/
theorem eq_of_position {e e' : Numbered} (he : e ∈ entries.zipIdx) (he' : e' ∈ entries.zipIdx)
    (h : e.2 = e'.2) : e = e' := by
  rw [List.mem_zipIdx_iff_getElem?] at he he'
  rw [h, he'] at he
  exact Prod.ext (Option.some.inj he).symm h

/-- The result at a position is that of the entry at the position. -/
theorem resultFor_of_position {e : Numbered} (he : e ∈ entries.zipIdx) {r : EntryResult}
    (hr : r ∈ (buildAndSubmitBatchExecutePayment J legacyRpc groupRpc entries).results)
    (hposition : r.position = e.2) : resultFor J legacyRpc groupRpc e = some r := by
  obtain ⟨e', he', hresult⟩ := mem_results_iff.1 hr
  have hsame : e'.2 = e.2 := (isFor_of_resultFor hresult).position.symm.trans hposition
  obtain rfl := eq_of_position he' he hsame
  exact hresult

theorem map_snd_keyed (es : List Numbered) :
    (keyed es).map Prod.snd = es.filter fun e => ! (atomicKey e.1).isNone := by
  induction es with
  | nil => rfl
  | cons e es ih =>
    have hcons : keyed (e :: es) =
        ((atomicKey e.1).map fun key => (key, e)).toList ++ keyed es := by
      rw [keyed, List.filterMap_cons]
      cases atomicKey e.1 <;> rfl
    rw [hcons, List.map_append, ih]
    cases hkey : atomicKey e.1 with
    | none => simp [hkey]
    | some key => simp [hkey]

theorem reordered_perm (entries : List BatchPaymentEntry) :
    (reordered entries).Perm entries.zipIdx := by
  have hgroups : (atomicGroups entries).values.flatten.Perm
      (entries.zipIdx.filter fun e => ! (atomicKey e.1).isNone) :=
    map_snd_keyed entries.zipIdx ▸ InsertionMap.perm_flatten_group (keyed entries.zipIdx)
  rw [reordered]
  exact (hgroups.append_left _).trans
    (List.filter_append_perm (fun e : Numbered => (atomicKey e.1).isNone) entries.zipIdx)

theorem subscriber_ne_empty {entry : BatchPaymentEntry} {key : String}
    (h : atomicKey entry = some key) : entry.subscriber ≠ "" := by
  obtain ⟨-, subscriber, -, -, hvalid, -⟩ := exists_of_entryKind_atomic (entryKind_of_atomicKey h)
  intro hempty
  rw [hempty] at hvalid
  cases hvalid

/-! ### Order -/

/-- The results are those of the entries, in their order. -/
def InputOrder (entries : List BatchPaymentEntry) (report : BatchReport) : Prop :=
  List.Forall₂ IsFor report.results entries.zipIdx

/-- The entries without a group come first, and those of a group come together. -/
def GroupsTogether (entries : List BatchPaymentEntry) : Prop :=
  Together (none :: entries.map atomicKey)

theorem map_fst_keyed (es : List Numbered) :
    (keyed es).map Prod.fst = es.filterMap fun e => atomicKey e.1 := by
  rw [keyed, List.map_filterMap]
  refine List.filterMap_congr fun e _ => ?_
  cases atomicKey e.1 <;> rfl

theorem map_atomicKey_groups (entries : List BatchPaymentEntry) :
    ((atomicGroups entries).values.flatten.map fun e => atomicKey e.1) =
      ((atomicGroups entries).entries.flatMap fun g => g.2.map fun _ => g.1).map some := by
  rw [InsertionMap.values, List.map_flatten, List.map_map, List.map_flatMap, List.flatMap_def]
  refine congrArg List.flatten (List.map_congr_left fun g hg => ?_)
  rw [Function.comp_apply, List.map_map]
  exact List.map_congr_left fun e he => ((mem_group_iff hg).1 he).2

theorem map_atomicKey_zipIdx (entries : List BatchPaymentEntry) :
    (entries.zipIdx.map fun e => atomicKey e.1) = entries.map atomicKey := by
  have hfst := congrArg (List.map atomicKey) (List.zipIdx_map_fst 0 entries)
  rwa [List.map_map, Function.comp_def] at hfst

/-- When the order of the results is that of the entries. -/
theorem reordered_eq_iff : reordered entries = entries.zipIdx ↔ GroupsTogether entries := by
  rw [GroupsTogether, ← map_atomicKey_zipIdx]
  constructor
  · intro hsame
    rw [← hsame, reordered, List.map_append, map_atomicKey_groups, ← List.cons_append]
    refine together_append (k := none) ?_ (by simp) ?_
    · intro key hkey
      rcases List.mem_cons.1 hkey with rfl | hkey
      · rfl
      · obtain ⟨e, he, rfl⟩ := List.mem_map.1 hkey
        exact Option.isNone_iff_eq_none.1 (List.mem_filter.1 he).2
    · exact (together_map fun _ _ => Option.some.inj).2
        (together_flatMap (atomicGroups entries).nodup)
  · intro htogether
    obtain ⟨hsplit, htogether⟩ := htogether.of_none_cons
    rw [← map_fst_keyed] at htogether
    rw [reordered, atomicGroups, (InsertionMap.flatten_group_of_together htogether).1,
      map_snd_keyed, hsplit]

theorem inputOrder_iff :
    InputOrder entries (buildAndSubmitBatchExecutePayment J legacyRpc groupRpc entries) ↔
      GroupsTogether entries := by
  have hresults : List.Forall₂ IsFor
      (buildAndSubmitBatchExecutePayment J legacyRpc groupRpc entries).results
      (reordered entries) := forall₂_results
  rw [← reordered_eq_iff]
  constructor
  · intro horder
    have hpositions : ∀ {rs : List EntryResult} {es : List Numbered}, List.Forall₂ IsFor rs es →
        rs.map EntryResult.position = es.map Prod.snd := fun h =>
      List.forall₂_eq_eq_eq ▸ List.forall₂_map_left_iff.2 (List.forall₂_map_right_iff.2
        (h.imp fun _ _ hfor => hfor.position))
    have hsame := (hpositions hresults).symm.trans (hpositions horder)
    refine List.ext_getElem (reordered_perm entries).length_eq fun i hi hi' => ?_
    refine eq_of_position ((reordered_perm entries).subset (List.getElem_mem hi))
      (List.getElem_mem hi') ?_
    have hi'' : i < ((reordered entries).map Prod.snd).length := by rwa [List.length_map]
    have hposition := List.getElem_of_eq hsame hi''
    rwa [List.getElem_map, List.getElem_map] at hposition
  · intro hsame
    rw [InputOrder, ← hsame]
    exact hresults

/-! ### Counts -/

/-- Every entry is counted as a success or as a failure. -/
def AllCounted (entries : List BatchPaymentEntry) (report : BatchReport) : Prop :=
  report.successCount + report.failureCount = entries.length

/-- No transaction of an entry or of a group fails with an empty message. -/
structure NoEmptyMessage (J : JsNumber N) (legacyRpc : ℕ → SubmitRpc N)
    (groupRpc : String → SubmitRpc N) (entries : List BatchPaymentEntry) : Prop where
  legacy : ∀ e ∈ entries.zipIdx, entryKind e.1 = .legacy →
    executePaymentOutcome e.1 (legacyRpc e.2) ≠ .error ""
  groups : ∀ key group, (key, group) ∈ (atomicGroups entries).entries →
    batchOutcome J (groupRpc key) ≠ .error ""

/-- A result has a hash, or it has an error. -/
def EntryResult.Proper (r : EntryResult) : Prop :=
  (∃ hash : TxId, r.txHash = some hash.val ∧ r.error = none) ∨
    r.txHash = none ∧ ∃ message, r.error = some message

theorem proper_failed (merchant message : String) (e : Numbered) :
    (failed merchant message e).Proper := .inr ⟨rfl, message, rfl⟩

theorem proper_succeeded (merchant : String) (hash : TxId) (e : Numbered) :
    (succeeded merchant hash e).Proper := .inl ⟨hash, rfl, rfl⟩

theorem proper_of_resultFor {e : Numbered} {r : EntryResult}
    (h : resultFor J legacyRpc groupRpc e = some r) : r.Proper := by
  unfold resultFor immediateResult groupResult at h
  split at h
  · split at h
    · exact Option.some.inj h ▸ proper_failed _ _ e
    · split at h
      · exact Option.some.inj h ▸ proper_succeeded _ _ e
      · exact Option.some.inj h ▸ proper_failed _ _ e
    · cases h
  · split at h
    · exact Option.some.inj h ▸ proper_failed _ _ e
    · split_ifs at h
      · exact Option.some.inj h ▸ proper_succeeded _ _ e
      · exact Option.some.inj h ▸ proper_failed _ _ e

theorem length_filter_add {rs : List EntryResult} (h : ∀ r ∈ rs, r.Proper) :
    (rs.filter fun r => r.txHash.getD "" ≠ "").length +
        (rs.filter fun r => r.error.getD "" ≠ "").length +
        (rs.filter fun r => r.error = some "").length = rs.length := by
  induction rs with
  | nil => rfl
  | cons r rs ih =>
    have ih := ih fun r' hr' => h r' (List.mem_cons_of_mem _ hr')
    rcases h r List.mem_cons_self with ⟨hash, hhash, herror⟩ | ⟨hhash, message, herror⟩
    · simp [hhash, herror, hash.property, ← ih]
      omega
    · by_cases hempty : message = ""
      · simp [hhash, herror, hempty, ← ih]
        omega
      · simp [hhash, herror, hempty, ← ih]
        omega

theorem ne_empty_of_invalid {entry : BatchPaymentEntry} {message : String}
    (h : entryKind entry = .invalid message) : message ≠ "" := by
  have hmessage : ∀ addr label : String, "Invalid " ++ label ++ " address: " ++ addr ≠ "" := by
    intro addr label hempty
    simp at hempty
  have hG : ∀ addr label : String, assertValidGAddress addr label = .error message →
      message ≠ "" := by
    intro addr label h
    unfold assertValidGAddress at h
    dsimp only at h
    split_ifs at h
    exact Except.error.inj h ▸ hmessage addr label
  have hC : ∀ addr label : String, assertValidCAddress addr label = .error message →
      message ≠ "" := by
    intro addr label h
    unfold assertValidCAddress at h
    dsimp only at h
    split_ifs at h
    exact Except.error.inj h ▸ hmessage addr label
  unfold entryKind at h
  split at h
  · rename_i herror
    exact hG _ _ (EntryKind.invalid.inj h ▸ herror)
  · rename_i herror
    exact hG _ _ (EntryKind.invalid.inj h ▸ herror)
  · split at h
    · cases h
    · split at h
      · rename_i herror
        exact hC _ _ (EntryKind.invalid.inj h ▸ herror)
      · cases h

/-- The error of an entry without a group is empty if its transaction fails so. -/
theorem immediate_error_iff {e : Numbered} {r : EntryResult}
    (h : immediateResult legacyRpc e = some r) :
    r.error = some "" ↔
      entryKind e.1 = .legacy ∧ executePaymentOutcome e.1 (legacyRpc e.2) = .error "" := by
  unfold immediateResult at h
  cases hkind : entryKind e.1 with
  | invalid message =>
    rw [hkind] at h
    obtain rfl := Option.some.inj h
    simp [failed, ne_empty_of_invalid hkind]
  | legacy =>
    rw [hkind] at h
    cases hreply : executePaymentOutcome e.1 (legacyRpc e.2) with
    | ok hash =>
      simp only [hreply] at h
      obtain rfl := Option.some.inj h
      simp [succeeded]
    | error message =>
      simp only [hreply] at h
      obtain rfl := Option.some.inj h
      simp [failed]
  | atomic key =>
    rw [hkind] at h
    cases h

/-- The error of an entry of a group is empty if the transaction of the group fails so. -/
theorem group_error_iff {rpc : SubmitRpc N} {e : Numbered} :
    (groupResult J rpc e).error = some "" ↔ batchOutcome J rpc = .error "" := by
  unfold groupResult
  split
  · rename_i message hreply
    simp [failed, hreply]
  · rename_i hreply
    split_ifs
    · simp [succeeded, hreply]
    · simp [failed, skippedOnChain, hreply]

/-- What is not counted is what has an empty error. -/
theorem counts_add (J : JsNumber N) (legacyRpc : ℕ → SubmitRpc N) (groupRpc : String → SubmitRpc N)
    (entries : List BatchPaymentEntry) :
    (buildAndSubmitBatchExecutePayment J legacyRpc groupRpc entries).successCount +
        (buildAndSubmitBatchExecutePayment J legacyRpc groupRpc entries).failureCount +
        ((buildAndSubmitBatchExecutePayment J legacyRpc groupRpc entries).results.filter
          fun r => r.error = some "").length = entries.length := by
  have hlength : (buildAndSubmitBatchExecutePayment J legacyRpc groupRpc entries).results.length =
      entries.length := by
    have hperm := (reordered_perm entries).length_eq
    rw [List.length_zipIdx] at hperm
    exact forall₂_results.length_eq.trans hperm
  have hproper : ∀ r ∈ (buildAndSubmitBatchExecutePayment J legacyRpc groupRpc entries).results,
      r.Proper := by
    intro r hr
    obtain ⟨e, -, hresult⟩ := mem_results_iff.1 hr
    exact proper_of_resultFor hresult
  rw [← hlength, ← length_filter_add hproper]
  unfold buildAndSubmitBatchExecutePayment
  split_ifs <;> rfl

theorem allCounted_iff :
    AllCounted entries (buildAndSubmitBatchExecutePayment J legacyRpc groupRpc entries) ↔
      NoEmptyMessage J legacyRpc groupRpc entries := by
  have hcounted :
      AllCounted entries (buildAndSubmitBatchExecutePayment J legacyRpc groupRpc entries) ↔
        ∀ e ∈ entries.zipIdx, ∀ r, resultFor J legacyRpc groupRpc e = some r →
          r.error ≠ some "" := by
    rw [AllCounted, ← counts_add J legacyRpc groupRpc entries, Nat.left_eq_add,
      List.length_eq_zero_iff, List.filter_eq_nil_iff]
    simp only [mem_results_iff, decide_eq_true_eq]
    exact ⟨fun h e he r hr => h r ⟨e, he, hr⟩, fun h r ⟨e, he, hr⟩ => h e he r hr⟩
  rw [hcounted]
  constructor
  · refine fun h => ⟨fun e he hkind hempty => ?_, fun key group hgroup hempty => ?_⟩
    · have hresult : immediateResult legacyRpc e = some (failed e.1.merchant "" e) := by
        rw [immediateResult, hkind]
        simp only [hempty]
      have hkey : atomicKey e.1 = none := by rw [atomicKey, hkind]
      exact h e he _ (by rw [resultFor, hkey]; exact hresult) rfl
    · rcases group with _ | ⟨e, group⟩
      · exact (InsertionMap.eq_of_mem_group hgroup).2 rfl
      · obtain ⟨he, hkey⟩ := (mem_group_iff hgroup).1 List.mem_cons_self
        exact h e he (groupResult J (groupRpc key) e) (by rw [resultFor, hkey])
          (group_error_iff.2 hempty)
  · rintro ⟨hlegacy, hgroups⟩ e he r hr herror
    rcases hkey : atomicKey e.1 with _ | key
    · rw [resultFor, hkey] at hr
      obtain ⟨hkind, hempty⟩ := (immediate_error_iff hr).1 herror
      exact hlegacy e he hkind hempty
    · rw [resultFor, hkey] at hr
      obtain ⟨group, hgroup⟩ := exists_group he hkey
      exact hgroups key group hgroup (group_error_iff.1 (Option.some.inj hr ▸ herror))

end SorobanPay.Frontend
