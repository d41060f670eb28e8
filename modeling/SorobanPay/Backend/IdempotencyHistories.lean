import SorobanPay.Backend.IdempotencyService

/-!
# Histories of idempotency calls

Two things are expected of the table whatever calls overlap: that a payment recorded under a key is
what every later request under the key is told of, and that the calls of one tenant do not depend
on those of another.

Both writers replace the row of a key without a look at its status, so the first holds exactly as
long as no failure, and no success with another transaction, is recorded over a success
(`success_sticky_iff`). Rows are found by the key alone, whatever the tenant, so the second holds as
long as the tenants use different keys, and record different transactions (`tenant_isolation`).

## Main definitions

* `Honours`, `Overwrites`: requests are told of the payment that has been recorded, and a call that
  prevents this.
* `IdempotencyCall.ByTenant`, `tenantAnswers`, `KeepsApart`: the calls of a tenant, their results,
  and histories in which other tenants stay away from what it uses.

## Main results

* `success_sticky_iff`: when success is sticky.
* `tenant_isolation`: when the results of a tenant do not depend on the others.
-/

set_option autoImplicit false

namespace SorobanPay.IdempotencyService

open Foundation

variable {table table' : IdempotencyTable} {key : String} {calls calls' : List IdempotencyCall}

/-! ### Success is sticky -/

/-- A payment that the earlier table has under the key is what the later one tells every request
for this payment. -/
def Honours (key : String) (earlier later : IdempotencyTable) : Prop :=
  ∀ row txHash, SucceededWith earlier key row txHash → ∀ params : IdempotencyKeyParams,
    params.idempotencyKey = key → params.toPaymentDetails = row.toPaymentDetails →
      handleIdempotencyCheck later params .done = .ok (some ⟨txHash, true⟩)

/-- The call records a failure, or a success with another transaction, over a success, or a success
without a transaction. -/
def Overwrites (key : String) (table : IdempotencyTable) : IdempotencyCall → Prop
  | .check _ _ | .handle _ _ => False
  | .success params txHash reply => params.idempotencyKey = key ∧ reply.outcome ≠ .failed ∧
      ¬ HashTaken table key (some txHash) ∧
        (txHash = "" ∨ ∃ row earlier, SucceededWith table key row earlier ∧ earlier ≠ txHash)
  | .failure params _ reply => params.idempotencyKey = key ∧ reply.outcome ≠ .failed ∧
      ∃ row txHash, SucceededWith table key row txHash

/-- The later table has the payment too. -/
theorem honours_iff : Honours key table table' ↔ ∀ row txHash, SucceededWith table key row txHash →
    txHash ≠ "" ∧ ∃ row', SucceededWith table' key row' txHash ∧
      row'.toPaymentDetails = row.toPaymentDetails := by
  constructor
  · intro h row txHash hrow
    obtain ⟨row', hget, hdetails, hstatus, hhash, hne, -⟩ :=
      handleIdempotencyCheck_eq_some_iff.1 (h row txHash hrow ⟨row.toPaymentDetails, key, none⟩
        rfl rfl)
    exact ⟨hne, row', ⟨hget, hstatus, hhash⟩, hdetails⟩
  · rintro h row txHash hrow params rfl hparams
    obtain ⟨hne, row', ⟨hget, hstatus, hhash⟩, hdetails⟩ := h row txHash hrow
    exact handleIdempotencyCheck_eq_some_iff.2
      ⟨row', hget, hdetails.trans hparams.symm, hstatus, hhash, hne, rfl⟩

/-- What is kept by calls that overwrite nothing. -/
structure StickyInv (key : String) (table : IdempotencyTable) : Prop where
  unique : UniqueHashes table
  hashed : ∀ row txHash, SucceededWith table key row txHash → txHash ≠ ""

theorem StickyInv.honours (h : StickyInv key table) : Honours key table table :=
  honours_iff.2 fun row txHash hrow => ⟨h.hashed row txHash hrow, row, hrow, rfl⟩

theorem Honours.trans {table'' : IdempotencyTable} (h : Honours key table table')
    (h' : Honours key table' table'') : Honours key table table'' := by
  rw [honours_iff] at *
  intro row txHash hrow
  obtain ⟨-, row', hrow', hdetails⟩ := h row txHash hrow
  obtain ⟨hne, row'', hrow'', hdetails'⟩ := h' row' txHash hrow'
  exact ⟨hne, row'', hrow'', hdetails'.trans hdetails⟩

/-- The row of the key is left alone. -/
theorem StickyInv.of_get_eq (h : StickyInv key table) (hunique : UniqueHashes table')
    (hget : table'.get key = table.get key) :
    StickyInv key table' ∧ Honours key table table' := by
  have hsucceeded : ∀ row txHash,
      SucceededWith table' key row txHash ↔ SucceededWith table key row txHash := by
    intro row txHash
    rw [SucceededWith, SucceededWith, hget]
  refine ⟨⟨hunique, fun row txHash hrow => h.hashed row txHash ((hsucceeded _ _).1 hrow)⟩, ?_⟩
  exact honours_iff.2 fun row txHash hrow =>
    ⟨h.hashed row txHash hrow, row, (hsucceeded _ _).2 hrow, rfl⟩

/-- The row of the key is replaced. -/
theorem succeededWith_callStep {c : IdempotencyCall} {new : PaymentIdempotency}
    (row : PaymentIdempotency) (txHash : String) (hkey : c.params.idempotencyKey = key)
    (hnew : c.written table = some new) :
    SucceededWith (callStep table c) key row txHash ↔
      new = row ∧ new.status = .succeeded ∧ new.txHash = some txHash := by
  rw [SucceededWith, get_callStep, if_pos hkey, hnew, Option.some_or, Option.some.injEq]
  constructor <;> rintro ⟨rfl, hrow⟩ <;> exact ⟨rfl, hrow⟩

theorem StickyInv.step (h : StickyInv key table) {c : IdempotencyCall}
    (hc : ¬ Overwrites key table c) :
    StickyInv key (callStep table c) ∧ Honours key table (callStep table c) := by
  have hunique : UniqueHashes (callStep table c) := h.unique.callStep c
  by_cases hkey : c.params.idempotencyKey = key
  · cases hnew : c.written table with
    | none =>
      refine h.of_get_eq hunique ?_
      rw [get_callStep, hnew, Option.none_or, ite_self]
    | some new =>
      have hsucceeded := fun row txHash =>
        succeededWith_callStep row txHash hkey hnew
      cases c with
      | check | handle => cases hnew
      | success params txHash reply =>
        obtain rfl : params.idempotencyKey = key := hkey
        simp only [IdempotencyCall.written] at hnew
        split_ifs at hnew with heffect
        rw [not_or] at heffect
        obtain rfl := Option.some.inj hnew
        simp only [Overwrites, true_and, ne_eq, heffect, not_false_eq_true, not_or, not_exists,
          not_and, not_not] at hc
        obtain ⟨hne, hsame⟩ := hc
        refine ⟨⟨hunique, fun row h' hrow => ?_⟩, honours_iff.2 fun row h' hrow => ?_⟩
        · obtain ⟨-, -, hhash⟩ := (hsucceeded row h').1 hrow
          rw [successRow_txHash, Option.some.injEq] at hhash
          exact hhash ▸ hne
        · obtain rfl := hsame row h' hrow
          exact ⟨hne, _, (hsucceeded _ _).2 ⟨rfl, successRow_status _, successRow_txHash _⟩,
            successRow_details _ hrow.1⟩
      | failure params error reply =>
        obtain rfl : params.idempotencyKey = key := hkey
        simp only [IdempotencyCall.written] at hnew
        split_ifs at hnew with heffect
        rw [not_or] at heffect
        obtain rfl := Option.some.inj hnew
        have hnone : ∀ row h', ¬ SucceededWith table params.idempotencyKey row h' :=
          fun row h' hrow => hc ⟨rfl, heffect.1, row, h', hrow⟩
        refine ⟨⟨hunique, fun row h' hrow => ?_⟩, honours_iff.2 fun row h' hrow => ?_⟩
        · obtain ⟨-, hstatus, -⟩ := (hsucceeded row h').1 hrow
          rw [failureRow_status] at hstatus
          cases hstatus
        · exact absurd hrow (hnone row h')
  · refine h.of_get_eq hunique ?_
    rw [get_callStep, if_neg hkey]

/-- A call that overwrites a success is noticed by the requests after it. -/
theorem StickyInv.not_overwrites (h : StickyInv key table) {c : IdempotencyCall}
    (hstep : Honours key table (callStep table c))
    (hnext : Honours key (callStep table c) (callStep table c)) : ¬ Overwrites key table c := by
  rw [honours_iff] at hstep hnext
  cases c with
  | check | handle => exact id
  | success params txHash reply =>
    rintro ⟨rfl, hreply, hfree, hover⟩
    have hnew : (IdempotencyCall.success params txHash reply).written table =
        some (successRow table params txHash) := by
      simp only [IdempotencyCall.written, hreply, hfree, or_self, if_false]
    rcases hover with rfl | ⟨row, earlier, hrow, hne⟩
    · refine (hnext (successRow table params "") "" ?_).1 rfl
      exact (succeededWith_callStep _ _ rfl hnew).2 ⟨rfl, successRow_status _, successRow_txHash _⟩
    · obtain ⟨-, row', hrow', -⟩ := hstep row earlier hrow
      obtain ⟨-, -, hhash⟩ := (succeededWith_callStep _ _ rfl hnew).1 hrow'
      rw [successRow_txHash, Option.some.injEq] at hhash
      exact hne hhash.symm
  | failure params error reply =>
    rintro ⟨rfl, hreply, row, txHash, hrow⟩
    have hnew : (IdempotencyCall.failure params error reply).written table =
        some (failureRow table params error) := by
      simp only [IdempotencyCall.written, failureRow_txHash, hreply, h.unique.not_hashTaken,
        or_self, if_false]
    obtain ⟨-, row', hrow', -⟩ := hstep row txHash hrow
    obtain ⟨-, hstatus, -⟩ := (succeededWith_callStep _ _ rfl hnew).1 hrow'
    rw [failureRow_status] at hstatus
    cases hstatus

/-- **When success is sticky.** In a history of calls, from an empty table, every payment that is
recorded as succeeded under a key is what all later requests for it under the key are told of,
exactly if no call overwrites it. -/
theorem success_sticky_iff (key : String) (calls : List IdempotencyCall) :
    Onwards callStep (Honours key) .empty calls ↔
      Along callStep (fun table c => ¬ Overwrites key table c) .empty calls :=
  onwards_iff_along (StickyInv key) (R := Honours key)
    (P := fun table c => ¬ Overwrites key table c)
    (fun _ _ _ h h' => h.trans h') (fun _ h => h.honours) (fun _ _ h hc => h.step hc)
    (fun _ _ h hstep hnext => h.not_overwrites hstep hnext)
    ⟨uniqueHashes_empty, fun _ _ hrow => by simp [SucceededWith] at hrow⟩

/-- A request that has paid. -/
def sampleParams (tenantId : Option String) : IdempotencyKeyParams :=
  ⟨⟨"GSUB", "GMER", "token_placeholder", "amount_placeholder"⟩, "key-1", tenantId⟩

/-- Two requests are under way, and one of them has succeeded. -/
def sampleSuccess : List IdempotencyCall :=
  [.handle (sampleParams none) .done, .handle (sampleParams none) .done,
    .success (sampleParams none) "tx1" .done]

/-- The other one fails. -/
def sampleFailure : IdempotencyCall :=
  .failure (sampleParams none) "Transaction tx2 not confirmed after 30 s" .done

/-- A request that fails late overwrites the success of another one. -/
theorem not_success_sticky_overtaken :
    ¬ Onwards callStep (Honours "key-1") .empty (sampleSuccess ++ [sampleFailure]) := by
  intro h
  have hlater := honours_iff.1 (h sampleSuccess [sampleFailure] [] rfl)
    ⟨(sampleParams none).toPaymentDetails, .succeeded, some "tx1", none⟩ "tx1"
    ⟨by decide, rfl, rfl⟩
  obtain ⟨-, row, ⟨hget, hstatus, -⟩, -⟩ := hlater
  have hrow : row.status = .failed := by
    rw [← Option.some.inj hget]
    decide
  rw [hrow] at hstatus
  cases hstatus

/-! ### Tenants -/

/-- The call is made by the tenant. -/
def IdempotencyCall.ByTenant (A : String) (c : IdempotencyCall) : Prop := c.params.tenantId = some A

instance (A : String) : DecidablePred (IdempotencyCall.ByTenant A) :=
  fun c => inferInstanceAs (Decidable (c.params.tenantId = some A))

/-- The results of the calls of the tenant. -/
def tenantAnswers (A : String) (table : IdempotencyTable) (c : IdempotencyCall) : List Answer :=
  if c.ByTenant A then callAnswer table c else []

/-- The transaction that a call records. -/
def IdempotencyCall.recordedHash : IdempotencyCall → Option String
  | .check _ _ | .handle _ _ | .failure _ _ _ => none
  | .success _ txHash _ => some txHash

/-- The call writes a row, and its statement does not fail. -/
def IdempotencyCall.Records : IdempotencyCall → Prop
  | .check _ _ | .handle _ _ => False
  | .success _ _ reply | .failure _ _ reply => reply.outcome ≠ .failed

instance : DecidablePred IdempotencyCall.Records
  | .check _ _ | .handle _ _ => instDecidableFalse
  | .success _ _ reply | .failure _ _ reply =>
    inferInstanceAs (Decidable (reply.outcome ≠ .failed))

/-- No other tenant records under a key that the tenant uses, or a transaction that it records. -/
def KeepsApart (A : String) (calls : List IdempotencyCall) : Prop :=
  ∀ c ∈ calls, ¬ c.ByTenant A → c.Records → ∀ a ∈ calls, a.ByTenant A →
    c.params.idempotencyKey ≠ a.params.idempotencyKey ∧
      (c.recordedHash ≠ none → c.recordedHash ≠ a.recordedHash)

instance (A : String) (calls : List IdempotencyCall) : Decidable (KeepsApart A calls) :=
  inferInstanceAs (Decidable (∀ c ∈ calls, _ → _ → ∀ a ∈ calls, _ → _ ∧ _))

/-- Two tables look the same to a tenant with these keys and transactions. -/
structure Alike (keys : Set String) (hashes : Set String) (s t : IdempotencyTable) : Prop where
  rows : ∀ key ∈ keys, s.get key = t.get key
  own : ∀ key ∈ keys, ∀ row, s.get key = some row → ∀ txHash, row.txHash = some txHash →
    txHash ∈ hashes
  others : ∀ key ∉ keys, ∀ row, s.get key = some row ∨ t.get key = some row →
    ∀ txHash ∈ hashes, row.txHash ≠ some txHash

section Alike

variable {keys hashes : Set String} {s t : IdempotencyTable} {c : IdempotencyCall}

/-- A transaction of the tenant is taken in both tables or in none. -/
theorem Alike.hashTaken_iff (h : Alike keys hashes s t) {txHash : Option String}
    (hhash : ∀ text, txHash = some text → text ∈ hashes) :
    HashTaken s key txHash ↔ HashTaken t key txHash := by
  rw [IdempotencyService.hashTaken_iff, IdempotencyService.hashTaken_iff]
  refine and_congr_right fun hsome => exists_congr fun k => exists_congr fun row =>
    and_congr_right fun _ => ?_
  obtain ⟨text, rfl⟩ := Option.ne_none_iff_exists'.1 hsome
  by_cases hk : k ∈ keys
  · rw [h.rows k hk]
  · have hothers := h.others k hk row
    constructor
    · exact fun ⟨hrow, heq⟩ => absurd heq (hothers (.inl hrow) text (hhash text rfl))
    · exact fun ⟨hrow, heq⟩ => absurd heq (hothers (.inr hrow) text (hhash text rfl))

/-- A call of the tenant writes the same row in both tables, with a transaction of the tenant. -/
theorem Alike.written_eq (h : Alike keys hashes s t) (hkey : c.params.idempotencyKey ∈ keys)
    (hhash : ∀ text, c.recordedHash = some text → text ∈ hashes) :
    c.written s = c.written t ∧ ∀ row, c.written s = some row → ∀ text, row.txHash = some text →
      text ∈ hashes := by
  have hget := h.rows _ hkey
  cases c with
  | check | handle => exact ⟨rfl, fun _ hrow => by cases hrow⟩
  | success params txHash reply =>
    have hrow : successRow s params txHash = successRow t params txHash := successRow_congr hget
    have hmem : ∀ text, some txHash = some text → text ∈ hashes := fun text heq => hhash text heq
    constructor
    · simp only [IdempotencyCall.written, hrow, h.hashTaken_iff hmem]
    · intro row hwritten text htext
      simp only [IdempotencyCall.written] at hwritten
      split_ifs at hwritten
      rw [← Option.some.inj hwritten, successRow_txHash] at htext
      exact hmem text htext
  | failure params error reply =>
    have hrow : failureRow s params error = failureRow t params error := failureRow_congr hget
    have hmem : ∀ text, (failureRow s params error).txHash = some text → text ∈ hashes := by
      intro text heq
      rw [failureRow_txHash, Option.bind_eq_some_iff] at heq
      obtain ⟨existing, hexisting, htext⟩ := heq
      exact h.own _ hkey existing hexisting text htext
    constructor
    · simp only [IdempotencyCall.written, h.hashTaken_iff hmem]
      rw [hrow]
    · intro row hwritten text htext
      simp only [IdempotencyCall.written] at hwritten
      split_ifs at hwritten
      rw [← Option.some.inj hwritten] at htext
      exact hmem text htext

/-- A call of the tenant is answered alike, and leaves tables that look the same. -/
theorem Alike.visible (h : Alike keys hashes s t) (hkey : c.params.idempotencyKey ∈ keys)
    (hhash : ∀ text, c.recordedHash = some text → text ∈ hashes) :
    callAnswer s c = callAnswer t c ∧ Alike keys hashes (callStep s c) (callStep t c) := by
  have hget := h.rows _ hkey
  constructor
  · cases c with
    | check params | handle params =>
      simp only [callAnswer, handleIdempotencyCheck, checkIdempotencyKey]
      rw [show s.get params.idempotencyKey = t.get params.idempotencyKey from hget]
    | success | failure => rfl
  · obtain ⟨hwritten, hmem⟩ := h.written_eq hkey hhash
    refine ⟨fun k hk => ?_, fun k hk row hrow text htext => ?_, fun k hk row hrow => ?_⟩
    · rw [get_callStep, get_callStep, hwritten, h.rows k hk]
    · rw [get_callStep] at hrow
      split_ifs at hrow
      · rcases Option.or_eq_some_iff.1 hrow with hrow | ⟨-, hrow⟩
        · exact hmem row hrow text htext
        · exact h.own k hk row hrow text htext
      · exact h.own k hk row hrow text htext
    · have hne : c.params.idempotencyKey ≠ k := fun heq => hk (heq ▸ hkey)
      rw [get_callStep, get_callStep, if_neg hne, if_neg hne] at hrow
      exact h.others k hk row hrow

/-- A call of another tenant, away from the keys and the transactions of the tenant, cannot be
seen by it. -/
theorem Alike.hidden (h : Alike keys hashes s t)
    (hc : c.Records → c.params.idempotencyKey ∉ keys ∧
      ∀ text, c.recordedHash = some text → text ∉ hashes) :
    Alike keys hashes (callStep s c) t := by
  by_cases hrecords : c.Records
  · obtain ⟨hkey, hhash⟩ := hc hrecords
    have hrows : ∀ k ∈ keys, (callStep s c).get k = s.get k := by
      intro k hk
      have hne : c.params.idempotencyKey ≠ k := fun heq => hkey (heq ▸ hk)
      rw [get_callStep, if_neg hne]
    refine ⟨fun k hk => (hrows k hk).trans (h.rows k hk), fun k hk row hrow => ?_,
      fun k hk row hrow text htext heq => ?_⟩
    · rw [hrows k hk] at hrow
      exact h.own k hk row hrow
    · rcases hrow with hrow | hrow
      · rw [get_callStep] at hrow
        split_ifs at hrow with hk'
        · rcases Option.or_eq_some_iff.1 hrow with hnew | ⟨-, hrow⟩
          · cases c with
            | check | handle => exact hrecords
            | success params txHash reply =>
              simp only [IdempotencyCall.written] at hnew
              split_ifs at hnew
              rw [← Option.some.inj hnew, successRow_txHash] at heq
              exact hhash text heq htext
            | failure params error reply =>
              simp only [IdempotencyCall.written] at hnew
              split_ifs at hnew
              rw [← Option.some.inj hnew, failureRow_txHash, Option.bind_eq_some_iff] at heq
              obtain ⟨existing, hexisting, heq⟩ := heq
              exact h.others _ hkey existing (.inl hexisting) text htext heq
          · exact h.others k hk row (.inl hrow) text htext heq
        · exact h.others k hk row (.inl hrow) text htext heq
      · exact h.others k hk row (.inr hrow) text htext heq
  · have hstep : callStep s c = s := by
      cases c with
      | check | handle => rfl
      | success | failure =>
        have hfailed := not_not.1 hrecords
        rw [callStep_eq, IdempotencyCall.written, if_pos (.inl hfailed), Option.elim_none]
    rwa [hstep]

end Alike

/-- In a history that keeps apart, other tenants do not change the results of the tenant. -/
theorem history_tenantAnswers {A : String} (h : KeepsApart A calls) :
    history callStep (tenantAnswers A) .empty calls =
      history callStep (tenantAnswers A) .empty (calls.filter (IdempotencyCall.ByTenant A ·)) := by
  -- what the tenant uses in the history
  let keys : Set String := fun key => ∃ a ∈ calls, a.ByTenant A ∧ a.params.idempotencyKey = key
  let hashes : Set String := fun text => ∃ a ∈ calls, a.ByTenant A ∧ a.recordedHash = some text
  have halike : Alike keys hashes .empty .empty :=
    ⟨fun _ _ => rfl, fun _ _ _ h => by simp at h, fun _ _ _ h => by simp at h⟩
  refine history_eq_history_filter (Alike keys hashes) (fun c hc hA s t hst => ?_)
    (fun c hc hA s t hst => ?_) halike
  · obtain ⟨hanswer, hnext⟩ := hst.visible ⟨c, hc, hA, rfl⟩ fun text htext => ⟨c, hc, hA, htext⟩
    refine ⟨?_, hnext⟩
    rw [tenantAnswers, tenantAnswers, if_pos hA, if_pos hA, hanswer]
  · refine ⟨by rw [tenantAnswers, if_neg hA], hst.hidden fun hrecords => ⟨?_, fun text htext => ?_⟩⟩
    · rintro ⟨a, ha, haA, hkey⟩
      exact (h c hc hA hrecords a ha haA).1 hkey.symm
    · rintro ⟨a, ha, haA, hhash⟩
      exact (h c hc hA hrecords a ha haA).2 (by simp [htext]) (htext.trans hhash.symm)

/-- **Tenants do not interfere.** Two histories with the same calls of the tenant, in which the
other tenants stay away from the keys and transactions that it uses, give it the same results. -/
theorem tenant_isolation {A : String} (hsame : calls.filter (IdempotencyCall.ByTenant A ·) =
      calls'.filter (IdempotencyCall.ByTenant A ·))
    (h : KeepsApart A calls) (h' : KeepsApart A calls') :
    history callStep (tenantAnswers A) .empty calls =
      history callStep (tenantAnswers A) .empty calls' := by
  rw [history_tenantAnswers h, history_tenantAnswers h', hsame]

/-- A payment of one tenant, and a request of another one under a key of its own. -/
def sampleTenants : List IdempotencyCall :=
  [.success (sampleParams (some "B")) "tx1" .done,
    .handle { sampleParams (some "A") with idempotencyKey := "key-2" } .done]

theorem tenant_isolation_sample :
    history callStep (tenantAnswers "A") .empty sampleTenants =
      history callStep (tenantAnswers "A") .empty (sampleTenants.drop 1) :=
  tenant_isolation (by decide) (by decide) (by decide)

/-- Under the key of another tenant a request is told that it has been paid. -/
theorem not_tenant_isolation_shared :
    ¬ ∀ (A : String) (calls calls' : List IdempotencyCall),
      calls.filter (IdempotencyCall.ByTenant A ·) = calls'.filter (IdempotencyCall.ByTenant A ·) →
      history callStep (tenantAnswers A) .empty calls =
        history callStep (tenantAnswers A) .empty calls' := by
  intro h
  have hsame := h "A" [.success (sampleParams (some "B")) "tx1" .done,
    .handle (sampleParams (some "A")) .done] [.handle (sampleParams (some "A")) .done] (by decide)
  revert hsame
  decide

end SorobanPay.IdempotencyService
