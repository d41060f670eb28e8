import Mathlib.Data.List.TakeWhile
import SorobanPay.Backend.Repairs
import SorobanPay.Backend.RetryQueue
import SorobanPay.Backend.WebhookNotifier
import SorobanPay.Foundation.Base64url

/-!
# Dry runs of the reconciler

`dryRun` of `services/reconciler.ts` runs the reconciler on a wrapper of the database that discards
what is written, and returns one page of the repairs, the number of all repairs, and a cursor for
the next page: the offset of its first repair, as text in base64.

The reconciler is stated here for any implementation of the interface `SubscriptionDB`; on the
database in memory it is `reconcile` (`reconcileOn_eq`). On the wrapper it does not see its own
repairs. Where no text of an event contains a colon this makes no difference, since every repair
concerns another row. Where a stored amount that is compared is no integer, a dry run throws as
`reconcile` does, and shows no page.

## Main definitions

* `SubscriptionStore`, `ReadOnlySubscriptionDB`: the interface and the wrapper.
* `reconcileOn`, `dryRun`: the reconciler on an implementation, and dry runs.
* `Pages`: the pages that are seen when each cursor is followed.
* `PagesComplete`: the pages are the repairs of `reconcile`.

## Main results

* `reconcileOn_readOnly`: the repairs that a dry run finds.
* `exists_pages`: the pages from a cursor on.
* `pagesComplete`: the pages are complete where no text of an event contains a colon.
-/

set_option autoImplicit false

namespace SorobanPay

open Foundation

/-! ### The interface -/

/-- The interface `SubscriptionDB`. -/
class SubscriptionStore (δ : Type) where
  get : δ → String → String → String → Option StoredSubscription
  upsert : δ → StoredSubscription → δ
  delete : δ → String → String → String → δ
  all : δ → List StoredSubscription

instance : SubscriptionStore SubscriptionDB where
  get := SubscriptionDB.get
  upsert := SubscriptionDB.upsert
  delete := SubscriptionDB.delete
  all := SubscriptionDB.all

/-- `ReadOnlySubscriptionDB`. -/
structure ReadOnlySubscriptionDB (δ : Type) where
  inner : δ

section Store

variable {δ : Type} [SubscriptionStore δ]

open SubscriptionStore

instance : SubscriptionStore (ReadOnlySubscriptionDB δ) where
  get db := get db.inner
  upsert db _ := db
  delete db _ _ _ := db
  all db := all db.inner

/-- The repair for one entry of the expected records. What throws does so before a change. -/
def repairEntryOn (state : δ × List RepairAction) (entry : String × Option StoredSubscription) :
    Except String (δ × List RepairAction) :=
  let (db, repairs) := state
  let (subscriber, merchant, token) := splitKey entry.1
  match entry.2, get db subscriber merchant token with
  | none, some _ =>
    .ok (delete db subscriber merchant token, repairs ++ [.delete subscriber merchant])
  | none, none => .ok (db, repairs)
  | some want, none => .ok (upsert db want, repairs ++ [.insert want])
  | some want, some stored =>
    match recordsMatch stored want with
    | .error error => .error error
    | .ok true => .ok (db, repairs)
    | .ok false => .ok (upsert db want, repairs ++ [.update stored want])

/-- `reconcile`, on any implementation of the interface. -/
def reconcileOn (events : List ChainEvent) (db : δ) (defaultInterval : ℕ) :
    δ × Except String ReconcileResult :=
  let (expected, errors) := replayEvents events defaultInterval
  let ((db, repairs), thrown) := repairLoop repairEntryOn (db, []) expected.entries
  (db, match thrown with
    | none => .ok ⟨repairs, errors ++ (all db).filterMap (orphanError expected)⟩
    | some error => .error error)

/-! ### Dry runs -/

/-- `encodeCursor`. -/
def encodeCursor (offset : ℕ) : String := base64urlText (utf8Bytes (toString offset))

/-- `decodeCursor`. -/
def decodeCursor (cursor : String) : ℕ :=
  match RetryQueue.parseInt (utf8Text (base64Decode cursor)) with
  | some n => n.toNat
  | none => 0

/-- `DryRunOptions`. -/
structure DryRunOptions where
  limit : Option ℤ
  cursor : Option String

/-- `DryRunResult`. -/
structure DryRunResult where
  repairs : List RepairAction
  errors : List String
  total : ℕ
  nextCursor : Option String

/-- The size of a page, 50 if no limit is given and at most 500. -/
def DryRunOptions.pageSize (options : DryRunOptions) : ℕ :=
  (min (max 1 (options.limit.getD 50)) 500).toNat

/-- The offset of a page. The empty cursor counts as none. -/
def DryRunOptions.offset (options : DryRunOptions) : ℕ :=
  ((options.cursor.filter (· ≠ "")).map decodeCursor).getD 0

/-- The page of a result that the options ask for. -/
def DryRunOptions.page (options : DryRunOptions) (result : ReconcileResult) : DryRunResult :=
  let limit := options.pageSize
  let offset := options.offset
  let total := result.repairs.length
  let nextOffset := offset + limit
  { repairs := (result.repairs.drop offset).take limit
    errors := result.errors
    total := total
    nextCursor := if nextOffset < total then some (encodeCursor nextOffset) else none }

/-- `dryRun`: the database afterwards, and the result, or what has been thrown. -/
def dryRun (events : List ChainEvent) (db : δ) (options : DryRunOptions) :
    δ × Except String DryRunResult :=
  let (readOnlyDb, result) := reconcileOn events (ReadOnlySubscriptionDB.mk db) 86400
  (readOnlyDb.inner, result.map options.page)

/-- What is seen, from a cursor on, when every cursor is followed, and the database afterwards. -/
inductive Pages (events : List ChainEvent) (limit : Option ℤ) :
    δ → Option String → List DryRunResult → δ → Prop
  | last {db db' : δ} {cursor : Option String} {page : DryRunResult}
      (h : dryRun events db ⟨limit, cursor⟩ = (db', .ok page)) (hlast : page.nextCursor = none) :
      Pages events limit db cursor [page] db'
  | next {db db' db'' : δ} {cursor : Option String} {next : String} {page : DryRunResult}
      {pages : List DryRunResult} (h : dryRun events db ⟨limit, cursor⟩ = (db', .ok page))
      (hnext : page.nextCursor = some next)
      (hpages : Pages events limit db' (some next) pages db'') :
      Pages events limit db cursor (page :: pages) db''

end Store

/-- On the database in memory this is the reconciler. -/
theorem reconcileOn_eq (events : List ChainEvent) (db : SubscriptionDB) (defaultInterval : ℕ) :
    reconcileOn events db defaultInterval = reconcile events db defaultInterval := rfl

/-- No dry run changes the database, and following the cursors from the first page on ends, with
pages that show each repair that `reconcile` would make once and in order. -/
def PagesComplete (events : List ChainEvent) (db : SubscriptionDB) (limit : Option ℤ) : Prop :=
  (∀ options, (dryRun events db options).1 = db) ∧
  ∃ result pages, (reconcile events db 86400).2 = .ok result ∧
    (∀ pages' db', Pages events limit db none pages' db' ↔ pages' = pages ∧ db' = db) ∧
    pages.flatMap (·.repairs) = result.repairs ∧
    ∀ page ∈ pages, page.repairs.length ≤ 500 ∧ (0 < page.total → 0 < page.repairs.length) ∧
      page.total = result.repairs.length

/-! ### Cursors -/

/-- A number is read back from its decimal text. -/
theorem parseInt_toString (n : ℕ) : RetryQueue.parseInt (toString n) = some (n : ℤ) := by
  have htext : (toString n).toList = Nat.toDigits 10 n := Nat.toList_repr
  have hdigits : ∀ c ∈ Nat.toDigits 10 n, c.isDigit = true := fun c hc =>
    Nat.isDigit_of_mem_toDigits (by decide) (by decide) hc
  have hvalue := Nat.ofDigitChars_ten_toDigits (n := n)
  rw [RetryQueue.parseInt, htext]
  rcases hcs : Nat.toDigits 10 n with _ | ⟨c, cs⟩
  · exact (Nat.toDigits_ne_nil hcs).elim
  · rw [hcs] at hdigits hvalue
    have hdigit := hdigits c List.mem_cons_self
    have hdrop : (c :: cs).dropWhile WebhookNotifier.isTrimmed = c :: cs :=
      List.dropWhile_cons_of_neg (by simp [WebhookNotifier.isTrimmed_of_isDigit hdigit])
    have htake : (c :: cs).takeWhile Char.isDigit = c :: cs := List.takeWhile_eq_self_iff.2 hdigits
    simp only [hdrop]
    split
    -- a sign is no digit
    · rename_i heq
      rw [(List.cons.inj heq).1] at hdigit
      cases hdigit
    · rename_i heq
      rw [(List.cons.inj heq).1] at hdigit
      cases hdigit
    · rw [htake, if_neg (List.cons_ne_nil _ _)]
      rw [Nat.ofDigitChars_eq_foldl] at hvalue
      rw [hvalue]

theorem decodeCursor_encodeCursor (offset : ℕ) : decodeCursor (encodeCursor offset) = offset := by
  rw [decodeCursor, encodeCursor, base64Decode_base64urlText, utf8Text_utf8Bytes]
  simp only [parseInt_toString, Int.toNat_natCast]

theorem encodeCursor_ne_empty (offset : ℕ) : encodeCursor offset ≠ "" := by
  intro h
  have hdecode := base64Decode_base64urlText (utf8Bytes (toString offset))
  have htext := utf8Text_utf8Bytes (toString offset)
  rw [← encodeCursor, h] at hdecode
  rw [← hdecode] at htext
  have hnil : (toString offset).toList = [] := by
    rw [← htext]
    rfl
  rw [show (toString offset).toList = Nat.toDigits 10 offset from Nat.toList_repr] at hnil
  exact Nat.toDigits_ne_nil hnil

/-! ### The repairs of a dry run -/

variable {events : List ChainEvent} {db db' : SubscriptionDB} {limit : Option ℤ}
  {options : DryRunOptions}

/-- On the wrapper a repair is found and nothing is changed. -/
theorem repairEntryOn_readOnly (repairs : List RepairAction)
    (entry : String × Option StoredSubscription) :
    repairEntryOn (ReadOnlySubscriptionDB.mk db, repairs) entry =
      (compareEntry db entry).map fun repair => (⟨db⟩, repairs ++ repair.toList) := by
  obtain ⟨key, want⟩ := entry
  have hget : SubscriptionStore.get (ReadOnlySubscriptionDB.mk db) (splitKey key).1
      (splitKey key).2.1 (splitKey key).2.2 =
        db.get (splitKey key).1 (splitKey key).2.1 (splitKey key).2.2 := rfl
  rcases hstored : db.get (splitKey key).1 (splitKey key).2.1 (splitKey key).2.2 with _ | stored
  · rcases want with _ | want
    · simp [repairEntryOn, compareEntry, hget, hstored, Except.map]
    · simp [repairEntryOn, compareEntry, hget, hstored, Except.map]
      rfl
  · rcases want with _ | want
    · simp [repairEntryOn, compareEntry, hget, hstored, Except.map]
      rfl
    · rcases hmatch : recordsMatch stored want with error | _ | _
      · simp [repairEntryOn, compareEntry, hget, hstored, hmatch, Except.map]
      · simp [repairEntryOn, compareEntry, hget, hstored, hmatch, Except.map]
        rfl
      · simp [repairEntryOn, compareEntry, hget, hstored, hmatch, Except.map]

/-- The repairs that a dry run finds: every entry is compared with the database as it is. -/
def foundRepairs (events : List ChainEvent) (db : SubscriptionDB) : List RepairAction :=
  (replayEvents events 86400).1.entries.filterMap (repairOf db)

theorem repairLoop_repairEntryOn_readOnly (db : SubscriptionDB)
    (entries : List (String × Option StoredSubscription)) (repairs : List RepairAction) :
    repairLoop repairEntryOn (ReadOnlySubscriptionDB.mk db, repairs) entries =
      ((⟨db⟩, repairs ++ (reached db entries).filterMap (repairOf db)), thrown db entries) := by
  induction entries generalizing repairs with
  | nil => simp [repairLoop, reached, thrown]
  | cons entry entries ih =>
    rw [repairLoop, repairEntryOn_readOnly, reached_cons, thrown_cons]
    rcases hcompare : compareEntry db entry with error | repair
    · have hfailure : failureOf db entry = some error := by rw [failureOf, hcompare]
      simp [hfailure, Except.map]
    · have hfailure : failureOf db entry = none := by rw [failureOf, hcompare]
      have hrepair : repairOf db entry = repair := by rw [repairOf, hcompare]
      rcases repair with _ | repair <;> simp [hfailure, hrepair, ih, Except.map]

/-- The reconciler on the wrapper. -/
theorem reconcileOn_readOnly (events : List ChainEvent) (db : SubscriptionDB) :
    reconcileOn events (ReadOnlySubscriptionDB.mk db) 86400 =
      (⟨db⟩, match thrown db (replayEvents events 86400).1.entries with
        | none => .ok ⟨foundRepairs events db, (replayEvents events 86400).2 ++
            db.all.filterMap (orphanError (replayEvents events 86400).1)⟩
        | some error => .error error) := by
  have hloop := repairLoop_repairEntryOn_readOnly db (replayEvents events 86400).1.entries []
  rw [reconcileOn]
  simp only [hloop, List.nil_append]
  rcases hthrown : thrown db (replayEvents events 86400).1.entries with _ | error
  · rw [reached_eq hthrown]
    rfl
  · rfl

/-- Where no text of an event contains a colon, a dry run finds the repairs that are made. -/
theorem exists_foundRepairs (hevents : ∀ ev ∈ events, ev.ColonFree)
    (hlegible : Legible events db) :
    ∃ result, (reconcile events db 86400).2 = .ok result ∧
      foundRepairs events db = result.repairs := by
  obtain ⟨result, hresult, hrepairs, -⟩ := exists_result hevents hlegible 86400
  exact ⟨result, congrArg Prod.snd hresult, hrepairs.symm⟩

theorem dryRun_fst : (dryRun events db options).1 = db := by
  rw [dryRun, reconcileOn_readOnly]

/-! ### Pages -/

/-- The page that a dry run shows. -/
def dryPage (events : List ChainEvent) (db : SubscriptionDB) (options : DryRunOptions) :
    DryRunResult :=
  options.page ⟨foundRepairs events db, (replayEvents events 86400).2 ++
    db.all.filterMap (orphanError (replayEvents events 86400).1)⟩

theorem dryRun_eq (hthrown : thrown db (replayEvents events 86400).1.entries = none)
    (options : DryRunOptions) :
    dryRun events db options = (db, .ok (dryPage events db options)) := by
  rw [dryRun, reconcileOn_readOnly, hthrown]
  rfl

section Pages

variable (events) (db) (options)

theorem dryPage_repairs : (dryPage events db options).repairs =
    ((foundRepairs events db).drop options.offset).take options.pageSize := rfl

theorem dryPage_total : (dryPage events db options).total = (foundRepairs events db).length := rfl

theorem dryPage_nextCursor : (dryPage events db options).nextCursor =
    if options.offset + options.pageSize < (foundRepairs events db).length then
      some (encodeCursor (options.offset + options.pageSize)) else none := rfl

end Pages

theorem pageSize_bounds (options : DryRunOptions) :
    0 < options.pageSize ∧ options.pageSize ≤ 500 := by
  unfold DryRunOptions.pageSize
  omega

theorem offset_encodeCursor (limit : Option ℤ) (offset : ℕ) :
    (DryRunOptions.mk limit (some (encodeCursor offset))).offset = offset := by
  simp [DryRunOptions.offset, Option.filter, encodeCursor_ne_empty, decodeCursor_encodeCursor]

/-- The pages of a list of repairs are complete from an offset on. -/
structure CompleteFrom (found : List RepairAction) (offset : ℕ) (pages : List DryRunResult) :
    Prop where
  repairs : pages.flatMap (·.repairs) = found.drop offset
  page : ∀ page ∈ pages, page.repairs.length ≤ 500 ∧ (0 < page.total → 0 < page.repairs.length) ∧
    page.total = found.length

section Following

variable {cursor : Option String}

/-- One page, at an offset where there is a repair, or at the start. -/
theorem page_bounds
    (hoffset : (DryRunOptions.mk limit cursor).offset = 0 ∨
      (DryRunOptions.mk limit cursor).offset < (foundRepairs events db).length) :
    (dryPage events db ⟨limit, cursor⟩).repairs.length ≤ 500 ∧
      (0 < (dryPage events db ⟨limit, cursor⟩).total →
        0 < (dryPage events db ⟨limit, cursor⟩).repairs.length) ∧
      (dryPage events db ⟨limit, cursor⟩).total = (foundRepairs events db).length := by
  obtain ⟨hpos, hle⟩ := pageSize_bounds ⟨limit, cursor⟩
  rw [dryPage_repairs, dryPage_total, List.length_take, List.length_drop]
  omega

section Runs

variable (hthrown : thrown db (replayEvents events 86400).1.entries = none)

include hthrown

/-- The page of a dry run that returns. -/
theorem page_of_dryRun {page : DryRunResult}
    (hrun : dryRun events db ⟨limit, cursor⟩ = (db', .ok page)) :
    db' = db ∧ page = dryPage events db ⟨limit, cursor⟩ := by
  rw [dryRun_eq hthrown] at hrun
  obtain ⟨hdb, hpage⟩ := Prod.mk.inj hrun
  exact ⟨hdb.symm, (Except.ok.inj hpage).symm⟩

/-- Nothing is seen after the last page. -/
theorem pages_iff_of_last (hlast : (dryPage events db ⟨limit, cursor⟩).nextCursor = none)
    (pages : List DryRunResult) :
    Pages events limit db cursor pages db' ↔
      pages = [dryPage events db ⟨limit, cursor⟩] ∧ db' = db := by
  constructor
  · intro h
    cases h with
    | last hrun =>
      obtain ⟨rfl, rfl⟩ := page_of_dryRun hthrown hrun
      exact ⟨rfl, rfl⟩
    | next hrun hnext =>
      obtain ⟨rfl, rfl⟩ := page_of_dryRun hthrown hrun
      cases hlast.symm.trans hnext
  · rintro ⟨rfl, rfl⟩
    exact .last (dryRun_eq hthrown _) hlast

/-- After any other page, the pages from its cursor on are seen. -/
theorem pages_iff_of_next {next : String}
    (hnext : (dryPage events db ⟨limit, cursor⟩).nextCursor = some next)
    (pages : List DryRunResult) :
    Pages events limit db cursor pages db' ↔
      ∃ rest, pages = dryPage events db ⟨limit, cursor⟩ :: rest ∧
        Pages events limit db (some next) rest db' := by
  constructor
  · intro h
    cases h with
    | last hrun hlast =>
      obtain ⟨rfl, rfl⟩ := page_of_dryRun hthrown hrun
      cases hlast.symm.trans hnext
    | next hrun hnext' hrest =>
      obtain ⟨rfl, rfl⟩ := page_of_dryRun hthrown hrun
      obtain rfl := Option.some.inj (hnext'.symm.trans hnext)
      exact ⟨_, rfl, hrest⟩
  · rintro ⟨rest, rfl, hrest⟩
    exact .next (dryRun_eq hthrown _) hnext hrest

/-- **The pages from a cursor on.** They are determined, and they are complete from the offset of
the cursor on. -/
theorem exists_pages (limit : Option ℤ) (cursor : Option String)
    (hoffset : (DryRunOptions.mk limit cursor).offset = 0 ∨
      (DryRunOptions.mk limit cursor).offset < (foundRepairs events db).length) :
    ∃ pages, (∀ pages' db', Pages events limit db cursor pages' db' ↔ pages' = pages ∧ db' = db) ∧
      CompleteFrom (foundRepairs events db) (DryRunOptions.mk limit cursor).offset pages := by
  -- by induction on the repairs that are left
  induction hleft : (foundRepairs events db).length - (DryRunOptions.mk limit cursor).offset
    using Nat.strongRecOn generalizing cursor with
  | ind left ih =>
    have hpage := page_bounds hoffset
    have hrepairs := dryPage_repairs events db ⟨limit, cursor⟩
    have hcursor := dryPage_nextCursor events db ⟨limit, cursor⟩
    obtain ⟨hpos, -⟩ := pageSize_bounds ⟨limit, cursor⟩
    by_cases hmore : (DryRunOptions.mk limit cursor).offset +
        (DryRunOptions.mk limit cursor).pageSize < (foundRepairs events db).length
    · rw [if_pos hmore] at hcursor
      have hnextOffset := offset_encodeCursor limit ((DryRunOptions.mk limit cursor).offset +
        (DryRunOptions.mk limit cursor).pageSize)
      have hlt : (DryRunOptions.mk limit (some (encodeCursor
          ((DryRunOptions.mk limit cursor).offset +
            (DryRunOptions.mk limit cursor).pageSize)))).offset <
              (foundRepairs events db).length := by rwa [hnextOffset]
      obtain ⟨rest, hrest, hcomplete⟩ := ih _ (by omega) _ (.inr hlt) rfl
      refine ⟨dryPage events db ⟨limit, cursor⟩ :: rest, fun pages' db' => ?_, ?_, ?_⟩
      · rw [pages_iff_of_next hthrown hcursor]
        simp only [hrest]
        constructor
        · rintro ⟨_, rfl, rfl, rfl⟩
          exact ⟨rfl, rfl⟩
        · rintro ⟨rfl, rfl⟩
          exact ⟨rest, rfl, rfl, rfl⟩
      · rw [List.flatMap_cons, hcomplete.repairs, hnextOffset, hrepairs, ← List.drop_drop,
          List.take_append_drop]
      · exact List.forall_mem_cons.2 ⟨hpage, hcomplete.page⟩
    · rw [if_neg hmore] at hcursor
      refine ⟨[dryPage events db ⟨limit, cursor⟩], fun pages' db' =>
        pages_iff_of_last hthrown hcursor pages', ?_, ?_⟩
      · rw [List.flatMap_singleton, hrepairs, List.take_of_length_le]
        rw [List.length_drop]
        omega
      · exact List.forall_mem_singleton.2 hpage

end Runs

end Following

/-- **Dry runs.** Where no text of an event contains a colon and the amounts that are compared can
be read, following the cursors from the first page on ends, and shows each repair that `reconcile`
makes once and in order. -/
theorem pagesComplete (hevents : ∀ ev ∈ events, ev.ColonFree) (hlegible : Legible events db)
    (limit : Option ℤ) : PagesComplete events db limit := by
  obtain ⟨pages, hpages, hrepairs, hpage⟩ :=
    exists_pages ((thrown_eq_none_iff hevents _ _).2 hlegible) limit none (.inl rfl)
  obtain ⟨result, hresult, hfound⟩ := exists_foundRepairs hevents hlegible
  rw [hfound] at hrepairs hpage
  exact ⟨fun _ => dryRun_fst, result, pages, hresult, hpages, hrepairs, hpage⟩

/-- Two subscriptions whose keys are looked up under the same parts. -/
def sampleColliding : List ChainEvent :=
  [⟨.subscribe, "a", "b", "c", 100, 10⟩, ⟨.subscribe, "a:b", "c", "d", 100, 20⟩]

/-- With a colon in a text, a run that writes finds its own row under the parts of another key.
Where an amount cannot be read, there are no pages. -/
theorem not_pagesComplete_colliding :
    ¬ PagesComplete sampleColliding .empty (some 50) ∧
      ¬ PagesComplete sampleChainEvents sampleUnread (some 50) := by
  constructor
  · rintro ⟨-, result, pages, hresult, hpages, hrepairs, -⟩
    obtain ⟨pages', hpages', hrepairs', -⟩ := exists_pages (thrown_empty
      (replayEvents sampleColliding 86400).1.entries) (some 50) none (.inl rfl)
    obtain ⟨rfl, -⟩ := (hpages _ _).1 ((hpages' _ _).2 ⟨rfl, rfl⟩)
    have hlength := congrArg (Except.map fun result => result.repairs) hresult
    rw [Except.map, ← hrepairs, hrepairs'] at hlength
    revert hlength
    decide +kernel
  · rintro ⟨-, result, pages, hresult, -⟩
    have hok : (reconcile sampleChainEvents sampleUnread 86400).2.isOk = true := by
      rw [hresult]
      rfl
    revert hok
    decide +kernel

theorem pagesComplete_sample : PagesComplete sampleChainEvents sampleStored (some (-3)) :=
  pagesComplete (by decide) (legible_of_forall (by decide +kernel)) (some (-3))

end SorobanPay
