import SorobanPay.Backend.EventIndexer
import SorobanPay.Foundation.Buckets
import SorobanPay.Foundation.Grouping
import SorobanPay.Foundation.Run
import SorobanPay.Frontend.NativeValues

/-!
# Summaries of payouts

`PayoutSummaryGenerator` of `services/payoutSummaryGenerator.ts` adds up the executed events of a
day or of a week, for each merchant and token, and keeps the totals in `PayoutSummary`. A day ends
at its last second, without the milliseconds of it, and a week ends at its last millisecond. So an
event in the last second of a day, after its start, is in the summary of the week and in that of no
day.

Times are local, in milliseconds from the start of the 1st of January 1970; all days are equally
long and years have four digits. `findMany` returns the rows in the order in which they were made.

## Main definitions

* `saveSummary`, `writeSummaries`, `generateSummaries`: the totals of one period.
* `Call`, `step`: events and calls of the generator.
* `Consistent`: the invariant of the tables.
* `AddsUp`: the summaries of a week and of its days agree.

## Main results

* `mem_values_saveSummary_iff`: one total for each period, merchant and token.
* `hasExact_after`: the totals after the last calls.
* `addsUp_iff`: when the summaries add up.
-/

set_option autoImplicit false

namespace SorobanPay.Payouts

open Foundation EventIndexer Frontend

/-! ### Tables -/

/-- A row of `Event`, with the time at which it was made. -/
structure Event extends EventRow where
  createdAt : ℤ
  deriving DecidableEq, Repr

inductive SummaryType
  | daily
  | weekly
  deriving DecidableEq, Repr

/-- What `findFirst` looks for. -/
@[ext]
structure SummaryKey where
  merchant : String
  startDate : ℤ
  endDate : ℤ
  type : SummaryType
  currency : String
  deriving DecidableEq, Repr

/-- A row of `PayoutSummary`, without its id. -/
structure PayoutSummary extends SummaryKey where
  totalAmount : String
  paymentCount : ℕ
  deriving DecidableEq, Repr

/-- The tables, with the next id. -/
structure Tables where
  events : List Event
  payoutSummaries : InsertionMap ℕ PayoutSummary
  nextId : ℕ

/-! ### The totals of one period -/

/-- `event.token || 'unknown'` -/
def tokenOf (event : Event) : String := if event.token = "" then "unknown" else event.token

/-- One round of the loop that groups the events. -/
def addEvent (groups : InsertionMap String (InsertionMap String (List Event))) (event : Event) :
    InsertionMap String (InsertionMap String (List Event)) :=
  groups.set event.merchant
    (((groups.get event.merchant).getD .empty).push (tokenOf event) event)

/-- `merchantTokenGroups`, as they are listed. -/
def merchantTokenGroups (events : List Event) : List (String × String × List Event) :=
  (events.foldl addEvent .empty).entries.flatMap fun merchantGroups =>
    merchantGroups.2.entries.map fun tokenGroup =>
      (merchantGroups.1, tokenGroup.1, tokenGroup.2)

/-- `totalAmount`; `BigInt` throws if an amount is no number. -/
def totalAmount (events : List Event) : Option ℤ :=
  events.foldlM (fun total event => (bigIntOfText event.amount).map (total + ·)) 0

/-- The summary is updated, or it is made. -/
def saveSummary (db : Tables) (key : SummaryKey) (total : ℤ) (count : ℕ) : Tables :=
  match db.payoutSummaries.entries.find? fun entry => entry.2.toSummaryKey = key with
  | some (id, existing) =>
    { db with
      payoutSummaries := db.payoutSummaries.set id
        { existing with totalAmount := toString total, paymentCount := count } }
  | none =>
    { db with
      payoutSummaries := db.payoutSummaries.set db.nextId
        { toSummaryKey := key, totalAmount := toString total, paymentCount := count }
      nextId := db.nextId + 1 }

/-- The loop over the groups, up to the first one that throws. -/
def writeSummaries (startDate endDate : ℤ) (type : SummaryType) :
    Tables → List (String × String × List Event) → Tables
  | db, [] => db
  | db, (merchant, token, merchantEvents) :: groups =>
    match totalAmount merchantEvents with
    | none => db
    | some total =>
      writeSummaries startDate endDate type
        (saveSummary db ⟨merchant, startDate, endDate, type, token⟩ total merchantEvents.length)
        groups

/-- `generateSummaries`. -/
def generateSummaries (db : Tables) (startDate endDate : ℤ) (type : SummaryType) : Tables :=
  let events := db.events.filter fun event =>
    event.type = .executed && startDate ≤ event.createdAt && event.createdAt ≤ endDate
  if events.length = 0 then db
  else writeSummaries startDate endDate type db (merchantTokenGroups events)

/-! ### Days and weeks -/

def dayMs : ℤ := 24 * 60 * 60 * 1000

/-- The days since the 1st of January 1970. -/
def dayOf (date : ℤ) : ℤ := date / dayMs

/-- `getDay`: the 1st of January 1970 was a Thursday. -/
def getDay (date : ℤ) : ℤ := (dayOf date + 4) % 7

/-- A time of a day. -/
def timeOf (day hours minutes seconds ms : ℤ) : ℤ :=
  day * dayMs + ((hours * 60 + minutes) * 60 + seconds) * 1000 + ms

/-- `date || new Date()` -/
def targetDate (date : Option ℤ) (now : ℤ) : ℤ := date.getD now

/-- `generateDailySummaries`. -/
def generateDailySummaries (db : Tables) (date : Option ℤ) (now : ℤ) : Tables :=
  let day := dayOf (targetDate date now)
  generateSummaries db (timeOf day 0 0 0 0) (timeOf day 23 59 59 0) .daily

/-- The Sunday before a date. -/
def sundayOf (date : ℤ) : ℤ := dayOf date - getDay date

/-- `generateWeeklySummaries`. -/
def generateWeeklySummaries (db : Tables) (date : Option ℤ) (now : ℤ) : Tables :=
  let sunday := sundayOf (targetDate date now)
  generateSummaries db (timeOf sunday 0 0 0 0) (timeOf (sunday + 6) 23 59 59 999) .weekly

/-! ### Runs -/

/-- An event is recorded, or the generator is called. -/
inductive Call
  | record (event : Event)
  | daily (date : Option ℤ) (now : ℤ)
  | weekly (date : Option ℤ) (now : ℤ)

def step (db : Tables) : Call → Tables
  | .record event => { db with events := db.events ++ [event] }
  | .daily date now => generateDailySummaries db date now
  | .weekly date now => generateWeeklySummaries db date now

/-- The tables before the first call. -/
def initial : Tables := ⟨[], .empty, 0⟩

/-! ### The groups of a period -/

theorem get_foldl_addEvent (events : List Event) (merchant token : String) :
    (((events.foldl addEvent .empty).get merchant).getD .empty).get token =
      if (events.filter fun e => e.merchant = merchant && tokenOf e = token) = [] then none
      else some (events.filter fun e => e.merchant = merchant && tokenOf e = token) := by
  induction events using List.reverseRecOn with
  | nil => rfl
  | append_singleton events event ih =>
    rw [List.foldl_append, List.foldl_cons, List.foldl_nil, addEvent, InsertionMap.get_set,
      List.filter_append]
    by_cases hmerchant : merchant = event.merchant
    · subst hmerchant
      rw [if_pos rfl, Option.getD_some, InsertionMap.get_push]
      by_cases htoken : token = tokenOf event
      · subst htoken
        have hsingle : [event].filter (fun e => e.merchant = event.merchant &&
            tokenOf e = tokenOf event) = [event] := by simp
        rw [if_pos rfl, ih, hsingle,
          if_neg (List.append_ne_nil_of_right_ne_nil _ (List.cons_ne_nil event []))]
        split_ifs with hnil
        · rw [hnil, Option.getD_none]
        · rw [Option.getD_some]
      · rw [if_neg htoken, ih]
        simp [Ne.symm htoken]
    · rw [if_neg hmerchant, ih]
      simp [Ne.symm hmerchant]

/-- A group holds the events of its merchant and token. -/
theorem mem_merchantTokenGroups_iff {events group : List Event} {merchant token : String} :
    (merchant, token, group) ∈ merchantTokenGroups events ↔
      group = (events.filter fun e => e.merchant = merchant && tokenOf e = token) ∧
        group ≠ [] := by
  have hget := get_foldl_addEvent events merchant token
  simp only [merchantTokenGroups, List.mem_flatMap, List.mem_map, Prod.mk.injEq, Prod.exists]
  constructor
  · rintro ⟨_, tokenGroups, hmerchant, _, _, htoken, rfl, rfl, rfl⟩
    rw [InsertionMap.mem_entries_iff.1 hmerchant, Option.getD_some,
      InsertionMap.mem_entries_iff.1 htoken] at hget
    split_ifs at hget with hnil
    obtain rfl := Option.some.inj hget
    exact ⟨rfl, hnil⟩
  · rintro ⟨rfl, hne⟩
    rw [if_neg hne] at hget
    rcases hmerchant : (events.foldl addEvent .empty).get merchant with _ | tokenGroups
    · rw [hmerchant] at hget
      exact absurd hget (by simp)
    · rw [hmerchant, Option.getD_some] at hget
      exact ⟨merchant, tokenGroups, InsertionMap.mem_entries_iff.2 hmerchant, token, _,
        InsertionMap.mem_entries_iff.2 hget, rfl, rfl, rfl⟩

/-- The amount of an event is a number. -/
def HasAmount (event : Event) : Bool := (bigIntOfText event.amount).isSome

def amountOf (event : Event) : ℤ := (bigIntOfText event.amount).getD 0

theorem foldlM_amount_eq_some_iff {events : List Event} {start total : ℤ} :
    events.foldlM (fun total event => (bigIntOfText event.amount).map (total + ·)) start =
        some total ↔
      (∀ event ∈ events, HasAmount event = true) ∧ total = start + (events.map amountOf).sum := by
  induction events generalizing start with
  | nil => simpa using eq_comm
  | cons event events ih =>
    rw [List.foldlM_cons, List.forall_mem_cons, List.map_cons, List.sum_cons, HasAmount, amountOf]
    rcases hamount : bigIntOfText event.amount with _ | amount
    · simp
    · simp [ih, add_assoc]

theorem totalAmount_eq_some_iff {events : List Event} {total : ℤ} :
    totalAmount events = some total ↔
      (∀ event ∈ events, HasAmount event = true) ∧ total = (events.map amountOf).sum := by
  rw [totalAmount, foldlM_amount_eq_some_iff, zero_add]

/-! ### One summary for each key -/

/-- The ids are given in order, and no two summaries are of the same period, merchant and token. -/
structure Keyed (db : Tables) : Prop where
  below : db.payoutSummaries.Below db.nextId
  key_inj : ∀ id id' s s', db.payoutSummaries.get id = some s →
    db.payoutSummaries.get id' = some s' → s.toSummaryKey = s'.toSummaryKey → id = id'

section Save

variable {db : Tables} {key : SummaryKey} {total : ℤ} {count : ℕ}

@[simp] theorem events_saveSummary : (saveSummary db key total count).events = db.events := by
  rw [saveSummary]
  split <;> rfl

/-- The summary is written under the id of its key, or under the next one. -/
theorem exists_saveSummary (h : Keyed db) (key : SummaryKey) (total : ℤ) (count : ℕ) :
    ∃ id, (saveSummary db key total count).payoutSummaries =
        db.payoutSummaries.set id ⟨key, toString total, count⟩ ∧
      (saveSummary db key total count).payoutSummaries.Below
        (saveSummary db key total count).nextId ∧
      ∀ id' s, db.payoutSummaries.get id' = some s → (s.toSummaryKey = key ↔ id' = id) := by
  rcases hfind : db.payoutSummaries.entries.find? fun entry => entry.2.toSummaryKey = key with
    _ | ⟨id, existing⟩
  · have hsave : saveSummary db key total count =
        { db with
          payoutSummaries := db.payoutSummaries.set db.nextId ⟨key, toString total, count⟩
          nextId := db.nextId + 1 } := by
      rw [saveSummary, hfind]
    rw [hsave]
    refine ⟨db.nextId, rfl, h.below.set _, fun id' s hs => iff_of_false (fun hkey => ?_) ?_⟩
    · exact absurd (List.find?_eq_none.1 hfind _ (InsertionMap.mem_entries_iff.2 hs))
        (by simp [hkey])
    · rintro rfl
      rw [h.below.get_eq_none] at hs
      cases hs
  · have hget := InsertionMap.mem_entries_iff.1 (List.mem_of_find?_eq_some hfind)
    have hkey : existing.toSummaryKey = key := by simpa using List.find?_some hfind
    have hsave : saveSummary db key total count =
        { db with
          payoutSummaries := db.payoutSummaries.set id ⟨key, toString total, count⟩ } := by
      rw [saveSummary, hfind, ← hkey]
    rw [hsave]
    refine ⟨id, rfl, fun id' s hs => ?_, fun id' s hs => ⟨fun hs' => ?_, ?_⟩⟩
    · rw [InsertionMap.get_set] at hs
      split_ifs at hs with hid
      · exact hid ▸ h.below id existing hget
      · exact h.below id' s hs
    · exact h.key_inj id' id s existing hs hget (hs'.trans hkey.symm)
    · rintro rfl
      rw [hget] at hs
      exact Option.some.inj hs ▸ hkey

/-- **One total for each key**: the summary of the key is the one that is written, the others
stay. -/
theorem mem_values_saveSummary_iff (h : Keyed db) {s : PayoutSummary} :
    s ∈ (saveSummary db key total count).payoutSummaries.values ↔
      s ∈ db.payoutSummaries.values ∧ s.toSummaryKey ≠ key ∨ s = ⟨key, toString total, count⟩ := by
  obtain ⟨id, hset, -, hid⟩ := exists_saveSummary h key total count
  simp only [hset, InsertionMap.mem_values_iff, InsertionMap.get_set]
  constructor
  · rintro ⟨id', hs⟩
    split_ifs at hs with heq
    · exact .inr (Option.some.inj hs).symm
    · exact .inl ⟨⟨id', hs⟩, fun hkey => heq ((hid id' s hs).1 hkey)⟩
  · rintro (⟨⟨id', hs⟩, hkey⟩ | rfl)
    · exact ⟨id', by rw [if_neg fun heq => hkey ((hid id' s hs).2 heq), hs]⟩
    · exact ⟨id, if_pos rfl⟩

theorem Keyed.saveSummary (h : Keyed db) : Keyed (saveSummary db key total count) := by
  obtain ⟨id, hset, hbelow, hid⟩ := exists_saveSummary h key total count
  refine ⟨hbelow, fun id₁ id₂ s₁ s₂ h₁ h₂ hkey => ?_⟩
  rw [hset, InsertionMap.get_set] at h₁ h₂
  split_ifs at h₁ h₂ with heq₁ heq₂ heq₂
  · exact heq₁.trans heq₂.symm
  · exact heq₁.trans ((hid id₂ s₂ h₂).1 (by rw [← hkey, ← Option.some.inj h₁])).symm
  · exact ((hid id₁ s₁ h₁).1 (by rw [hkey, ← Option.some.inj h₂])).trans heq₂.symm
  · exact h.key_inj id₁ id₂ s₁ s₂ h₁ h₂ hkey

end Save

/-! ### Totals that are exact -/

/-- The event is an executed one of this period, merchant and token. -/
def SummaryKey.covers (key : SummaryKey) (event : Event) : Bool :=
  (event.merchant = key.merchant && tokenOf event = key.currency) &&
    (event.type = .executed && key.startDate ≤ event.createdAt && event.createdAt ≤ key.endDate)

theorem SummaryKey.covers_iff {key : SummaryKey} {event : Event} :
    key.covers event = true ↔
      (event.merchant = key.merchant ∧ tokenOf event = key.currency) ∧ event.type = .executed ∧
        key.startDate ≤ event.createdAt ∧ event.createdAt ≤ key.endDate := by
  simp only [covers, Bool.and_eq_true, decide_eq_true_eq, and_assoc]

/-- The events of a period, merchant and token. -/
def Tables.covered (db : Tables) (key : SummaryKey) : List Event := db.events.filter key.covers

/-- The totals are those of the events. -/
def Tables.IsExact (db : Tables) (s : PayoutSummary) : Prop :=
  s.paymentCount = (db.covered s.toSummaryKey).length ∧
    s.totalAmount = toString ((db.covered s.toSummaryKey).map amountOf).sum

/-- There is a summary with the totals of its events. -/
def Tables.HasExact (db : Tables) (key : SummaryKey) : Prop :=
  ∃ s ∈ db.payoutSummaries.values, s.toSummaryKey = key ∧ db.IsExact s

section Exact

variable {db : Tables} {key key' : SummaryKey} {s : PayoutSummary} {total : ℤ} {count : ℕ}

@[simp] theorem isExact_saveSummary :
    (saveSummary db key total count).IsExact s ↔ db.IsExact s := by
  simp only [Tables.IsExact, Tables.covered, events_saveSummary]

/-- The summary of a key with the totals of its events is written. -/
theorem hasExact_saveSummary (h : Keyed db) :
    (saveSummary db key ((db.covered key).map amountOf).sum (db.covered key).length).HasExact key :=
  ⟨_, (mem_values_saveSummary_iff h).2 (.inr rfl), rfl, isExact_saveSummary.2 ⟨rfl, rfl⟩⟩

/-- An exact summary stays when an exact one is written. -/
theorem Tables.HasExact.saveSummary (h : Keyed db) (hexact : db.HasExact key') :
    (saveSummary db key ((db.covered key).map amountOf).sum
      (db.covered key).length).HasExact key' := by
  by_cases hkey : key' = key
  · exact hkey ▸ hasExact_saveSummary h
  · obtain ⟨s, hs, rfl, hexact⟩ := hexact
    exact ⟨s, (mem_values_saveSummary_iff h).2 (.inl ⟨hs, hkey⟩), rfl, isExact_saveSummary.2 hexact⟩

end Exact

section Period

variable {startDate endDate : ℤ} {type : SummaryType} {db : Tables}
  {groups : List (String × String × List Event)}

/-- What every summary that is written preserves holds in the end. -/
theorem writeSummaries_invariant {P : Tables → Prop}
    (hsave : ∀ db merchant token group total, (merchant, token, group) ∈ groups →
      totalAmount group = some total → P db →
      P (saveSummary db ⟨merchant, startDate, endDate, type, token⟩ total group.length))
    (h : P db) : P (writeSummaries startDate endDate type db groups) := by
  induction groups generalizing db with
  | nil => exact h
  | cons group groups ih =>
    obtain ⟨merchant, token, group⟩ := group
    rw [writeSummaries]
    split
    · exact h
    · rename_i total htotal
      exact ih (fun db m t g total hg => hsave db m t g total (List.mem_cons_of_mem _ hg))
        (hsave db merchant token group total List.mem_cons_self htotal h)

/-- The groups of a period are the events that its keys cover. -/
theorem mem_groups_iff (type : SummaryType) {merchant token : String} {group : List Event} :
    (merchant, token, group) ∈ merchantTokenGroups (db.events.filter fun event =>
        event.type = .executed && startDate ≤ event.createdAt && event.createdAt ≤ endDate) ↔
      group = db.covered ⟨merchant, startDate, endDate, type, token⟩ ∧ group ≠ [] := by
  rw [mem_merchantTokenGroups_iff, List.filter_filter]
  rfl

theorem generateSummaries_eq :
    generateSummaries db startDate endDate type =
      writeSummaries startDate endDate type db (merchantTokenGroups (db.events.filter fun event =>
        event.type = .executed && startDate ≤ event.createdAt && event.createdAt ≤ endDate)) := by
  rw [generateSummaries]
  split_ifs with hlength
  · rw [List.length_eq_zero_iff.1 hlength]
    rfl
  · rfl

/-- What an exact summary preserves when it is written, the generator preserves. -/
theorem generateSummaries_invariant {P : Tables → Prop}
    (hsave : ∀ db' merchant token,
      let key : SummaryKey := ⟨merchant, startDate, endDate, type, token⟩
      db.covered key ≠ [] → (∀ event ∈ db.covered key, HasAmount event = true) → P db' →
      P (saveSummary db' key ((db.covered key).map amountOf).sum (db.covered key).length))
    (h : P db) : P (generateSummaries db startDate endDate type) := by
  rw [generateSummaries_eq]
  refine writeSummaries_invariant (fun db' merchant token group total hgroup htotal h' => ?_) h
  obtain ⟨rfl, hne⟩ := (mem_groups_iff type).1 hgroup
  obtain ⟨hamounts, rfl⟩ := totalAmount_eq_some_iff.1 htotal
  exact hsave db' merchant token hne hamounts h'

@[simp] theorem events_generateSummaries :
    (generateSummaries db startDate endDate type).events = db.events :=
  generateSummaries_invariant (P := fun db' => db'.events = db.events)
    (fun _ _ _ _ _ h => events_saveSummary.trans h) rfl

theorem Keyed.generateSummaries (h : Keyed db) :
    Keyed (generateSummaries db startDate endDate type) :=
  generateSummaries_invariant (fun _ _ _ _ _ h' => h'.saveSummary) h

/-- An exact summary is not written, or it is written as it is. -/
theorem Tables.HasExact.writeSummaries {key : SummaryKey} (hkeyed : Keyed db)
    (hgroups : ∀ merchant token group, (merchant, token, group) ∈ groups →
      group = db.covered ⟨merchant, startDate, endDate, type, token⟩) (h : db.HasExact key) :
    (writeSummaries startDate endDate type db groups).HasExact key := by
  suffices hinv : (Payouts.writeSummaries startDate endDate type db groups).events = db.events ∧
      Keyed (Payouts.writeSummaries startDate endDate type db groups) ∧
        (Payouts.writeSummaries startDate endDate type db groups).HasExact key from hinv.2.2
  refine writeSummaries_invariant
    (P := fun db' => db'.events = db.events ∧ Keyed db' ∧ db'.HasExact key) ?_ ⟨rfl, hkeyed, h⟩
  rintro db' merchant token group total hgroup htotal ⟨hevents, hkeyed', h'⟩
  obtain rfl := hgroups merchant token group hgroup
  obtain ⟨-, rfl⟩ := totalAmount_eq_some_iff.1 htotal
  have hcovered : ∀ key, db.covered key = db'.covered key := fun _ => by
    rw [Tables.covered, Tables.covered, hevents]
  rw [hcovered]
  exact ⟨events_saveSummary.trans hevents, hkeyed'.saveSummary, h'.saveSummary hkeyed'⟩

theorem Tables.HasExact.generateSummaries {key : SummaryKey} (hkeyed : Keyed db)
    (h : db.HasExact key) :
    (generateSummaries db startDate endDate type).HasExact key := by
  rw [generateSummaries_eq]
  exact h.writeSummaries hkeyed fun _ _ _ hgroup => ((mem_groups_iff type).1 hgroup).1

/-- If no group throws, all of them are written. -/
theorem hasExact_writeSummaries (hkeyed : Keyed db)
    (hgroups : ∀ merchant token group, (merchant, token, group) ∈ groups →
      group = db.covered ⟨merchant, startDate, endDate, type, token⟩ ∧
        ∀ event ∈ group, HasAmount event = true)
    {merchant token : String} {group : List Event} (hgroup : (merchant, token, group) ∈ groups) :
    (writeSummaries startDate endDate type db groups).HasExact
      ⟨merchant, startDate, endDate, type, token⟩ := by
  induction groups generalizing db with
  | nil => exact absurd hgroup List.not_mem_nil
  | cons first groups ih =>
    obtain ⟨merchant', token', group'⟩ := first
    obtain ⟨rfl, hamounts⟩ := hgroups merchant' token' group' List.mem_cons_self
    have hrest : ∀ total count m t g, (m, t, g) ∈ groups →
        g = (saveSummary db ⟨merchant', startDate, endDate, type, token'⟩ total count).covered
            ⟨m, startDate, endDate, type, t⟩ ∧ ∀ event ∈ g, HasAmount event = true := by
      intro total count m t g hg
      rw [Tables.covered, events_saveSummary]
      exact hgroups m t g (List.mem_cons_of_mem _ hg)
    rw [Payouts.writeSummaries, totalAmount_eq_some_iff.2 ⟨hamounts, rfl⟩]
    rcases List.mem_cons.1 hgroup with heq | hgroup
    · simp only [Prod.mk.injEq] at heq
      obtain ⟨rfl, rfl, -⟩ := heq
      exact (hasExact_saveSummary hkeyed).writeSummaries hkeyed.saveSummary
        fun m t g hg => (hrest _ _ m t g hg).1
    · exact ih hkeyed.saveSummary (hrest _ _) hgroup

/-- **The generator writes the totals of a period**, if all its amounts are numbers. -/
theorem hasExact_generateSummaries (hkeyed : Keyed db)
    (hamounts : ∀ event ∈ db.events, event.type = .executed → startDate ≤ event.createdAt →
      event.createdAt ≤ endDate → HasAmount event = true) {merchant token : String}
    (hne : db.covered ⟨merchant, startDate, endDate, type, token⟩ ≠ []) :
    (generateSummaries db startDate endDate type).HasExact
      ⟨merchant, startDate, endDate, type, token⟩ := by
  rw [generateSummaries_eq]
  refine hasExact_writeSummaries hkeyed (fun m t g hg => ?_) ((mem_groups_iff type).2 ⟨rfl, hne⟩)
  obtain ⟨rfl, -⟩ := (mem_groups_iff type).1 hg
  refine ⟨rfl, fun event hevent => ?_⟩
  obtain ⟨hmem, hcovers⟩ := List.mem_filter.1 hevent
  obtain ⟨-, htype, hstart, hend⟩ := SummaryKey.covers_iff.1 hcovers
  exact hamounts event hmem htype hstart hend

end Period

/-! ### The tables after any calls -/

/-- The period is one that the generator takes. -/
def SummaryKey.Scheduled (key : SummaryKey) : Prop :=
  match key.type with
  | .daily => ∃ day, key.startDate = timeOf day 0 0 0 0 ∧ key.endDate = timeOf day 23 59 59 0
  | .weekly => ∃ sunday, (sunday + 4) % 7 = 0 ∧ key.startDate = timeOf sunday 0 0 0 0 ∧
      key.endDate = timeOf (sunday + 6) 23 59 59 999

/-- The invariant: a summary counts events of its period, some at least, and only such with a number
as their amount. -/
structure Consistent (db : Tables) : Prop extends Keyed db where
  scheduled : ∀ s ∈ db.payoutSummaries.values, s.Scheduled
  pos : ∀ s ∈ db.payoutSummaries.values, 0 < s.paymentCount
  le_countP : ∀ s ∈ db.payoutSummaries.values,
    s.paymentCount ≤ db.events.countP fun event => s.covers event && HasAmount event

theorem consistent_initial : Consistent initial := by
  have hnone : ∀ id, initial.payoutSummaries.get id = none := fun _ => rfl
  have hvalues : initial.payoutSummaries.values = [] := rfl
  refine ⟨⟨fun id s hs => ?_, fun id id' s s' hs => ?_⟩, ?_, ?_, ?_⟩
  · exact absurd ((hnone id).symm.trans hs) (by simp)
  · exact absurd ((hnone id).symm.trans hs) (by simp)
  all_goals rw [hvalues]; exact List.forall_mem_nil _

/-- The period of a call of the generator. -/
def Call.period : Call → Option (ℤ × ℤ × SummaryType)
  | .record _ => none
  | .daily date now =>
    let day := dayOf (targetDate date now)
    some (timeOf day 0 0 0 0, timeOf day 23 59 59 0, .daily)
  | .weekly date now =>
    let sunday := sundayOf (targetDate date now)
    some (timeOf sunday 0 0 0 0, timeOf (sunday + 6) 23 59 59 999, .weekly)

/-- The week starts on a Sunday. -/
theorem add_four_emod_seven_sundayOf (date : ℤ) : (sundayOf date + 4) % 7 = 0 := by
  rw [sundayOf, getDay]
  omega

theorem step_eq_generateSummaries {db : Tables} {call : Call} {startDate endDate : ℤ}
    {type : SummaryType} (h : call.period = some (startDate, endDate, type)) :
    step db call = generateSummaries db startDate endDate type := by
  cases call <;> simp only [Call.period, Option.some.injEq, Prod.mk.injEq, reduceCtorEq] at h <;>
    obtain ⟨rfl, rfl, rfl⟩ := h <;> rfl

theorem scheduled_of_period {call : Call} {startDate endDate : ℤ} {type : SummaryType}
    (h : call.period = some (startDate, endDate, type)) (merchant token : String) :
    SummaryKey.Scheduled ⟨merchant, startDate, endDate, type, token⟩ := by
  cases call with
  | record event => cases h
  | daily date now =>
    simp only [Call.period, Option.some.injEq, Prod.mk.injEq] at h
    obtain ⟨rfl, rfl, rfl⟩ := h
    exact ⟨_, rfl, rfl⟩
  | weekly date now =>
    simp only [Call.period, Option.some.injEq, Prod.mk.injEq] at h
    obtain ⟨rfl, rfl, rfl⟩ := h
    exact ⟨_, add_four_emod_seven_sundayOf _, rfl, rfl⟩

theorem Consistent.generateSummaries {db : Tables} {startDate endDate : ℤ} {type : SummaryType}
    (h : Consistent db)
    (hscheduled : ∀ merchant token,
      SummaryKey.Scheduled ⟨merchant, startDate, endDate, type, token⟩) :
    Consistent (generateSummaries db startDate endDate type) := by
  suffices hinv : (Payouts.generateSummaries db startDate endDate type).events = db.events ∧
      Consistent (Payouts.generateSummaries db startDate endDate type) from hinv.2
  refine generateSummaries_invariant
    (P := fun db' => db'.events = db.events ∧ Consistent db') ?_ ⟨rfl, h⟩
  intro db' merchant token key hne hamounts hdb'
  obtain ⟨hevents, h'⟩ := hdb'
  have hcases : ∀ s ∈ (saveSummary db' key ((db.covered key).map amountOf).sum
      (db.covered key).length).payoutSummaries.values,
      s ∈ db'.payoutSummaries.values ∨
        s = ⟨key, toString ((db.covered key).map amountOf).sum, (db.covered key).length⟩ :=
    fun s hs => ((mem_values_saveSummary_iff h'.toKeyed).1 hs).imp_left And.left
  refine ⟨events_saveSummary.trans hevents, ⟨h'.toKeyed.saveSummary, fun s hs => ?_,
    fun s hs => ?_, fun s hs => ?_⟩⟩
  · rcases hcases s hs with hs | rfl
    · exact h'.scheduled s hs
    · exact hscheduled merchant token
  · rcases hcases s hs with hs | rfl
    · exact h'.pos s hs
    · exact List.length_pos_of_ne_nil hne
  · rw [events_saveSummary]
    rcases hcases s hs with hs | rfl
    · exact h'.le_countP s hs
    · rw [hevents, Tables.covered, ← List.countP_eq_length_filter]
      refine List.countP_mono_left fun event hevent hcovers => ?_
      rw [Bool.and_eq_true]
      exact ⟨hcovers, hamounts event (List.mem_filter.2 ⟨hevent, hcovers⟩)⟩

theorem Consistent.step {db : Tables} (h : Consistent db) (call : Call) :
    Consistent (step db call) := by
  rcases hperiod : call.period with _ | ⟨startDate, endDate, type⟩
  · cases call with
    | record event =>
      refine ⟨⟨h.below, h.key_inj⟩, h.scheduled, h.pos, fun s hs => (h.le_countP s hs).trans ?_⟩
      exact (List.sublist_append_left db.events [event]).countP_le
    | daily date now => cases hperiod
    | weekly date now => cases hperiod
  · rw [step_eq_generateSummaries hperiod]
    exact h.generateSummaries (scheduled_of_period hperiod)

theorem consistent_after (calls : List Call) : Consistent (after step initial calls) :=
  after_invariant (fun _ call h => h.step call) consistent_initial calls

/-- Calls of the generator leave the events and the exact summaries as they are. -/
theorem after_of_period {db : Tables} {calls : List Call}
    (hcalls : ∀ call ∈ calls, call.period ≠ none) (hkeyed : Keyed db) :
    (after step db calls).events = db.events ∧ Keyed (after step db calls) ∧
      ∀ key, db.HasExact key → (after step db calls).HasExact key := by
  have hstep : ∀ db' call, (db'.events = db.events ∧ Keyed db' ∧
      ∀ key, db.HasExact key → db'.HasExact key) → call.period ≠ none →
      (step db' call).events = db.events ∧ Keyed (step db' call) ∧
        ∀ key, db.HasExact key → (step db' call).HasExact key := by
    rintro db' call ⟨hevents, hkeyed', hexact⟩ hperiod
    obtain ⟨⟨startDate, endDate, type⟩, hperiod⟩ := Option.ne_none_iff_exists'.1 hperiod
    rw [step_eq_generateSummaries hperiod]
    exact ⟨events_generateSummaries.trans hevents, hkeyed'.generateSummaries,
      fun key h => (hexact key h).generateSummaries hkeyed'⟩
  exact Along.invariant hstep (along_of_forall_mem fun call hcall _ => hcalls call hcall)
    ⟨rfl, hkeyed, fun _ h => h⟩

/-- **The totals after the last calls** are those of all events, for a period that is called and
whose amounts are numbers. -/
theorem hasExact_after {db : Tables} {calls : List Call}
    (hcalls : ∀ call ∈ calls, call.period ≠ none) (hkeyed : Keyed db) {call : Call}
    (hcall : call ∈ calls) {startDate endDate : ℤ} {type : SummaryType}
    (hperiod : call.period = some (startDate, endDate, type))
    (hamounts : ∀ event ∈ db.events, event.type = .executed → startDate ≤ event.createdAt →
      event.createdAt ≤ endDate → HasAmount event = true) {merchant token : String}
    (hne : db.covered ⟨merchant, startDate, endDate, type, token⟩ ≠ []) :
    (after step db calls).HasExact ⟨merchant, startDate, endDate, type, token⟩ := by
  obtain ⟨before, later, rfl⟩ := List.append_of_mem hcall
  obtain ⟨hevents, hkeyed', -⟩ := after_of_period
    (fun c hc => hcalls c (List.mem_append_left _ hc)) hkeyed
  rw [after_append, after_cons, step_eq_generateSummaries hperiod]
  refine (after_of_period (fun c hc => hcalls c (List.mem_append_right _
    (List.mem_cons_of_mem _ hc))) hkeyed'.generateSummaries).2.2 _ ?_
  rw [← hevents] at hamounts
  refine hasExact_generateSummaries hkeyed' hamounts ?_
  rwa [Tables.covered, hevents]

/-! ### The summaries of a week -/

/-- The time is in the week that starts on this Sunday. -/
def InWeek (sunday time : ℤ) : Prop :=
  timeOf sunday 0 0 0 0 ≤ time ∧ time < timeOf (sunday + 7) 0 0 0 0

instance (sunday time : ℤ) : Decidable (InWeek sunday time) :=
  inferInstanceAs (Decidable (_ ∧ _))

/-- The summaries of a merchant and a token that start in the week. -/
def Tables.summariesOf (db : Tables) (type : SummaryType) (sunday : ℤ)
    (merchant currency : String) : List PayoutSummary :=
  db.payoutSummaries.values.filter fun s =>
    s.type = type ∧ s.merchant = merchant ∧ s.currency = currency ∧ InWeek sunday s.startDate

/-- The number that the total of a summary is written as. -/
def amountOfSummary (s : PayoutSummary) : ℤ := (bigIntOfText s.totalAmount).getD 0

/-- The event is one of those that the summary counts. -/
def Tables.Counts (db : Tables) (s : PayoutSummary) (event : Event) : Prop :=
  s.covers event = true ∧ s.paymentCount = (db.covered s.toSummaryKey).length

instance (db : Tables) (s : PayoutSummary) (event : Event) : Decidable (db.Counts s event) :=
  inferInstanceAs (Decidable (_ ∧ _))

/-- Each executed event of the week is counted in exactly one daily summary, and the totals of the
week are the sums over its days. -/
structure AddsUp (db : Tables) (sunday : ℤ) : Prop where
  counted_once : ∀ event ∈ db.events, event.type = .executed → InWeek sunday event.createdAt →
    (db.payoutSummaries.values.countP fun s => s.type = .daily ∧ db.Counts s event) = 1
  one_week : ∀ merchant currency, (db.summariesOf .weekly sunday merchant currency).length ≤ 1
  paymentCount_eq : ∀ merchant currency,
    ((db.summariesOf .weekly sunday merchant currency).map PayoutSummary.paymentCount).sum =
      ((db.summariesOf .daily sunday merchant currency).map PayoutSummary.paymentCount).sum
  totalAmount_eq : ∀ merchant currency,
    ((db.summariesOf .weekly sunday merchant currency).map amountOfSummary).sum =
      ((db.summariesOf .daily sunday merchant currency).map amountOfSummary).sum

/-- The time is not after the end of its day, as `generateDailySummaries` takes it. -/
def BeforeEndOfDay (time : ℤ) : Prop := time ≤ timeOf (dayOf time) 23 59 59 0

instance (time : ℤ) : Decidable (BeforeEndOfDay time) := inferInstanceAs (Decidable (_ ≤ _))

/-- Two periods of one type that cover an event are the same. -/
theorem SummaryKey.Scheduled.eq_of_covers {key key' : SummaryKey} {event : Event}
    (h : key.Scheduled) (h' : key'.Scheduled) (htype : key.type = key'.type)
    (hcovers : key.covers event = true) (hcovers' : key'.covers event = true) : key = key' := by
  obtain ⟨merchant, startDate, endDate, type, currency⟩ := key
  obtain ⟨merchant', startDate', endDate', type', currency'⟩ := key'
  rw [covers_iff] at hcovers hcovers'
  dsimp only at hcovers hcovers' htype
  obtain ⟨⟨rfl, rfl⟩, -, hstart, hend⟩ := hcovers
  obtain ⟨⟨rfl, rfl⟩, -, hstart', hend'⟩ := hcovers'
  subst htype
  cases type with
  | daily =>
    obtain ⟨day, rfl, rfl⟩ := h
    obtain ⟨day', rfl, rfl⟩ := h'
    have hday : day = day' := by
      simp only [timeOf, dayMs] at hstart hend hstart' hend'
      omega
    rw [hday]
  | weekly =>
    obtain ⟨sunday, hsunday, rfl, rfl⟩ := h
    obtain ⟨sunday', hsunday', rfl, rfl⟩ := h'
    have hday : sunday = sunday' := by
      simp only [timeOf, dayMs] at hstart hend hstart' hend'
      omega
    rw [hday]

theorem SummaryKey.Scheduled.inWeek_of_covers {key : SummaryKey} {event : Event} {sunday : ℤ}
    (h : key.Scheduled) (hsunday : (sunday + 4) % 7 = 0) (hstart : InWeek sunday key.startDate)
    (hcovers : key.covers event = true) : InWeek sunday event.createdAt := by
  obtain ⟨merchant, startDate, endDate, type, currency⟩ := key
  obtain ⟨-, -, hfrom, hto⟩ := covers_iff.1 hcovers
  rw [InWeek] at hstart ⊢
  cases type with
  | daily =>
    obtain ⟨day, rfl, rfl⟩ := h
    simp only [timeOf, dayMs] at *
    omega
  | weekly =>
    obtain ⟨sunday', hsunday', rfl, rfl⟩ := h
    simp only [timeOf, dayMs] at *
    omega

theorem Keyed.nodup_values {db : Tables} (h : Keyed db) : db.payoutSummaries.values.Nodup :=
  List.Nodup.of_map PayoutSummary.toSummaryKey
    ((InsertionMap.nodup_map_values_iff _).2 fun id id' s s' => h.key_inj id id' s s')

theorem Keyed.eq_of_key_eq {db : Tables} (h : Keyed db) {s s' : PayoutSummary}
    (hs : s ∈ db.payoutSummaries.values) (hs' : s' ∈ db.payoutSummaries.values)
    (hkey : s.toSummaryKey = s'.toSummaryKey) : s = s' := by
  obtain ⟨id, hid⟩ := InsertionMap.mem_values_iff.1 hs
  obtain ⟨id', hid'⟩ := InsertionMap.mem_values_iff.1 hs'
  obtain rfl := h.key_inj id id' s s' hid hid' hkey
  exact Option.some.inj (hid.symm.trans hid')

/-- Each executed event of the week is covered by an exact summary of the type, in the week. -/
def Tables.CoversWeek (db : Tables) (type : SummaryType) (sunday : ℤ) : Prop :=
  ∀ event ∈ db.events, event.type = .executed → InWeek sunday event.createdAt →
    ∃ key : SummaryKey, key.type = type ∧ InWeek sunday key.startDate ∧
      key.covers event = true ∧ db.HasExact key

section Week

variable {db : Tables} {type : SummaryType} {sunday : ℤ}

theorem mem_summariesOf_iff {merchant currency : String} {s : PayoutSummary} :
    s ∈ db.summariesOf type sunday merchant currency ↔
      s ∈ db.payoutSummaries.values ∧ s.type = type ∧ s.merchant = merchant ∧
        s.currency = currency ∧ InWeek sunday s.startDate := by
  rw [Tables.summariesOf, List.mem_filter, decide_eq_true_eq]

/-- An event of the week is covered by one summary only, and that one is exact. -/
theorem exists_unique_summary (h : Consistent db) (hweek : db.CoversWeek type sunday)
    {event : Event} (hevent : event ∈ db.events) (htype : event.type = .executed)
    (htime : InWeek sunday event.createdAt) :
    ∃ s ∈ db.payoutSummaries.values, s.type = type ∧ InWeek sunday s.startDate ∧
      s.covers event = true ∧ db.IsExact s ∧
      ∀ s' ∈ db.payoutSummaries.values, s'.type = type → s'.covers event = true → s' = s := by
  obtain ⟨key, hkey, hstart, hcovers, s, hs, rfl, hexact⟩ := hweek event hevent htype htime
  refine ⟨s, hs, hkey, hstart, hcovers, hexact, fun s' hs' htype' hcovers' => ?_⟩
  exact h.eq_of_key_eq hs' hs ((h.scheduled s' hs').eq_of_covers (h.scheduled s hs)
    (htype'.trans hkey.symm) hcovers' hcovers)

/-- The summaries of the week are exact: each of them counts an event. -/
theorem isExact_of_mem_summariesOf (h : Consistent db) (hsunday : (sunday + 4) % 7 = 0)
    (hweek : db.CoversWeek type sunday) {merchant currency : String} {s : PayoutSummary}
    (hs : s ∈ db.summariesOf type sunday merchant currency) : db.IsExact s := by
  obtain ⟨hs, htype, -, -, hstart⟩ := mem_summariesOf_iff.1 hs
  obtain ⟨event, hevent, hcounted⟩ :=
    List.countP_pos_iff.1 ((h.pos s hs).trans_le (h.le_countP s hs))
  have hcovers : s.covers event = true := (Bool.and_eq_true _ _ ▸ hcounted).1
  have hexecuted : event.type = .executed := (SummaryKey.covers_iff.1 hcovers).2.1
  obtain ⟨s', -, -, -, -, hexact, hunique⟩ := exists_unique_summary h hweek hevent hexecuted
    ((h.scheduled s hs).inWeek_of_covers hsunday hstart hcovers)
  exact hunique s hs htype hcovers ▸ hexact

/-- The executed events of the week, of a merchant and a token. -/
def weekEvent (sunday : ℤ) (merchant currency : String) (event : Event) : Bool :=
  event.type = .executed ∧ InWeek sunday event.createdAt ∧ event.merchant = merchant ∧
    tokenOf event = currency

theorem countP_summariesOf (h : Consistent db) (hsunday : (sunday + 4) % 7 = 0)
    (hweek : db.CoversWeek type sunday) (merchant currency : String) {event : Event}
    (hevent : event ∈ db.events) :
    ((db.summariesOf type sunday merchant currency).countP fun s => s.covers event) =
      if weekEvent sunday merchant currency event = true then 1 else 0 := by
  split_ifs with hweekEvent
  · obtain ⟨htype, htime, hmerchant, htoken⟩ := of_decide_eq_true hweekEvent
    obtain ⟨s, hs, hstype, hstart, hcovers, -, hunique⟩ :=
      exists_unique_summary h hweek hevent htype htime
    obtain ⟨hsameMerchant, hsameToken⟩ := (SummaryKey.covers_iff.1 hcovers).1
    refine countP_eq_one (h.nodup_values.filter _) (mem_summariesOf_iff.2 ⟨hs, hstype,
      hsameMerchant.symm.trans hmerchant, hsameToken.symm.trans htoken, hstart⟩) hcovers
      fun s' hs' hcovers' => ?_
    obtain ⟨hs', hstype', -⟩ := mem_summariesOf_iff.1 hs'
    exact hunique s' hs' hstype' hcovers'
  · rw [List.countP_eq_zero]
    intro s hs hcovers
    obtain ⟨hs, -, hmerchant, hcurrency, hstart⟩ := mem_summariesOf_iff.1 hs
    have htime := (h.scheduled s hs).inWeek_of_covers hsunday hstart hcovers
    obtain ⟨⟨hsameMerchant, hsameToken⟩, htype, -⟩ := SummaryKey.covers_iff.1 hcovers
    exact hweekEvent (decide_eq_true ⟨htype, htime, hsameMerchant.trans hmerchant,
      hsameToken.trans hcurrency⟩)

/-- **The summaries of the week add up** to its events, whatever their type. -/
theorem sums_summariesOf (h : Consistent db) (hsunday : (sunday + 4) % 7 = 0)
    (hweek : db.CoversWeek type sunday) (merchant currency : String) :
    ((db.summariesOf type sunday merchant currency).map PayoutSummary.paymentCount).sum =
        (db.events.filter (weekEvent sunday merchant currency)).length ∧
      ((db.summariesOf type sunday merchant currency).map amountOfSummary).sum =
        ((db.events.filter (weekEvent sunday merchant currency)).map amountOf).sum := by
  have hcount := fun event (hevent : event ∈ db.events) =>
    countP_summariesOf h hsunday hweek merchant currency hevent
  have hlength : ∀ l : List Event, (l.map fun _ => 1).sum = l.length := by simp
  constructor
  · rw [← hlength, ← sum_map_sum_filter _ hcount]
    refine congrArg List.sum (List.map_congr_left fun s hs => ?_)
    rw [hlength]
    exact (isExact_of_mem_summariesOf h hsunday hweek hs).1
  · rw [← sum_map_sum_filter _ hcount]
    refine congrArg List.sum (List.map_congr_left fun s hs => ?_)
    rw [amountOfSummary, (isExact_of_mem_summariesOf h hsunday hweek hs).2, bigIntOfText_toString,
      Option.getD_some]
    rfl

/-- A week has one summary of a merchant and a token. -/
theorem length_summariesOf_weekly (h : Consistent db) (hsunday : (sunday + 4) % 7 = 0)
    (merchant currency : String) :
    (db.summariesOf .weekly sunday merchant currency).length ≤ 1 := by
  have hkey : ∀ s ∈ db.summariesOf .weekly sunday merchant currency, s.toSummaryKey =
      ⟨merchant, timeOf sunday 0 0 0 0, timeOf (sunday + 6) 23 59 59 999, .weekly, currency⟩ := by
    intro s hs
    obtain ⟨hs, htype, hmerchant, hcurrency, hstart⟩ := mem_summariesOf_iff.1 hs
    have hscheduled := h.scheduled s hs
    rw [SummaryKey.Scheduled, htype] at hscheduled
    obtain ⟨sunday', hsunday', hstart', hend'⟩ := hscheduled
    rw [InWeek, hstart'] at hstart
    have heq : sunday' = sunday := by
      simp only [timeOf, dayMs] at hstart
      omega
    rw [heq] at hstart' hend'
    exact SummaryKey.ext hmerchant hstart' hend' htype hcurrency
  have hnodup : (db.summariesOf .weekly sunday merchant currency).Nodup := h.nodup_values.filter _
  rcases hrows : db.summariesOf .weekly sunday merchant currency with _ | ⟨s, _ | ⟨s', rest⟩⟩
  · exact Nat.zero_le 1
  · exact le_rfl
  · have hs : s ∈ db.summariesOf .weekly sunday merchant currency := hrows ▸ List.mem_cons_self
    have hs' : s' ∈ db.summariesOf .weekly sunday merchant currency :=
      hrows ▸ List.mem_cons_of_mem s List.mem_cons_self
    have heq := h.eq_of_key_eq (mem_summariesOf_iff.1 hs).1 (mem_summariesOf_iff.1 hs').1
      ((hkey s hs).trans (hkey s' hs').symm)
    rw [hrows, heq] at hnodup
    exact absurd List.mem_cons_self (List.nodup_cons.1 hnodup).1

/-- If the events of the week are all covered, its summaries add up. -/
theorem addsUp_of_coversWeek (h : Consistent db) (hsunday : (sunday + 4) % 7 = 0)
    (hdaily : db.CoversWeek .daily sunday) (hweekly : db.CoversWeek .weekly sunday) :
    AddsUp db sunday where
  counted_once event hevent htype htime := by
    obtain ⟨s, hs, hstype, -, hcovers, hexact, hunique⟩ :=
      exists_unique_summary h hdaily hevent htype htime
    refine countP_eq_one h.nodup_values hs (decide_eq_true ⟨hstype, hcovers, hexact.1⟩)
      fun s' hs' hcounts => ?_
    obtain ⟨hstype', hcovers', -⟩ := of_decide_eq_true hcounts
    exact hunique s' hs' hstype' hcovers'
  one_week := length_summariesOf_weekly h hsunday
  paymentCount_eq merchant currency :=
    (sums_summariesOf h hsunday hweekly merchant currency).1.trans
      (sums_summariesOf h hsunday hdaily merchant currency).1.symm
  totalAmount_eq merchant currency :=
    (sums_summariesOf h hsunday hweekly merchant currency).2.trans
      (sums_summariesOf h hsunday hdaily merchant currency).2.symm

/-- An event that a daily summary counts is not after the end of its day, and its amount is a
number. -/
theorem AddsUp.spec (h : Consistent db) (haddsUp : AddsUp db sunday) {event : Event}
    (hevent : event ∈ db.events) (htype : event.type = .executed)
    (htime : InWeek sunday event.createdAt) :
    BeforeEndOfDay event.createdAt ∧ HasAmount event = true := by
  have hcount := haddsUp.counted_once event hevent htype htime
  obtain ⟨s, hs, hcounts⟩ := List.countP_pos_iff.1 (hcount.symm ▸ Nat.one_pos)
  obtain ⟨hstype, hcovers, hlength⟩ := of_decide_eq_true hcounts
  constructor
  · have hscheduled := h.scheduled s hs
    rw [SummaryKey.Scheduled, hstype] at hscheduled
    obtain ⟨day, hstart, hend⟩ := hscheduled
    obtain ⟨-, -, hfrom, hto⟩ := SummaryKey.covers_iff.1 hcovers
    rw [hstart] at hfrom
    rw [hend] at hto
    rw [BeforeEndOfDay]
    simp only [timeOf, dayOf, dayMs] at *
    omega
  · -- the summary counts no more than the events with a number, and all that it covers
    have hle := h.le_countP s hs
    simp only [hlength, Bool.and_comm (s.covers _), ← List.countP_filter] at hle
    have hall := List.countP_eq_length.1 (le_antisymm List.countP_le_length hle)
    exact hall event (List.mem_filter.2 ⟨hevent, hcovers⟩)

end Week

/-- The call is of the generator, for the day. -/
def Call.IsDaily (day : ℤ) : Call → Prop
  | .daily date now => dayOf (targetDate date now) = day
  | _ => False

/-- The call is of the generator, for the week. -/
def Call.IsWeekly (sunday : ℤ) : Call → Prop
  | .weekly date now => sundayOf (targetDate date now) = sunday
  | _ => False

theorem Call.IsDaily.period_eq {call : Call} {day : ℤ} (h : call.IsDaily day) :
    call.period = some (timeOf day 0 0 0 0, timeOf day 23 59 59 0, .daily) := by
  cases call with
  | daily date now =>
    obtain rfl := h
    rfl
  | record event => exact h.elim
  | weekly date now => exact h.elim

theorem Call.IsWeekly.period_eq {call : Call} {sunday : ℤ} (h : call.IsWeekly sunday) :
    call.period = some (timeOf sunday 0 0 0 0, timeOf (sunday + 6) 23 59 59 999, .weekly) := by
  cases call with
  | weekly date now =>
    obtain rfl := h
    rfl
  | record event => exact h.elim
  | daily date now => exact h.elim

theorem Call.IsWeekly.sunday {call : Call} {sunday : ℤ} (h : call.IsWeekly sunday) :
    (sunday + 4) % 7 = 0 := by
  cases call with
  | weekly date now =>
    obtain rfl := h
    exact add_four_emod_seven_sundayOf _
  | record event => exact h.elim
  | daily date now => exact h.elim

section Final

variable {calls final : List Call} {sunday : ℤ}

theorem events_after_final (hfinal : ∀ call ∈ final, call.period ≠ none) :
    (after step initial (calls ++ final)).events = (after step initial calls).events := by
  rw [after_append]
  exact (after_of_period hfinal (consistent_after calls).toKeyed).1

/-- A week whose days, or which itself, are called in the end is covered. -/
theorem coversWeek_after (hfinal : ∀ call ∈ final, call.period ≠ none) {type : SummaryType}
    (hcalled : ∀ event ∈ (after step initial (calls ++ final)).events, event.type = .executed →
      InWeek sunday event.createdAt → ∃ call ∈ final, ∃ startDate endDate,
        call.period = some (startDate, endDate, type) ∧ InWeek sunday startDate ∧
        startDate ≤ event.createdAt ∧ event.createdAt ≤ endDate ∧
        ∀ time, startDate ≤ time → time ≤ endDate → InWeek sunday time)
    (hamounts : ∀ event ∈ (after step initial (calls ++ final)).events, event.type = .executed →
      InWeek sunday event.createdAt → HasAmount event = true) :
    (after step initial (calls ++ final)).CoversWeek type sunday := by
  intro event hevent htype htime
  obtain ⟨call, hcall, startDate, endDate, hperiod, hstart, hfrom, hto, hwithin⟩ :=
    hcalled event hevent htype htime
  have hcovers : SummaryKey.covers ⟨event.merchant, startDate, endDate, type, tokenOf event⟩ event =
      true := SummaryKey.covers_iff.2 ⟨⟨rfl, rfl⟩, htype, hfrom, hto⟩
  refine ⟨⟨event.merchant, startDate, endDate, type, tokenOf event⟩, rfl, hstart, hcovers, ?_⟩
  rw [events_after_final hfinal] at hevent hamounts
  rw [after_append]
  refine hasExact_after hfinal (consistent_after calls).toKeyed hcall hperiod
    (fun e he htype' hfrom' hto' => hamounts e he htype' (hwithin _ hfrom' hto')) ?_
  exact List.ne_nil_of_mem (List.mem_filter.2 ⟨hevent, hcovers⟩)

/-- **When the summaries add up**: exactly if no executed event of the week is in the last second of
a day, after its start, and the amounts are numbers. -/
theorem addsUp_iff (hfinal : ∀ call ∈ final, call.period ≠ none)
    (hdaily : ∀ day, sunday ≤ day → day < sunday + 7 → ∃ call ∈ final, call.IsDaily day)
    (hweekly : ∃ call ∈ final, call.IsWeekly sunday) :
    AddsUp (after step initial (calls ++ final)) sunday ↔
      ∀ event ∈ (after step initial (calls ++ final)).events, event.type = .executed →
        InWeek sunday event.createdAt →
        BeforeEndOfDay event.createdAt ∧ HasAmount event = true := by
  have hconsistent := consistent_after (calls ++ final)
  obtain ⟨call, hcall, hcalled⟩ := hweekly
  have hsunday := hcalled.sunday
  refine ⟨fun haddsUp event hevent htype htime => haddsUp.spec hconsistent hevent htype htime,
    fun h => ?_⟩
  have hamounts := fun event hevent htype htime => (h event hevent htype htime).2
  refine addsUp_of_coversWeek hconsistent hsunday
    (coversWeek_after hfinal (fun event hevent htype htime => ?_) hamounts)
    (coversWeek_after hfinal (fun event hevent htype htime => ?_) hamounts)
  · have hbefore := (h event hevent htype htime).1
    have hday : sunday ≤ dayOf event.createdAt ∧ dayOf event.createdAt < sunday + 7 := by
      simp only [InWeek, timeOf, dayOf, dayMs] at *
      omega
    obtain ⟨call, hcall', hcalled⟩ := hdaily _ hday.1 hday.2
    refine ⟨call, hcall', timeOf (dayOf event.createdAt) 0 0 0 0,
      timeOf (dayOf event.createdAt) 23 59 59 0, hcalled.period_eq, ?_, ?_, hbefore,
      fun time hfrom hto => ?_⟩ <;>
    · simp only [InWeek, timeOf, dayOf, dayMs] at *
      omega
  · refine ⟨call, hcall, timeOf sunday 0 0 0 0, timeOf (sunday + 6) 23 59 59 999,
      hcalled.period_eq, ?_, ?_, ?_, fun time hfrom hto => ?_⟩ <;>
    · simp only [InWeek, timeOf, dayMs] at *
      omega

end Final

/-- The calls for each day of a week, and for the week. -/
def callsOfWeek (sunday : ℤ) : List Call :=
  [0, 1, 2, 3, 4, 5, 6].map (fun i => Call.daily (some ((sunday + i) * dayMs)) 0) ++
    [.weekly (some (sunday * dayMs)) 0]

theorem exists_isDaily_callsOfWeek {sunday day : ℤ} (hfrom : sunday ≤ day)
    (hto : day < sunday + 7) : ∃ call ∈ callsOfWeek sunday, call.IsDaily day := by
  refine ⟨.daily (some (day * dayMs)) 0, List.mem_append_left _ (List.mem_map.2 ⟨day - sunday, ?_,
    by rw [add_sub_cancel]⟩), Int.mul_ediv_cancel day (by decide)⟩
  simp only [List.mem_cons, List.not_mem_nil]
  omega

def sampleEvent (createdAt : ℤ) : Event :=
  ⟨⟨.executed, "GS", "GM", "CT", "5", 0⟩, createdAt⟩

theorem addsUp_iff_sample :
    AddsUp (after step initial ([.record (sampleEvent (timeOf 4 12 0 0 0))] ++ callsOfWeek 3)) 3 :=
  (addsUp_iff (by decide)
    (fun _ hfrom hto => exists_isDaily_callsOfWeek hfrom hto)
    ⟨.weekly (some (3 * dayMs)) 0, List.mem_concat_self, by rw [Call.IsWeekly]; decide⟩).2
    (by decide)

/-- A payment half a second before midnight is counted in no daily summary. -/
theorem not_addsUp_last_second :
    ¬AddsUp (after step initial ([.record (sampleEvent (timeOf 4 23 59 59 500))] ++ callsOfWeek 3))
      3 := by
  intro h
  have hspec := @AddsUp.spec _ 3 (consistent_after _) h (sampleEvent (timeOf 4 23 59 59 500))
    (by decide) rfl (by decide)
  exact absurd hspec.1 (by decide)

end SorobanPay.Payouts
