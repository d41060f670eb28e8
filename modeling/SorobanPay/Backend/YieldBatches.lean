import Mathlib.Algebra.Order.Field.Rat
import SorobanPay.Foundation.Attempts
import SorobanPay.Backend.YieldEngine

/-!
# Batches with bad positions

`processBatch` catches what the calculation of a position throws, and goes on with a result that
says `skipped`. This result is made from the yield sources of the position, which is just what may
be wrong with it. If they cannot be read, the whole batch is rejected.

## Main definitions

* `WellFormed`: positions that pass every check.
* `HasSources`: positions whose yield sources can be read.
* `BatchIsolated`: what a bad position does not spoil.

## Main results

* `succeeds_calculatePositionYield`: what is calculated are the well-formed positions.
* `succeeds_skippedResult`: what can be skipped.
* `batchIsolated_iff`: when a batch is not spoiled.
-/

set_option autoImplicit false

namespace SorobanPay.YieldEngine

open Foundation

variable {N : Type} {J : Script N}

/-! ### Positions -/

/-- The value can be read, and its yield sources are a list of values that can be read. -/
def HasSources (position : Value N) : Prop :=
  ∃ items, position.get "yieldSources" = .ok (.array items) ∧ ∀ s ∈ items, s.isNullish = false

/-- The identifier is truthy, the principal is a number, the yield sources can be read, the last
time is a date that is valid, and the status is one of the three. -/
structure WellFormed (J : Script N) (position : Value N) : Prop where
  id : ∃ v, position.get "id" = .ok v ∧ J.truthyValue v = true
  principal : ∃ n, position.get "principal" = .ok (.number n) ∧ J.isNaN n = false
  yieldSources : HasSources position
  lastCalculatedAt : ∃ t, position.get "lastCalculatedAt" = .ok (.date (some t))
  status : ∃ s ∈ statuses, position.get "status" = .ok (.string s)

theorem succeeds_get {v : Value N} {key : String} : Succeeds (v.get key) ↔ v.isNullish = false := by
  cases v <;> simp [Value.get, Value.isNullish]

theorem succeeds_sourceWeight {source : Value N} :
    Succeeds (sourceWeight J source) ↔ source.isNullish = false := by
  rw [sourceWeight, succeeds_bind_of_forall (P := True) fun _ _ => by simp, and_true, succeeds_get]

theorem succeeds_totalWeight {items : List (Value N)} :
    Succeeds (totalWeight J items) ↔ ∀ s ∈ items, s.isNullish = false := by
  refine succeeds_foldlM fun sum source => ?_
  rw [succeeds_bind_of_forall (P := True) fun _ _ => by simp, and_true, succeeds_sourceWeight]

theorem succeeds_weightedApy {items : List (Value N)} :
    Succeeds (weightedApy J items) ↔ ∀ s ∈ items, s.isNullish = false := by
  refine succeeds_foldlM fun sum source => ?_
  rw [succeeds_bind_of_forall (P := source.isNullish = false) fun _ _ => ?_, succeeds_get, and_self]
  rw [succeeds_bind_of_forall (P := True) fun _ _ => by simp, and_true, succeeds_sourceWeight]

/-- The rates of a list of sources can be combined if each of them can be read. -/
theorem succeeds_calculateEffectiveApy {items : List (Value N)} :
    Succeeds (calculateEffectiveApy J (.array items)) ↔ ∀ s ∈ items, s.isNullish = false := by
  rw [calculateEffectiveApy, lengthIsZero, succeeds_bind_of_ok rfl]
  cases items with
  | nil => simp
  | cons item items =>
    rw [List.isEmpty_cons, if_neg (by decide)]
    rw [succeeds_bind_of_forall (P := ∀ s ∈ item :: items, s.isNullish = false) fun _ _ => ?_,
      succeeds_totalWeight, and_self]
    rw [succeeds_bind_of_forall (P := True) fun _ _ => by simp, and_true, succeeds_weightedApy]

theorem succeeds_buildSourceBreakdown {items : List (Value N)} :
    Succeeds (buildSourceBreakdown J (.array items)) ↔ ∀ s ∈ items, s.isNullish = false := by
  rw [buildSourceBreakdown, succeeds_mapM]
  refine forall₂_congr fun source _ => ?_
  rw [succeeds_bind_of_forall fun _ _ => by
    rw [succeeds_bind_of_forall fun _ _ => by
      rw [succeeds_bind_of_forall (P := True) fun _ _ => by simp, and_true, succeeds_sourceWeight]]]
  simp only [succeeds_get, and_self]

/-- The breakdown needs a list. -/
theorem not_succeeds_buildSourceBreakdown {sources : Value N}
    (h : ∀ items, sources ≠ .array items) : ¬ Succeeds (buildSourceBreakdown J sources) := by
  cases sources with
  | array items => exact absurd rfl (h items)
  | _ =>
    rw [buildSourceBreakdown, succeeds_bind]
    · rintro ⟨_, _, hthrow⟩
      exact not_succeeds_error _ hthrow
    · rintro items ⟨⟩

theorem check_eq_ok_iff {b : Bool} {message : String} {u : Unit} :
    check b message = .ok u ↔ b = true := by
  cases b <;> simp [check]

theorem isNumber_iff {v : Value N} :
    J.isNumber v = true ↔ ∃ n, v = .number n ∧ J.isNaN n = false := by
  cases v <;> simp [Script.isNumber]

theorem isArray_iff {v : Value N} : v.isArray = true ↔ ∃ items, v = .array items := by
  cases v <;> simp [Value.isArray]

theorem time?_eq_some_iff {v : Value N} {t : ℤ} : v.time? = some t ↔ v = .date (some t) := by
  cases v <;> simp [Value.time?]

theorem any_isString_iff {status : Value N} :
    (statuses.any fun s => status.isString s) = true ↔ ∃ s ∈ statuses, status = .string s := by
  rw [List.any_eq_true]
  refine exists_congr fun s => and_congr_right fun _ => ?_
  cases status <;> simp [Value.isString]

theorem truthyValue_getOptional {position : Value N} {key : String} :
    J.truthyValue (position.getOptional key) = true ↔
      ∃ v, position.get key = .ok v ∧ J.truthyValue v = true := by
  rw [Value.getOptional]
  cases position.get key <;> simp [Except.toOption, Script.truthyValue]

/-- What passes the checks. -/
theorem validatePosition_eq_ok_iff {position : Value N} {t : ℤ} :
    validatePosition J position = .ok t ↔
      (∃ v, position.get "id" = .ok v ∧ J.truthyValue v = true) ∧
        (∃ n, position.get "principal" = .ok (.number n) ∧ J.isNaN n = false) ∧
        (∃ items, position.get "yieldSources" = .ok (.array items)) ∧
        position.get "lastCalculatedAt" = .ok (.date (some t)) ∧
        ∃ s ∈ statuses, position.get "status" = .ok (.string s) := by
  simp only [validatePosition, bind_eq_ok_iff, check_eq_ok_iff, truthyValue_getOptional,
    isNumber_iff, isArray_iff, any_isString_iff, Option.isSome_iff_exists, time?_eq_some_iff]
  constructor
  · rintro ⟨_, hid, _, hprincipal, _, ⟨n, rfl, hn⟩, _, hsources, _, ⟨items, rfl⟩, _, hlast, _,
      ⟨t', rfl⟩, _, hstatus, _, ⟨s, hs, rfl⟩, ht⟩
    obtain rfl : t' = t := Except.ok.inj ht
    exact ⟨hid, ⟨n, hprincipal, hn⟩, ⟨items, hsources⟩, hlast, s, hs, hstatus⟩
  · rintro ⟨hid, ⟨n, hprincipal, hn⟩, ⟨items, hsources⟩, hlast, s, hs, hstatus⟩
    exact ⟨(), hid, _, hprincipal, (), ⟨n, rfl, hn⟩, _, hsources, (), ⟨items, rfl⟩, _, hlast, (),
      ⟨t, rfl⟩, _, hstatus, (), ⟨s, hs, rfl⟩, rfl⟩

/-- **What is calculated** are the well-formed positions. -/
theorem succeeds_calculatePositionYield {position : Value N} {now : ℤ} :
    Succeeds (calculatePositionYield J position now) ↔ WellFormed J position := by
  constructor
  · intro h
    rw [calculatePositionYield, succeeds_bind] at h
    obtain ⟨t, hvalid, h⟩ := h
    obtain ⟨hid, hprincipal, ⟨items, hitems⟩, hlast, hstatus⟩ := validatePosition_eq_ok_iff.1 hvalid
    obtain ⟨_, _, h⟩ := succeeds_bind.1 h
    obtain ⟨_, _, h⟩ := succeeds_bind.1 h
    rw [succeeds_bind_of_ok hitems, succeeds_bind] at h
    obtain ⟨_, hrate, _⟩ := h
    exact ⟨hid, hprincipal, ⟨items, hitems, succeeds_calculateEffectiveApy.1 ⟨_, hrate⟩⟩,
      ⟨t, hlast⟩, hstatus⟩
  · rintro ⟨hid, hprincipal, ⟨items, hitems, hread⟩, ⟨t, hlast⟩, hstatus⟩
    have hvalid := validatePosition_eq_ok_iff.2
      ⟨hid, hprincipal, ⟨items, hitems⟩, hlast, hstatus⟩
    obtain ⟨id, hid, -⟩ := hid
    obtain ⟨n, hprincipal, -⟩ := hprincipal
    obtain ⟨s, -, hstatus⟩ := hstatus
    obtain ⟨rate, hrate⟩ := (succeeds_calculateEffectiveApy (J := J)).2 hread
    obtain ⟨shares, hshares⟩ := (succeeds_buildSourceBreakdown (J := J)).2 hread
    rw [calculatePositionYield, succeeds_bind_of_ok hvalid, succeeds_bind_of_ok hid,
      succeeds_bind_of_ok hprincipal, succeeds_bind_of_ok hitems, succeeds_bind_of_ok hrate,
      succeeds_bind_of_ok hstatus]
    split_ifs
    · rw [succeeds_bind_of_ok hshares]
      exact succeeds_ok _
    · rw [succeeds_bind_of_ok hshares]
      exact succeeds_ok _

/-- **What can be skipped** are the positions whose yield sources can be read. -/
theorem succeeds_skippedResult {position : Value N} {now : ℤ} :
    Succeeds (skippedResult J position now) ↔ HasSources position := by
  constructor
  · intro h
    rw [skippedResult, succeeds_bind] at h
    obtain ⟨sources, hsources, h⟩ := h
    obtain ⟨_, _, h⟩ := succeeds_bind.1 h
    obtain ⟨_, _, h⟩ := succeeds_bind.1 h
    obtain ⟨_, _, h⟩ := succeeds_bind.1 h
    obtain ⟨shares, hshares, -⟩ := succeeds_bind.1 h
    by_cases harray : ∃ items, sources = .array items
    · obtain ⟨items, rfl⟩ := harray
      exact ⟨items, hsources, succeeds_buildSourceBreakdown.1 ⟨shares, hshares⟩⟩
    · exact absurd ⟨shares, hshares⟩
        (not_succeeds_buildSourceBreakdown fun items heq => harray ⟨items, heq⟩)
  · rintro ⟨items, hitems, hread⟩
    have hget : ∀ key, Succeeds (position.get key) := fun _ =>
      succeeds_get.2 (succeeds_get.1 ⟨_, hitems⟩)
    obtain ⟨id, hid⟩ := hget "id"
    obtain ⟨principal, hprincipal⟩ := hget "principal"
    obtain ⟨rate, hrate⟩ := (succeeds_calculateEffectiveApy (J := J)).2 hread
    obtain ⟨shares, hshares⟩ := (succeeds_buildSourceBreakdown (J := J)).2 hread
    rw [skippedResult, succeeds_bind_of_ok hitems, succeeds_bind_of_ok hid,
      succeeds_bind_of_ok hrate, succeeds_bind_of_ok hprincipal, succeeds_bind_of_ok hshares]
    exact succeeds_ok _

theorem status_of_skippedResult {position : Value N} {now : ℤ} {result : YieldCalculationResult N}
    (h : skippedResult J position now = .ok result) : result.status = .skipped := by
  rw [skippedResult, bind_eq_ok_iff] at h
  obtain ⟨_, -, h⟩ := h
  obtain ⟨_, -, h⟩ := bind_eq_ok_iff.1 h
  obtain ⟨_, -, h⟩ := bind_eq_ok_iff.1 h
  obtain ⟨_, -, h⟩ := bind_eq_ok_iff.1 h
  obtain ⟨_, -, h⟩ := bind_eq_ok_iff.1 h
  exact Except.ok.inj h ▸ rfl

/-! ### Batches -/

open Classical in
/-- There is a result for each position in order: what is calculated for a well-formed one alone,
and `skipped` for a malformed one, for which `onFailure` is called once. -/
def BatchIsolated (J : Script N) (now : ℤ) (positions : List (Value N)) : Prop :=
  ∃ results, (processBatch J now positions).2 = .ok results ∧
    List.Forall₂ (fun position result =>
      (WellFormed J position → calculatePositionYield J position now = .ok result) ∧
        (¬ WellFormed J position → result.status = .skipped)) positions results ∧
    List.Forall₂ (fun position call => position.get "id" = .ok call.positionId)
      (positions.filter fun position => ¬ WellFormed J position) (processBatch J now positions).1

variable {now : ℤ} {position : Value N} {positions : List (Value N)}
  {result : YieldCalculationResult N}

theorem batchIsolated_nil : BatchIsolated J now [] := ⟨[], rfl, .nil, .nil⟩

theorem processBatch_of_ok (h : calculatePositionYield J position now = .ok result) :
    processBatch J now (position :: positions) = ((processBatch J now positions).1,
      (processBatch J now positions).2.map (result :: ·)) := by
  rw [processBatch, h]

/-- A batch goes on after a position that can be skipped. -/
theorem processBatch_of_skipped {message : String} {id : Value N}
    (h : calculatePositionYield J position now = .error message) (hid : position.get "id" = .ok id)
    (hskip : skippedResult J position now = .ok result) :
    processBatch J now (position :: positions) =
      (⟨id, message, now⟩ :: (processBatch J now positions).1,
        (processBatch J now positions).2.map (result :: ·)) := by
  rw [processBatch, h, hid, hskip]

/-- A batch is rejected with a position that cannot be skipped. -/
theorem processBatch_of_not_hasSources (h : ¬ HasSources position) :
    ∃ e, (processBatch J now (position :: positions)).2 = .error e := by
  obtain ⟨message, herror⟩ := exists_error (x := calculatePositionYield J position now)
    fun hcalc => h (succeeds_calculatePositionYield.1 hcalc).yieldSources
  obtain ⟨e, hskip⟩ := exists_error (x := skippedResult J position now)
    fun hskip => h (succeeds_skippedResult.1 hskip)
  rw [processBatch, herror]
  cases position.get "id" with
  | error e' => exact ⟨e', rfl⟩
  | ok id => exact ⟨e, by rw [hskip]⟩

theorem map_cons_eq_ok_iff {ε α : Type} {x : Except ε (List α)} {a : α} {l : List α} :
    x.map (a :: ·) = .ok l ↔ ∃ l', x = .ok l' ∧ a :: l' = l := by
  cases x with
  | error e => simp [Except.map]
  | ok l' => simp [Except.map]

/-- **One position.** A batch is isolated if its first position can be skipped and the others are
isolated. -/
theorem batchIsolated_cons :
    BatchIsolated J now (position :: positions) ↔
      HasSources position ∧ BatchIsolated J now positions := by
  by_cases hsources : HasSources position
  swap
  · obtain ⟨e, he⟩ : ∃ e, (processBatch J now (position :: positions)).2 = .error e :=
      processBatch_of_not_hasSources hsources
    constructor
    · rintro ⟨results, hresults, -⟩
      rw [he] at hresults
      cases hresults
    · exact fun h => absurd h.1 hsources
  · rw [and_iff_right hsources, BatchIsolated, BatchIsolated]
    by_cases hwell : WellFormed J position
    · obtain ⟨result, hresult⟩ : Succeeds (calculatePositionYield J position now) :=
        succeeds_calculatePositionYield.2 hwell
      rw [processBatch_of_ok hresult, List.filter_cons_of_neg (by simpa using hwell)]
      simp only [map_cons_eq_ok_iff]
      constructor
      · rintro ⟨_, ⟨results, hresults, rfl⟩, hmatch, hcalls⟩
        exact ⟨results, hresults, (List.forall₂_cons.1 hmatch).2, hcalls⟩
      · rintro ⟨results, hresults, hmatch, hcalls⟩
        exact ⟨_, ⟨results, hresults, rfl⟩,
          .cons ⟨fun _ => hresult, fun hnot => absurd hwell hnot⟩ hmatch, hcalls⟩
    · obtain ⟨message, herror⟩ := exists_error (x := calculatePositionYield J position now)
        fun hcalc => hwell (succeeds_calculatePositionYield.1 hcalc)
      obtain ⟨result, hskip⟩ : Succeeds (skippedResult J position now) :=
        succeeds_skippedResult.2 hsources
      obtain ⟨items, hitems, -⟩ := id hsources
      obtain ⟨id, hid⟩ := (succeeds_get (v := position)).2 (succeeds_get.1 ⟨_, hitems⟩)
      rw [processBatch_of_skipped herror hid hskip, List.filter_cons_of_pos (by simpa using hwell)]
      simp only [map_cons_eq_ok_iff, List.forall₂_cons]
      constructor
      · rintro ⟨_, ⟨results, hresults, rfl⟩, hmatch, -, hcalls⟩
        exact ⟨results, hresults, (List.forall₂_cons.1 hmatch).2, hcalls⟩
      · rintro ⟨results, hresults, hmatch, hcalls⟩
        exact ⟨_, ⟨results, hresults, rfl⟩,
          .cons ⟨fun h => absurd h hwell, fun _ => status_of_skippedResult hskip⟩ hmatch, hid,
          hcalls⟩

/-- Rational numbers with whole powers. -/
def rationals : Script ℚ where
  ofInt n := n
  add a b := a + b
  sub a b := a - b
  mul a b := a * b
  div a b := a / b
  pow a b := a ^ b.num
  lt a b := a < b
  isNaN _ := false
  toNumber _ := 0
  toText _ := ""
  truthy n := n ≠ 0

/-- A position that was stored without its yield sources. -/
def sampleMalformed : Value ℚ :=
  .object [("id", .string "bad"), ("principal", .number 100), ("status", .string "active"),
    ("lastCalculatedAt", .date (some 0))]

end SorobanPay.YieldEngine
