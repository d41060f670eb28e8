import Mathlib.Algebra.Order.BigOperators.Group.List
import Mathlib.Analysis.SpecialFunctions.Pow.Real
import SorobanPay.Backend.YieldBatches

/-!
# Backfilled yields

`backfillHistoricalYield` goes through the hours from a start in steps, and lets the principal of
each step earn until the next. If numbers are exact, this is the same as letting the principal of
the start earn all the time.

## Main definitions

* `exactReals`, `exact`: exact arithmetic, with any conversions.
* `effectiveRate`, `growth`: what a list of sources earns in a year, and in a day.
* `wholeHours`: the hours between two dates.

## Main results

* `calculateEffectiveApy_toValue`: the rate that is computed.
* `updatedPrincipal_toValue`: the principal after some hours.
* `backfillHistoricalYield_composes`: the snapshots.
-/

set_option autoImplicit false

namespace SorobanPay.YieldEngine

open Foundation

/-! ### Exact numbers -/

/-- The arithmetic of the real numbers. -/
noncomputable def exactReals : Arithmetic ℝ where
  ofInt n := n
  add a b := a + b
  sub a b := a - b
  mul a b := a * b
  div a b := a / b
  pow a b := a ^ b
  lt a b := a < b
  isNaN _ := false

/-- Real numbers with any conversions. -/
noncomputable def exact (C : Conversions ℝ) : Script ℝ := { exactReals, C with }

/-- `weight ?? 1`. -/
noncomputable def YieldSource.share (source : YieldSource ℝ) : ℝ := source.weight.getD 1

/-- The rate of a year, weighted by the shares. -/
noncomputable def effectiveRate (sources : List (YieldSource ℝ)) : ℝ :=
  if 0 < (sources.map YieldSource.share).sum then
    (sources.map fun source => source.apy * source.share).sum /
      (sources.map YieldSource.share).sum
  else 0

/-- What becomes of one unit in a day. -/
noncomputable def growth (sources : List (YieldSource ℝ)) : ℝ := 1 + effectiveRate sources / 365

variable (C : Conversions ℝ)

theorem sourceWeight_toValue (source : YieldSource ℝ) :
    sourceWeight (exact C) source.toValue = .ok (.number source.share) := by
  rcases source with ⟨name, apy, _ | w⟩
  · simp [sourceWeight, YieldSource.toValue, Value.get, YieldSource.share, List.lookup_cons,
      Value.orElse, Value.isNullish, exact, exactReals]
  · simp [sourceWeight, YieldSource.toValue, Value.get, YieldSource.share, List.lookup_cons,
      Value.orElse, Value.isNullish]

theorem get_apy_toValue (source : YieldSource ℝ) :
    source.toValue.get "apy" = .ok (.number source.apy) := by
  simp [YieldSource.toValue, Value.get, List.lookup_cons]

theorem totalWeight_toValue (sources : List (YieldSource ℝ)) :
    totalWeight (exact C) (sources.map YieldSource.toValue) =
      .ok (.number (sources.map YieldSource.share).sum) := by
  have hzero : (Value.number ((exact C).ofInt 0)) = Value.number (0 : ℝ) := by
    simp [exact, exactReals]
  rw [totalWeight, hzero, List.foldlM_map, List.sum_eq_foldl, List.foldl_map]
  refine foldlM_of_forall Value.number (fun sum source _ => ?_) 0
  rw [sourceWeight_toValue]
  rfl

theorem weightedApy_toValue (sources : List (YieldSource ℝ)) :
    weightedApy (exact C) (sources.map YieldSource.toValue) =
      .ok (sources.map fun source => source.apy * source.share).sum := by
  have hzero : (exact C).ofInt 0 = (0 : ℝ) := by simp [exact, exactReals]
  rw [weightedApy, hzero, List.foldlM_map, List.sum_eq_foldl, List.foldl_map]
  refine foldlM_of_forall id (fun sum source _ => ?_) 0
  rw [sourceWeight_toValue, get_apy_toValue]
  rfl

/-- **The rate that is computed** is the weighted one. -/
theorem calculateEffectiveApy_toValue (sources : List (YieldSource ℝ)) :
    calculateEffectiveApy (exact C) (.array (sources.map YieldSource.toValue)) =
      .ok (effectiveRate sources) := by
  rw [calculateEffectiveApy, lengthIsZero, bind_ok]
  cases sources with
  | nil => simp [effectiveRate, exact, exactReals]
  | cons source sources =>
    rw [List.map_cons, List.isEmpty_cons, if_neg (by decide), ← List.map_cons]
    rw [totalWeight_toValue, bind_ok, weightedApy_toValue, bind_ok]
    simp [effectiveRate, exact, exactReals, Script.number]

theorem succeeds_buildSourceBreakdown_toValue (sources : List (YieldSource ℝ)) :
    Succeeds (buildSourceBreakdown (exact C) (.array (sources.map YieldSource.toValue))) := by
  refine succeeds_buildSourceBreakdown.2 fun s hs => ?_
  obtain ⟨source, -, rfl⟩ := List.mem_map.1 hs
  rfl

/-! ### One position -/

variable {C} {p : VaultPosition ℝ} {t now : ℤ}

theorem validatePosition_toValue (hid : p.id ≠ "") (ht : p.lastCalculatedAt = some t) :
    validatePosition (exact C) p.toValue = .ok t := by
  refine validatePosition_eq_ok_iff.2
    ⟨⟨.string p.id, rfl, by simpa [Script.truthyValue] using hid⟩, ⟨p.principal, rfl, rfl⟩,
      ⟨_, rfl⟩, congrArg (fun t => Except.ok (Value.date t)) ht, p.status.text, ?_, rfl⟩
  cases p.status <;> decide

variable (p now) in
/-- A position without an id is not calculated. -/
theorem calculatePositionYield_of_id_eq (hid : p.id = "") :
    calculatePositionYield (exact C) p.toValue now = .error "Position is missing an id" := by
  have hget : p.toValue.getOptional "id" = .string "" := congrArg Value.string hid
  rw [calculatePositionYield, validatePosition]
  simp only [hget]
  rfl

variable (C p now) in
/-- **The principal after some hours.** -/
theorem updatedPrincipal_toValue (hid : p.id ≠ "") (hactive : p.status = .active)
    (ht : p.lastCalculatedAt = some t) :
    ∃ result, calculatePositionYield (exact C) p.toValue now = .ok result ∧
      result.updatedPrincipal = .number (p.principal *
        growth p.yieldSources ^ ((getHoursElapsed t now : ℝ) / 24)) := by
  obtain ⟨shares, hshares⟩ := succeeds_buildSourceBreakdown_toValue C p.yieldSources
  have hsources : p.toValue.get "yieldSources" =
      .ok (.array (p.yieldSources.map YieldSource.toValue)) := rfl
  have hstatus : p.toValue.get "status" = .ok (.string VaultStatus.active.text) := by
    rw [← hactive]
    rfl
  have hprincipal : p.toValue.get "principal" = .ok (.number p.principal) := rfl
  have hget : p.toValue.get "id" = .ok (.string p.id) := rfl
  rw [calculatePositionYield, validatePosition_toValue hid ht, bind_ok, hget, bind_ok, hprincipal,
    bind_ok, hsources, bind_ok, calculateEffectiveApy_toValue, bind_ok, hstatus, bind_ok,
    if_neg (by decide), hshares, bind_ok]
  refine ⟨_, rfl, ?_⟩
  simp [exact, exactReals, Script.number, growth]
  ring

/-! ### Snapshots -/

/-- The hours from one date to the other, none if a date is invalid. -/
def wholeHours (start stop : Option ℤ) : List ℕ :=
  match start, stop with
  | some start, some stop => List.range ((stop - start) / hourMs + 1).toNat
  | _, _ => []

/-- The position with the start as the time of its last calculation. -/
def VaultPosition.since (p : VaultPosition ℝ) (start : Option ℤ) : VaultPosition ℝ :=
  { p with lastCalculatedAt := start }

theorem growth_pos (h : ∀ s ∈ p.yieldSources, 0 ≤ s.apy ∧ ∀ w ∈ s.weight, 0 ≤ w) :
    0 < growth p.yieldSources := by
  have hshare : ∀ s ∈ p.yieldSources, 0 ≤ s.share := by
    intro s hs
    rw [YieldSource.share]
    cases hw : s.weight with
    | none => exact zero_le_one
    | some w => exact (h s hs).2 w hw
  have hrate : 0 ≤ effectiveRate p.yieldSources := by
    rw [effectiveRate]
    split_ifs with hpos
    · refine div_nonneg (List.sum_nonneg fun x hx => ?_) hpos.le
      obtain ⟨s, hs, rfl⟩ := List.mem_map.1 hx
      exact mul_nonneg (h s hs).1 (hshare s hs)
    · exact le_rfl
  rw [growth]
  positivity

/-- The position that a step of the loop calculates. -/
theorem put_toValue (x : ℝ) (t : Option ℤ) :
    (p.toValue.put "principal" (.number x)).put "lastCalculatedAt" (.date t) =
      { p with principal := x, lastCalculatedAt := t }.toValue := by
  simp [VaultPosition.toValue, Value.put, setEntry]

theorem getHoursElapsed_add (start : ℤ) (h : ℕ) :
    getHoursElapsed start (start + h * hourMs) = h := by
  rw [getHoursElapsed, hourMs]
  omega

/-- The principal after some hours. -/
noncomputable def VaultPosition.principalAfter (p : VaultPosition ℝ) (h : ℕ) : ℝ :=
  p.principal * growth p.yieldSources ^ ((h : ℝ) / 24)

/-- What an hour of the position alone comes to. -/
theorem updatedPrincipal_since (hid : p.id ≠ "") (hactive : p.status = .active) (start : ℤ)
    (h : ℕ) :
    ∃ result, calculatePositionYield (exact C) (p.since (some start)).toValue
        (start + h * hourMs) = .ok result ∧
      result.updatedPrincipal = .number (p.principalAfter h) := by
  have hsince : (p.since (some start)).lastCalculatedAt = some start := rfl
  obtain ⟨result, hresult, hupdated⟩ :=
    updatedPrincipal_toValue C (p.since (some start)) (start + h * hourMs) hid hactive hsince
  rw [getHoursElapsed_add, Int.cast_natCast] at hupdated
  exact ⟨result, hresult, hupdated⟩

variable {k : ℕ+} {hours start : ℤ}

/-- The hours of a step. -/
theorem getHoursElapsed_previousTime (j : ℕ) :
    getHoursElapsed (previousTime start k (k * j)) (start + (k * j : ℕ) * hourMs) =
      ((k * j - k * (j - 1) : ℕ) : ℤ) := by
  cases j with
  | zero => simp [previousTime, getHoursElapsed]
  | succ j =>
    have hne : (k : ℕ) * (j + 1) ≠ 0 := Nat.mul_ne_zero k.2.ne' (Nat.succ_ne_zero j)
    have hmul : (k : ℕ) * (j + 1) = k * j + k := Nat.mul_succ k j
    rw [previousTime, if_neg hne, getHoursElapsed, hourMs, Nat.add_sub_cancel, hmul]
    generalize (k : ℕ) * j = m
    omega

variable (C start) in
/-- **One step of the loop** earns what is missing from the hours before. -/
theorem updatedPrincipal_step (hid : p.id ≠ "") (hactive : p.status = .active)
    (hgrowth : 0 < growth p.yieldSources) (j : ℕ) :
    ∃ result, calculatePositionYield (exact C)
        ((p.toValue.put "principal" (.number (p.principalAfter (k * (j - 1))))).put
          "lastCalculatedAt" (.date (some (previousTime start k (k * j)))))
        (start + (k * j : ℕ) * hourMs) = .ok result ∧
      result.updatedPrincipal = .number (p.principalAfter (k * j)) := by
  rw [put_toValue]
  generalize hstep : ({ p with
    principal := p.principalAfter (k * (j - 1))
    lastCalculatedAt := some (previousTime start k (k * j)) } : VaultPosition ℝ) = q
  have hprincipal : q.principal = p.principalAfter (k * (j - 1)) := hstep ▸ rfl
  have hsources : q.yieldSources = p.yieldSources := hstep ▸ rfl
  have hlast : q.lastCalculatedAt = some (previousTime start k (k * j)) := hstep ▸ rfl
  obtain ⟨result, hresult, hupdated⟩ := updatedPrincipal_toValue C q
    (start + (k * j : ℕ) * hourMs) (hstep ▸ hid) (hstep ▸ hactive) hlast
  refine ⟨result, hresult, hupdated.trans (congrArg Value.number ?_)⟩
  have hle : (k : ℕ) * (j - 1) ≤ k * j := Nat.mul_le_mul_left _ (Nat.sub_le j 1)
  rw [hprincipal, hsources, getHoursElapsed_previousTime, VaultPosition.principalAfter,
    VaultPosition.principalAfter, mul_assoc, ← Real.rpow_add hgrowth, ← add_div,
    Int.cast_natCast, ← Nat.cast_add, Nat.add_sub_cancel' hle]

/-- A step that throws ends the loop. -/
theorem backfillFrom_of_error {J : Script ℝ} {position running : Value ℝ} {hour : ℕ} {e : String}
    (hle : (hour : ℤ) ≤ hours)
    (h : calculatePositionYield J ((position.put "principal" running).put "lastCalculatedAt"
      (.date (some (previousTime start k hour)))) (start + hour * hourMs) = .error e) :
    backfillFrom J position start hours k hour running = .error e := by
  rw [backfillFrom, if_pos hle]
  dsimp only
  rw [h, bind_error]

/-- A step that does not throw adds its snapshot. -/
theorem backfillFrom_of_ok {J : Script ℝ} {position running : Value ℝ} {hour : ℕ}
    {result : YieldCalculationResult ℝ} (hle : (hour : ℤ) ≤ hours)
    (h : calculatePositionYield J ((position.put "principal" running).put "lastCalculatedAt"
      (.date (some (previousTime start k hour)))) (start + hour * hourMs) = .ok result) :
    backfillFrom J position start hours k hour running =
      (backfillFrom J position start hours k (hour + k) result.updatedPrincipal).map
        (⟨hour, result.updatedPrincipal, result.accruedYield, result.effectiveApy⟩ :: ·) := by
  rw [backfillFrom, if_pos hle]
  dsimp only
  rw [h, bind_ok]
  cases backfillFrom J position start hours k (hour + k) result.updatedPrincipal <;> rfl

variable (C start) in
/-- **The loop** from a step on: a snapshot for each step that is left. -/
theorem backfillFrom_toValue (hid : p.id ≠ "") (hactive : p.status = .active)
    (hgrowth : 0 < growth p.yieldSources) (n j : ℕ)
    (hn : ∀ i : ℕ, ((k * (j + i) : ℕ) : ℤ) ≤ hours ↔ i < n) :
    (backfillFrom (exact C) p.toValue start hours k (k * j)
        (.number (p.principalAfter (k * (j - 1))))).map
        (List.map fun snapshot => (snapshot.hour, snapshot.principal)) =
      .ok ((List.range' j n).map fun i => (k * i, .number (p.principalAfter (k * i)))) := by
  induction n generalizing j with
  | zero =>
    have hdone : ¬ ((k * j : ℕ) : ℤ) ≤ hours := by simpa using hn 0
    rw [backfillFrom, if_neg hdone]
    rfl
  | succ n ih =>
    have hround : ((k * j : ℕ) : ℤ) ≤ hours := by simpa using hn 0
    have hnext : ∀ i : ℕ, ((k * (j + 1 + i) : ℕ) : ℤ) ≤ hours ↔ i < n := fun i => by
      rw [Nat.add_assoc, Nat.add_comm 1 i, hn (i + 1), Nat.add_lt_add_iff_right]
    obtain ⟨result, hresult, hupdated⟩ := updatedPrincipal_step C start hid hactive hgrowth j
    have hrest := ih (j + 1) hnext
    rw [Nat.add_sub_cancel, Nat.mul_succ, ← hupdated] at hrest
    rw [backfillFrom_of_ok hround hresult]
    rcases hloop : backfillFrom (exact C) p.toValue start hours k (k * j + k)
      result.updatedPrincipal with e | rest
    · rw [hloop] at hrest
      cases hrest
    · rw [hloop] at hrest
      have hmap : rest.map (fun snapshot => (snapshot.hour, snapshot.principal)) =
          (List.range' (j + 1) n).map fun i => ((k : ℕ) * i, .number (p.principalAfter (k * i))) :=
        Except.ok.inj hrest
      rw [List.range'_succ, List.map_cons, ← hmap, ← hupdated]
      rfl

/-- The multiples of a step up to some hour. -/
theorem filter_dvd_range (k : ℕ+) (m n : ℕ) (hn : ∀ i : ℕ, k * i < m ↔ i < n) :
    (List.range m).filter (fun h => (k : ℕ) ∣ h) = (List.range n).map fun i => (k : ℕ) * i := by
  have hrange : ((List.range m).filter fun h => (k : ℕ) ∣ h).Pairwise (· < ·) :=
    List.pairwise_lt_range.filter _
  have hmap : ((List.range n).map fun i => (k : ℕ) * i).Pairwise (· < ·) :=
    List.pairwise_map.2 (List.pairwise_lt_range.imp fun h => Nat.mul_lt_mul_of_pos_left h k.2)
  refine hrange.eq_of_mem_iff hmap fun h => ?_
  rw [List.mem_filter, List.mem_range, List.mem_map, decide_eq_true_iff]
  constructor
  · rintro ⟨hlt, i, rfl⟩
    exact ⟨i, List.mem_range.2 ((hn i).1 hlt), rfl⟩
  · rintro ⟨i, hi, rfl⟩
    exact ⟨(hn i).2 (List.mem_range.1 hi), i, rfl⟩

/-- The multiples of the interval among the whole hours. -/
theorem filter_wholeHours (stop : ℤ) (hlast : (stop - start) / hourMs = hours) :
    (wholeHours (some start) (some stop)).filter (fun h => (k : ℕ) ∣ h) =
      (List.range (hours / (k : ℕ) + 1).toNat).map fun i => (k : ℕ) * i := by
  rw [wholeHours, hlast]
  refine filter_dvd_range k _ _ fun i => ?_
  have hk : (0 : ℤ) < (k : ℕ) := by exact_mod_cast k.2
  have hdiv : (i : ℤ) ≤ hours / (k : ℕ) ↔ (i : ℤ) * (k : ℕ) ≤ hours := Int.le_ediv_iff_mul_le hk
  have hcast : ((k * i : ℕ) : ℤ) = i * (k : ℕ) := by
    push_cast
    ring
  omega

/-- Without an id the first step throws, on both ways. -/
theorem backfillFrom_of_id_eq (hid : p.id = "") {n : ℕ} (hn : 0 < n ↔ 0 ≤ hours) :
    (backfillFrom (exact C) p.toValue start hours k 0 (.number p.principal)).map
        (List.map fun snapshot => (snapshot.hour, snapshot.principal)) =
      List.mapM (fun h : ℕ => (calculatePositionYield (exact C) (p.since (some start)).toValue
          (start + h * hourMs)).map fun result => (h, result.updatedPrincipal))
        ((List.range n).map fun i => (k : ℕ) * i) := by
  cases n with
  | zero =>
    have hdone : ¬ ((0 : ℕ) : ℤ) ≤ hours := fun h => absurd (hn.2 h) (Nat.lt_irrefl 0)
    rw [backfillFrom, if_neg hdone]
    rfl
  | succ n =>
    have hfirst : backfillFrom (exact C) p.toValue start hours k 0 (.number p.principal) =
        .error "Position is missing an id" := by
      refine backfillFrom_of_error (hn.1 (Nat.succ_pos n)) ?_
      rw [put_toValue]
      exact calculatePositionYield_of_id_eq _ _ hid
    rw [hfirst, List.range_succ_eq_map, List.map_cons, List.mapM_cons,
      calculatePositionYield_of_id_eq (p.since (some start)) _ hid]
    rfl

/-- **Backfill composes.** The snapshots are for the multiples of the interval among the whole
hours, and the principal of each is what the position alone comes to from the start until then. -/
theorem backfillHistoricalYield_composes (C : Conversions ℝ) (p : VaultPosition ℝ)
    (hactive : p.status = .active)
    (hsources : ∀ s ∈ p.yieldSources, 0 ≤ s.apy ∧ ∀ w ∈ s.weight, 0 ≤ w)
    (start stop : Option ℤ) (k : ℕ+) :
    (backfillHistoricalYield (exact C) p.toValue start stop k).map
        (List.map fun snapshot => (snapshot.hour, snapshot.principal)) =
      List.mapM (fun h : ℕ => (calculatePositionYield (exact C) (p.since start).toValue
          (start.getD 0 + h * hourMs)).map fun result => (h, result.updatedPrincipal))
        ((wholeHours start stop).filter fun h => (k : ℕ) ∣ h) := by
  rcases start with _ | start
  · rfl
  rcases stop with _ | stop
  · rfl
  have hstart : backfillHistoricalYield (exact C) p.toValue (some start) (some stop) k =
      backfillFrom (exact C) p.toValue start ((stop - start) / hourMs) k 0 (.number p.principal) :=
    rfl
  generalize hlast : (stop - start) / hourMs = hours at hstart
  have hk : (0 : ℤ) < (k : ℕ) := by exact_mod_cast k.2
  have hsteps : ∀ i : ℕ, ((k * (0 + i) : ℕ) : ℤ) ≤ hours ↔ i < (hours / (k : ℕ) + 1).toNat := by
    intro i
    have hdiv : (i : ℤ) ≤ hours / (k : ℕ) ↔ (i : ℤ) * (k : ℕ) ≤ hours := Int.le_ediv_iff_mul_le hk
    have hcast : ((k * (0 + i) : ℕ) : ℤ) = i * (k : ℕ) := by
      push_cast
      ring
    omega
  rw [filter_wholeHours stop hlast, hstart, Option.getD_some]
  by_cases hid : p.id = ""
  · exact backfillFrom_of_id_eq hid (by simpa using (hsteps 0).symm)
  · have hloop := backfillFrom_toValue C start hid hactive (growth_pos hsources) _ 0 hsteps
    have hprincipal : p.principalAfter (k * (0 - 1)) = p.principal := by
      simp [VaultPosition.principalAfter]
    rw [hprincipal, Nat.mul_zero] at hloop
    rw [hloop, ← List.range_eq_range']
    refine ((mapM_of_forall (g := fun h : ℕ => (h, .number (p.principalAfter h)))
      fun h _ => ?_).trans ?_).symm
    · obtain ⟨result, hresult, hupdated⟩ := updatedPrincipal_since (C := C) hid hactive start h
      rw [hresult, ← hupdated]
      rfl
    · rw [List.map_map]
      rfl

/-- A position with two sources, one of them without a weight. -/
noncomputable def samplePosition : VaultPosition ℝ :=
  ⟨"pos-1", 1000, .active, [⟨"staking", 12 / 100, none⟩, ⟨"fees", 4 / 100, some 3⟩], none⟩

/-- The snapshots of two days and a half, every six hours. -/
theorem backfillHistoricalYield_composes_sample :
    (backfillHistoricalYield (exact ⟨fun _ => 0, fun _ => "", fun _ => true⟩)
        samplePosition.toValue (some 0) (some 216000000) 6).map
        (List.map fun snapshot => (snapshot.hour, snapshot.principal)) =
      List.mapM (fun h : ℕ => (calculatePositionYield
          (exact ⟨fun _ => 0, fun _ => "", fun _ => true⟩) (samplePosition.since (some 0)).toValue
          (0 + h * hourMs)).map fun result => (h, result.updatedPrincipal))
        ((wholeHours (some 0) (some 216000000)).filter fun h => ((6 : ℕ+) : ℕ) ∣ h) :=
  backfillHistoricalYield_composes _ samplePosition rfl
    (by simp [samplePosition]; norm_num) (some 0) (some 216000000) 6

end SorobanPay.YieldEngine
