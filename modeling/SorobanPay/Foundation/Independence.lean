import Mathlib.Data.List.Basic

/-!
# Operations on independent parts

A family of operations `f b x` on a common state `b`, one for each name `x`, with a report
`report b x` on what the operation of `x` does in `b`. The operations are *independent* when those
of different names commute, none changes the report of another, and repeating an operation at once
does nothing and reports so. Then a sequence of operations depends on nothing but the names in it
(`Independent.foldl_eq`), and the operation of a name takes effect at its first occurrence only,
with the report it has at the start (`Independent.getElem?_reports`).

Names may be restricted to those with a property, as two parts may fail to be independent of a
third.

## Main definitions

* `Independent`: a family of independent operations.
* `reports`: what a sequence of operations reports.

## Main results

* `Independent.foldl_eq`: sequences of the same names have the same effect.
* `Independent.getElem?_reports`, `Independent.mem_reports_iff`, `Independent.reports_of_nodup`:
  what is reported.
* `reports_eq_of_simulation`: states that a relation cannot tell apart.
-/

set_option autoImplicit false

namespace Foundation

variable {α β : Type}

/-- The operations `f` with the reports `report` are independent for the names with `P`. -/
structure Independent (f : β → α → β) (report : β → α → Bool) (P : α → Prop) : Prop where
  comm : ∀ x y, P x → P y → x ≠ y → ∀ b, f (f b x) y = f (f b y) x
  report_of_ne : ∀ x y, P x → P y → x ≠ y → ∀ b, report (f b x) y = report b y
  absorb : ∀ x, P x → ∀ b, f (f b x) x = f b x
  report_self : ∀ x, P x → ∀ b, report (f b x) x = false

/-- What the operations of a list report, one after another. -/
def reports (f : β → α → β) (report : β → α → Bool) : β → List α → List (α × Bool)
  | _, [] => []
  | b, x :: l => (x, report b x) :: reports f report (f b x) l

section Reports

variable {f : β → α → β} {report : β → α → Bool}

@[simp] theorem map_fst_reports (b : β) (l : List α) :
    (reports f report b l).map Prod.fst = l := by
  induction l generalizing b with
  | nil => rfl
  | cons x l ih => rw [reports, List.map_cons, ih]

@[simp] theorem length_reports (b : β) (l : List α) :
    (reports f report b l).length = l.length := by
  simpa only [List.length_map] using congrArg List.length (map_fst_reports b l)

theorem reports_append (b : β) (l l' : List α) :
    reports f report b (l ++ l') = reports f report b l ++ reports f report (l.foldl f b) l' := by
  induction l generalizing b with
  | nil => rfl
  | cons x l ih => rw [List.cons_append, reports, ih, reports, List.cons_append, List.foldl_cons]

/-- A relation that the operations keep, and that leaves no report to tell the states apart, is one
between the effects of any sequence of operations, which report the same. -/
theorem reports_eq_of_simulation {R : β → β → Prop} {P : α → Prop}
    (hreport : ∀ b b' x, P x → R b b' → report b x = report b' x)
    (hstep : ∀ b b' x, P x → R b b' → R (f b x) (f b' x)) {b b' : β} (h : R b b') {l : List α}
    (hl : ∀ x ∈ l, P x) :
    reports f report b l = reports f report b' l ∧ R (l.foldl f b) (l.foldl f b') := by
  induction l generalizing b b' with
  | nil => exact ⟨rfl, h⟩
  | cons x l ih =>
    have hx := hl x List.mem_cons_self
    obtain ⟨hreports, hfold⟩ := ih (hstep b b' x hx h) fun y hy => hl y (List.mem_cons_of_mem x hy)
    exact ⟨by rw [reports, reports, hreport b b' x hx h, hreports], hfold⟩

end Reports

namespace Independent

variable {f : β → α → β} {report : β → α → Bool} {P : α → Prop} {x : α} {l l' : List α}

/-- An operation may be made before or after a sequence of operations. -/
theorem foldl_comm (h : Independent f report P) (hx : P x) (hl : ∀ y ∈ l, P y) (b : β) :
    l.foldl f (f b x) = f (l.foldl f b) x := by
  induction l generalizing b with
  | nil => rfl
  | cons y l ih =>
    have hy := hl y List.mem_cons_self
    have hswap : f (f b x) y = f (f b y) x := by
      rcases eq_or_ne x y with rfl | hne
      · rfl
      · exact h.comm x y hx hy hne b
    rw [List.foldl_cons, List.foldl_cons, hswap]
    exact ih (fun z hz => hl z (List.mem_cons_of_mem y hz)) (f b y)

/-- An operation that a sequence contains has nothing left to do after it. -/
theorem foldl_absorb (h : Independent f report P) (hl : ∀ y ∈ l, P y) (hx : x ∈ l) (b : β) :
    f (l.foldl f b) x = l.foldl f b := by
  induction l generalizing b with
  | nil => cases hx
  | cons y l ih =>
    have hl' : ∀ z ∈ l, P z := fun z hz => hl z (List.mem_cons_of_mem y hz)
    rw [List.foldl_cons]
    rcases List.mem_cons.1 hx with rfl | hx
    · have hself := hl x List.mem_cons_self
      rw [← h.foldl_comm hself hl' (f b x), h.absorb x hself b]
    · exact ih hl' hx (f b y)

/-- A sequence has nothing left to do after one with the same names. -/
theorem foldl_foldl (h : Independent f report P) (hl : ∀ y ∈ l, P y) (hsub : ∀ y ∈ l', y ∈ l)
    (b : β) : l'.foldl f (l.foldl f b) = l.foldl f b := by
  induction l' with
  | nil => rfl
  | cons y l' ih =>
    rw [List.foldl_cons, h.foldl_absorb hl (hsub y List.mem_cons_self) b]
    exact ih fun z hz => hsub z (List.mem_cons_of_mem y hz)

/-- Two sequences commute. -/
theorem foldl_foldl_comm (h : Independent f report P) (hl : ∀ y ∈ l, P y) (hl' : ∀ y ∈ l', P y)
    (b : β) : l'.foldl f (l.foldl f b) = l.foldl f (l'.foldl f b) := by
  induction l' generalizing b with
  | nil => rfl
  | cons y l' ih =>
    have hy := hl' y List.mem_cons_self
    rw [List.foldl_cons, List.foldl_cons, ← h.foldl_comm hy hl b]
    exact ih (fun z hz => hl' z (List.mem_cons_of_mem y hz)) (f b y)

/-- **Sequences of the same names have the same effect.** -/
theorem foldl_eq (h : Independent f report P) (hl : ∀ y ∈ l, P y) (hmem : ∀ y, y ∈ l ↔ y ∈ l')
    (b : β) : l.foldl f b = l'.foldl f b := by
  have hl' : ∀ y ∈ l', P y := fun y hy => hl y ((hmem y).2 hy)
  calc l.foldl f b
      = l'.foldl f (l.foldl f b) := (h.foldl_foldl hl (fun y hy => (hmem y).2 hy) b).symm
    _ = l.foldl f (l'.foldl f b) := h.foldl_foldl_comm hl hl' b
    _ = l'.foldl f b := h.foldl_foldl hl' (fun y hy => (hmem y).1 hy) b

/-- What is reported at a place of a sequence. -/
theorem getElem?_reports (h : Independent f report P) (hl : ∀ y ∈ l, P y) (b : β) (i : ℕ) :
    (reports f report b l)[i]? = some (x, true) ↔
      l[i]? = some x ∧ x ∉ l.take i ∧ report b x = true := by
  induction l generalizing b i with
  | nil => simp [reports]
  | cons y l ih =>
    have hy := hl y List.mem_cons_self
    have hl' : ∀ z ∈ l, P z := fun z hz => hl z (List.mem_cons_of_mem y hz)
    cases i with
    | zero =>
      simp only [reports, List.getElem?_cons_zero, Option.some.injEq, Prod.mk.injEq,
        List.take_zero, List.not_mem_nil, not_false_eq_true, true_and]
      constructor
      · rintro ⟨rfl, hreport⟩
        exact ⟨rfl, hreport⟩
      · rintro ⟨rfl, hreport⟩
        exact ⟨rfl, hreport⟩
    | succ i =>
      rw [reports, List.getElem?_cons_succ, List.getElem?_cons_succ, List.take_succ_cons,
        List.mem_cons, not_or, ih hl']
      constructor
      · rintro ⟨hat, hnot, hreport⟩
        have hx : P x := hl' x (List.mem_of_getElem? hat)
        have hne : x ≠ y := by
          rintro rfl
          rw [h.report_self x hx b] at hreport
          cases hreport
        exact ⟨hat, ⟨hne, hnot⟩, by rwa [← h.report_of_ne y x hy hx hne.symm b]⟩
      · rintro ⟨hat, ⟨hne, hnot⟩, hreport⟩
        have hx : P x := hl' x (List.mem_of_getElem? hat)
        exact ⟨hat, hnot, by rwa [h.report_of_ne y x hy hx (Ne.symm hne) b]⟩

/-- The names that a sequence reports are those in it that are reported at the start. -/
theorem mem_reports_iff (h : Independent f report P) (hl : ∀ y ∈ l, P y) (b : β) :
    (x, true) ∈ reports f report b l ↔ x ∈ l ∧ report b x = true := by
  induction l generalizing b with
  | nil => simp [reports]
  | cons y l ih =>
    have hy := hl y List.mem_cons_self
    have hl' : ∀ z ∈ l, P z := fun z hz => hl z (List.mem_cons_of_mem y hz)
    rw [reports, List.mem_cons, List.mem_cons, ih hl', Prod.mk.injEq, eq_comm (a := true)]
    rcases eq_or_ne x y with rfl | hne
    · simp [h.report_self x hy b]
    · simp only [hne, false_and, false_or]
      exact and_congr_right fun hx => by rw [h.report_of_ne y x hy (hl' x hx) hne.symm b]

/-- Names that occur once report what they do at the start. -/
theorem reports_of_nodup (h : Independent f report P) (hl : ∀ y ∈ l, P y) (hnodup : l.Nodup)
    (b : β) : reports f report b l = l.map fun x => (x, report b x) := by
  induction l generalizing b with
  | nil => rfl
  | cons y l ih =>
    have hy := hl y List.mem_cons_self
    have hl' : ∀ z ∈ l, P z := fun z hz => hl z (List.mem_cons_of_mem y hz)
    obtain ⟨hnot, hnodup⟩ := List.nodup_cons.1 hnodup
    rw [reports, ih hl' hnodup, List.map_cons]
    refine congrArg _ (List.map_congr_left fun x hx => ?_)
    rw [h.report_of_ne y x hy (hl' x hx) (fun heq => hnot (heq ▸ hx)) b]

end Independent

end Foundation
