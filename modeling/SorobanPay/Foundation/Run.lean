import Mathlib.Data.List.Basic
import Mathlib.Algebra.Order.Group.Nat
import Mathlib.Tactic.Common

/-!
# Runs of a deterministic machine and labelled paths

A deterministic machine is a function `next : S → I → S`. Its run on a list of inputs ends in
`after next s is`; what it shows on the way is `history next observe s is`, the observations of
all its steps in order; and `Along next P s is` says that every step of the run satisfies `P` at
the state it is taken from.

A specification is a labelled relation `R : T → L → T → Prop`, and `Path R t ls t'` is a run of it
with labels `ls`. A machine refines a specification when the observations of each of its steps
are the labels of a path between the abstractions of the two states; then the history of a whole
run is the labels of a path (`path_history`).

## Main definitions

* `after`, `history`, `Along`: runs of a machine.
* `logged`: the machine that keeps the observations it has made.
* `Path`: runs of a labelled relation.
* `Raised`: a label raises a flag that no later label lowers.

## Main results

* `Along.invariant`, `after_invariant`: the induction rules for invariants of runs.
* `along_iff_of_invariant`: conditions on steps that an invariant makes the same.
* `exists_of_history_eq`, `after_history_of_invariant`: what a run has shown when, and under which
  invariant.
* `history_eq_history_filter`: what a run shows does not depend on its hidden inputs.
* `pairwise_history`: observations stamped with a clock of the inputs are ordered as these are.
* `nodup_history`: observations tagged by their inputs are different.
* `Path.guarded`: what a guard allows along a path that keeps it.
* `Path.fold`, `Path.labels`: invariants of a note that is taken along a path, or of its labels.
* `Path.add_sum`: quantities that every step increases by the amount of its label.
* `Path.flag_iff`: a flag is up at the end of a path if its labels leave it raised.
* `path_history`: a machine that refines a specification step by step refines it run by run.
-/

set_option autoImplicit false

namespace Foundation

/-! ### Runs of a machine -/

section Machine

variable {S I O : Type} (next : S → I → S)

/-- The state in which the run on a list of inputs ends. -/
def after (s : S) (is : List I) : S := is.foldl next s

/-- The observations of all steps of a run, in order. -/
def history (observe : S → I → List O) : S → List I → List O
  | _, [] => []
  | s, i :: is => observe s i ++ history observe (next s i) is

/-- Every step of the run satisfies `P` at the state it is taken from. -/
def Along (P : S → I → Prop) : S → List I → Prop
  | _, [] => True
  | s, i :: is => P s i ∧ Along P (next s i) is

variable {next} {observe : S → I → List O} {P Q : S → I → Prop}

@[simp] theorem after_nil (s : S) : after next s [] = s := rfl

@[simp] theorem after_cons (s : S) (i : I) (is : List I) :
    after next s (i :: is) = after next (next s i) is := rfl

@[simp] theorem after_append (s : S) (is js : List I) :
    after next s (is ++ js) = after next (after next s is) js := List.foldl_append

@[simp] theorem history_nil (s : S) : history next observe s [] = [] := rfl

@[simp] theorem history_cons (s : S) (i : I) (is : List I) :
    history next observe s (i :: is) = observe s i ++ history next observe (next s i) is := rfl

@[simp] theorem along_nil (s : S) : Along next P s [] := trivial

@[simp] theorem along_cons (s : S) (i : I) (is : List I) :
    Along next P s (i :: is) ↔ P s i ∧ Along next P (next s i) is := Iff.rfl

instance decidableAlong [h : ∀ s i, Decidable (P s i)] :
    (s : S) → (is : List I) → Decidable (Along next P s is)
  | _, [] => isTrue trivial
  | s, i :: is => @instDecidableAnd _ _ (h s i) (decidableAlong (next s i) is)

theorem along_append {s : S} {is js : List I} :
    Along next P s (is ++ js) ↔ Along next P s is ∧ Along next P (after next s is) js := by
  induction is generalizing s with
  | nil => simp
  | cons i is ih => simp only [List.cons_append, along_cons, ih, after_cons, and_assoc]

theorem Along.mono (h : ∀ s i, P s i → Q s i) {s : S} {is : List I} (hP : Along next P s is) :
    Along next Q s is := by
  induction is generalizing s with
  | nil => trivial
  | cons i is ih => exact ⟨h s i hP.1, ih hP.2⟩

theorem along_and {s : S} {is : List I} :
    Along next (fun s i => P s i ∧ Q s i) s is ↔ Along next P s is ∧ Along next Q s is := by
  induction is generalizing s with
  | nil => exact ⟨fun _ => ⟨trivial, trivial⟩, fun _ => trivial⟩
  | cons i is ih =>
    rw [along_cons, along_cons, along_cons, ih]
    exact and_and_and_comm

/-- A run on inputs that satisfy `P` in every state. -/
theorem along_of_forall_mem {s : S} {is : List I} (h : ∀ i ∈ is, ∀ s, P s i) :
    Along next P s is := by
  induction is generalizing s with
  | nil => trivial
  | cons i is ih =>
    exact ⟨h i List.mem_cons_self s, ih fun j hj => h j (List.mem_cons_of_mem _ hj)⟩

theorem along_of_forall (h : ∀ s i, P s i) {s : S} {is : List I} : Along next P s is :=
  along_of_forall_mem fun i _ s => h s i

/-- **Invariants of runs.** What every step satisfying `P` preserves holds at the end of every
run along which `P` holds. -/
theorem Along.invariant {Inv : S → Prop} (hstep : ∀ s i, Inv s → P s i → Inv (next s i))
    {s : S} {is : List I} (hP : Along next P s is) (hs : Inv s) : Inv (after next s is) := by
  induction is generalizing s with
  | nil => exact hs
  | cons i is ih => exact ih hP.2 (hstep s i hs hP.1)

/-- What every step preserves holds at the end of every run. -/
theorem after_invariant {Inv : S → Prop} (hstep : ∀ s i, Inv s → Inv (next s i)) {s : S}
    (hs : Inv s) (is : List I) : Inv (after next s is) := by
  induction is generalizing s with
  | nil => exact hs
  | cons i is ih => exact ih (hstep s i hs)

/-- Two conditions on steps that are the same under an invariant, which the second keeps. -/
theorem along_iff_of_invariant (Inv : S → Prop) (hiff : ∀ s i, Inv s → (P s i ↔ Q s i))
    (hkeep : ∀ s i, Inv s → Q s i → Inv (next s i)) {s : S} {is : List I} (hs : Inv s) :
    Along next P s is ↔ Along next Q s is := by
  induction is generalizing s with
  | nil => exact Iff.rfl
  | cons i is ih =>
    rw [along_cons, along_cons, hiff s i hs]
    exact and_congr_right fun hQ => ih (hkeep s i hs hQ)

variable (next observe) in
/-- The machine that keeps a log of the observations of its steps. -/
def logged (t : S × List O) (i : I) : S × List O := (next t.1 i, t.2 ++ observe t.1 i)

@[simp] theorem after_logged (s : S) (os : List O) (is : List I) :
    after (logged next observe) (s, os) is =
      (after next s is, os ++ history next observe s is) := by
  induction is generalizing s os with
  | nil => simp
  | cons i is ih => simp only [after_cons, logged, ih, history_cons, List.append_assoc]

theorem along_logged {s : S} {os : List O} {is : List I} :
    Along (logged next observe) (fun t i => P t.1 i) (s, os) is ↔ Along next P s is := by
  induction is generalizing s os with
  | nil => simp
  | cons i is ih => simp only [along_cons, logged, ih]

/-- What a run shows is shown by one of its inputs. -/
theorem exists_of_mem_history {s : S} {is : List I} {o : O} (h : o ∈ history next observe s is) :
    ∃ i ∈ is, ∃ t, o ∈ observe t i := by
  induction is generalizing s with
  | nil => simp at h
  | cons i is ih =>
    rcases List.mem_append.1 h with h | h
    · exact ⟨i, List.mem_cons_self, s, h⟩
    · obtain ⟨j, hj, hshown⟩ := ih h
      exact ⟨j, List.mem_cons_of_mem _ hj, hshown⟩

theorem history_append (s : S) (is js : List I) : history next observe s (is ++ js) =
    history next observe s is ++ history next observe (after next s is) js := by
  induction is generalizing s with
  | nil => rfl
  | cons i is ih =>
    rw [List.cons_append, history_cons, history_cons, ih, after_cons, List.append_assoc]

/-- An observation of a run is one of a step, and what has been shown before it is what the run up
to this step has shown, and perhaps more of the step. -/
theorem exists_of_history_eq {s : S} {is : List I} {pre post : List O} {o : O}
    (h : history next observe s is = pre ++ o :: post) :
    ∃ is' i is'' os, is = is' ++ i :: is'' ∧ pre = history next observe s is' ++ os ∧
      ∃ os', observe (after next s is') i = os ++ o :: os' := by
  induction is generalizing s pre with
  | nil => simp at h
  | cons i is ih =>
    rcases List.append_eq_append_iff.1 h with ⟨os, rfl, hrest⟩ | ⟨os, hobs, hrest⟩
    · obtain ⟨is', j, is'', os', rfl, rfl, hobs⟩ := ih hrest
      exact ⟨i :: is', j, is'', os', rfl, by rw [history_cons, List.append_assoc], hobs⟩
    · rcases os with _ | ⟨o', os⟩
      · rw [List.append_nil] at hobs
        have hrest : history next observe (next s i) is = [] ++ o :: post := hrest.symm
        obtain ⟨is', j, is'', os', rfl, hpre, hobs'⟩ := ih hrest
        refine ⟨i :: is', j, is'', os', rfl, ?_, hobs'⟩
        rw [history_cons, List.append_assoc, ← hpre, List.append_nil, hobs]
      · obtain ⟨rfl, -⟩ := List.cons.inj hrest
        exact ⟨[], i, is, pre, rfl, rfl, os, hobs⟩

/-- **Invariants and observations.** While the inputs are of some kind, an invariant is kept, and
what it admits is observed. -/
theorem after_history_of_invariant {Q : I → Prop} {Inv : S → Prop} {A : O → Prop}
    (hstep : ∀ s i, Q i → Inv s → Inv (next s i) ∧ ∀ o ∈ observe s i, A o) {s : S} {is : List I}
    (his : ∀ i ∈ is, Q i) (hs : Inv s) :
    Inv (after next s is) ∧ ∀ o ∈ history next observe s is, A o := by
  induction is generalizing s with
  | nil => exact ⟨hs, by simp⟩
  | cons i is ih =>
    obtain ⟨hnext, hobs⟩ := hstep s i (his i List.mem_cons_self) hs
    obtain ⟨hend, hrest⟩ := ih (fun j hj => his j (List.mem_cons_of_mem _ hj)) hnext
    refine ⟨hend, fun o ho => ?_⟩
    rcases List.mem_append.1 ho with ho | ho
    · exact hobs o ho
    · exact hrest o ho

/-- What is read off the observations of a run. -/
theorem filterMap_history {A : Type} (read : O → Option A) {s : S} {is : List I} :
    (history next observe s is).filterMap read =
      history next (fun s i => (observe s i).filterMap read) s is := by
  induction is generalizing s with
  | nil => rfl
  | cons i is ih => rw [history_cons, history_cons, List.filterMap_append, ih]

/-- Observations stamped with the clock of their input are ordered as the inputs are. -/
theorem pairwise_history (clock : I → ℕ) {stamp : O → ℕ}
    (hobs : ∀ s i, ∀ o ∈ observe s i, stamp o = clock i) {s : S} {is : List I}
    (hclock : is.Pairwise fun i j => clock i ≤ clock j) :
    (history next observe s is).Pairwise fun o o' => stamp o ≤ stamp o' := by
  induction is generalizing s with
  | nil => exact .nil
  | cons i is ih =>
    obtain ⟨hhead, htail⟩ := List.pairwise_cons.1 hclock
    refine List.pairwise_append.2 ⟨?_, ih htail, fun o ho o' ho' => ?_⟩
    · refine List.pairwise_of_forall_mem_list fun o ho o' ho' => ?_
      exact (hobs s i o ho).trans_le (hobs s i o' ho').ge
    · obtain ⟨j, hj, t, ho'⟩ := exists_of_mem_history ho'
      rw [hobs s i o ho, hobs t j o' ho']
      exact hhead j hj

/-- If observations carry the tag of their input, no two inputs have the same tag, and every step
shows different things, then so does the run. -/
theorem nodup_history {C : Type} (tag : I → C) (tagOf : O → C)
    (hobs : ∀ s i, ∀ o ∈ observe s i, tagOf o = tag i) (Inv : S → Prop)
    (hstep : ∀ s i, Inv s → Inv (next s i)) (hnodup : ∀ s i, Inv s → (observe s i).Nodup) {s : S}
    {is : List I} (htags : (is.map tag).Nodup) (hs : Inv s) :
    (history next observe s is).Nodup := by
  induction is generalizing s with
  | nil => exact List.nodup_nil
  | cons i is ih =>
    obtain ⟨hfresh, htags⟩ := List.nodup_cons.1 htags
    refine List.nodup_append.2 ⟨hnodup s i hs, ih htags (hstep s i hs), ?_⟩
    rintro o ho o' ho' rfl
    obtain ⟨j, hj, t, ho'⟩ := exists_of_mem_history ho'
    refine hfresh (List.mem_map.2 ⟨j, hj, ?_⟩)
    rw [← hobs t j o ho', hobs s i o ho]

/-! ### Hidden inputs -/

/-- **Unwinding.** Let `R` relate states that look the same: a visible input is answered alike in
both and keeps `R`, and a hidden one shows nothing and leads to a state that still looks the same.
Then a run shows what it shows with its hidden inputs left out. -/
theorem history_eq_history_filter {Visible : I → Prop} [DecidablePred Visible]
    (R : S → S → Prop) {is : List I}
    (hvisible : ∀ i ∈ is, Visible i → ∀ s t, R s t →
      observe s i = observe t i ∧ R (next s i) (next t i))
    (hhidden : ∀ i ∈ is, ¬ Visible i → ∀ s t, R s t → observe s i = [] ∧ R (next s i) t)
    {s t : S} (hst : R s t) :
    history next observe s is = history next observe t (is.filter (Visible ·)) := by
  induction is generalizing s t with
  | nil => rfl
  | cons i is ih =>
    have htail := fun {s t : S} => ih (s := s) (t := t)
      (fun j hj => hvisible j (List.mem_cons_of_mem _ hj))
      (fun j hj => hhidden j (List.mem_cons_of_mem _ hj))
    by_cases hi : Visible i
    · obtain ⟨hobs, hnext⟩ := hvisible i List.mem_cons_self hi s t hst
      rw [List.filter_cons_of_pos (by simpa using hi), history_cons, history_cons, hobs,
        htail hnext]
    · obtain ⟨hobs, hnext⟩ := hhidden i List.mem_cons_self hi s t hst
      rw [List.filter_cons_of_neg (by simpa using hi), history_cons, hobs, List.nil_append,
        htail hnext]

end Machine

/-! ### Labelled paths -/

/-- `Path R t ls t'`: steps of `R` with labels `ls` lead from `t` to `t'`. -/
inductive Path {T L : Type} (R : T → L → T → Prop) : T → List L → T → Prop
  | nil (t : T) : Path R t [] t
  | cons {t t' t'' : T} {l : L} {ls : List L} (hd : R t l t') (tl : Path R t' ls t'') :
      Path R t (l :: ls) t''

namespace Path

variable {T L : Type} {R : T → L → T → Prop} {t t' t'' : T} {l : L} {ls ls' : List L}

@[simp] theorem nil_iff : Path R t [] t' ↔ t = t' :=
  ⟨fun h => by cases h; rfl, fun h => h ▸ .nil t⟩

@[simp] theorem cons_iff : Path R t (l :: ls) t'' ↔ ∃ t', R t l t' ∧ Path R t' ls t'' :=
  ⟨fun h => by cases h with | cons hd tl => exact ⟨_, hd, tl⟩, fun ⟨_, hd, tl⟩ => .cons hd tl⟩

theorem single (h : R t l t') : Path R t [l] t' := .cons h (.nil t')

theorem append (h : Path R t ls t') (h' : Path R t' ls' t'') : Path R t (ls ++ ls') t'' := by
  induction h with
  | nil => exact h'
  | cons hd _ ih => exact .cons hd (ih h')

theorem append_iff : Path R t (ls ++ ls') t'' ↔ ∃ t', Path R t ls t' ∧ Path R t' ls' t'' := by
  refine ⟨fun h => ?_, fun ⟨_, h, h'⟩ => h.append h'⟩
  induction ls generalizing t with
  | nil => exact ⟨t, .nil t, h⟩
  | cons l ls ih =>
    obtain ⟨u, hd, tl⟩ := cons_iff.1 h
    obtain ⟨v, hv, hv'⟩ := ih tl
    exact ⟨v, .cons hd hv, hv'⟩

/-- A label of a path is the label of a step. -/
theorem exists_of_mem (h : Path R t ls t') (hl : l ∈ ls) : ∃ u u', R u l u' := by
  induction h with
  | nil => simp at hl
  | cons hd _ ih =>
    rcases List.mem_cons.1 hl with rfl | hl
    · exact ⟨_, _, hd⟩
    · exact ih hl

/-- **Invariants of paths.** What every step preserves holds at the end of a path. -/
theorem invariant (Inv : T → Prop) (hstep : ∀ t l t', Inv t → R t l t' → Inv t')
    (h : Path R t ls t') (ht : Inv t) : Inv t' := by
  induction h with
  | nil => exact ht
  | cons hd _ ih => exact ih (hstep _ _ _ ht hd)

/-- **Guards along a path.** If every step whose label is admitted keeps `Guard` and, taken under
`Guard`, has a label satisfying `Q`, then so does every label of a path that starts under
`Guard` and has admitted labels only. -/
theorem guarded (Guard : T → Prop) (Admitted Q : L → Prop)
    (hstep : ∀ t l t', Guard t → Admitted l → R t l t' → Q l ∧ Guard t')
    (h : Path R t ls t') (ht : Guard t) (hls : ∀ l ∈ ls, Admitted l) :
    (∀ l ∈ ls, Q l) ∧ Guard t' := by
  induction h with
  | nil => exact ⟨by simp, ht⟩
  | cons hd _ ih =>
    obtain ⟨hl, hmid⟩ := hstep _ _ _ ht (hls _ List.mem_cons_self) hd
    obtain ⟨hQ, hend⟩ := ih hmid fun l hl => hls l (List.mem_cons_of_mem _ hl)
    exact ⟨List.forall_mem_cons.2 ⟨hl, hQ⟩, hend⟩

/-- **Notes along a path.** A relation between the state and a note taken of the labels, kept by
every admitted step, holds at the end of a path. -/
theorem fold {A : Type} (note : A → L → A) (Inv : T → A → Prop) (Admitted : L → Prop)
    (hstep : ∀ t a l t', Inv t a → Admitted l → R t l t' → Inv t' (note a l))
    (h : Path R t ls t') {a : A} (ht : Inv t a) (hls : ∀ l ∈ ls, Admitted l) :
    Inv t' (ls.foldl note a) := by
  induction h generalizing a with
  | nil => exact ht
  | cons hd _ ih =>
    exact ih (hstep _ _ _ _ ht (hls _ List.mem_cons_self) hd)
      fun l hl => hls l (List.mem_cons_of_mem _ hl)

/-- **Labels along a path.** A relation between the labels so far and the state, kept by every
step, holds at the end of a path. -/
theorem labels (Inv : List L → T → Prop)
    (hstep : ∀ ls t l t', Inv ls t → R t l t' → Inv (ls ++ [l]) t')
    (h : Path R t ls t') (pre : List L) (ht : Inv pre t) : Inv (pre ++ ls) t' := by
  induction h generalizing pre with
  | nil => rwa [List.append_nil]
  | cons hd _ ih =>
    have htail := ih _ (hstep _ _ _ _ ht hd)
    rwa [List.append_assoc] at htail

/-- **Totals along a path.** A quantity that every admitted step increases by the amount of its
label increases along a path by the sum of the amounts. -/
theorem add_sum {M : Type} [AddMonoid M] (Inv : T → Prop) (Admitted : L → Prop) (total : T → M)
    (amount : L → M)
    (hstep : ∀ t l t', Inv t → Admitted l → R t l t' → total t' = total t + amount l ∧ Inv t')
    (h : Path R t ls t') (ht : Inv t) (hls : ∀ l ∈ ls, Admitted l) :
    total t' = total t + (ls.map amount).sum := by
  induction h with
  | nil => simp
  | cons hd _ ih =>
    obtain ⟨htotal, hmid⟩ := hstep _ _ _ ht (hls _ List.mem_cons_self) hd
    rw [ih hmid fun l hl => hls l (List.mem_cons_of_mem _ hl), htotal, List.map_cons,
      List.sum_cons, add_assoc]

end Path

/-- A fold is a path of its steps. -/
theorem path_foldl {T L : Type} (f : T → L → T) (t : T) (ls : List L) :
    Path (fun t l t' => f t l = t') t ls (ls.foldl f t) := by
  induction ls generalizing t with
  | nil => exact .nil t
  | cons l ls ih => exact .cons rfl (ih _)

/-! ### Flags along a path -/

/-- Some label raises the flag, and no later one lowers it. -/
def Raised {L : Type} (Raises Lowers : L → Prop) (ls : List L) : Prop :=
  ∃ pre l post, ls = pre ++ l :: post ∧ Raises l ∧ ∀ l' ∈ post, ¬ Lowers l'

section Flags

variable {T L : Type} {R : T → L → T → Prop} {Raises Lowers : L → Prop} {l : L} {ls : List L}

theorem not_raised_nil : ¬ Raised Raises Lowers ([] : List L) := by
  rintro ⟨pre, l, post, h, -⟩
  simp at h

theorem raised_cons :
    Raised Raises Lowers (l :: ls) ↔
      (Raises l ∧ ∀ l' ∈ ls, ¬ Lowers l') ∨ Raised Raises Lowers ls := by
  constructor
  · rintro ⟨pre, k, post, h, hk, hpost⟩
    rcases pre with _ | ⟨j, pre⟩
    · obtain ⟨rfl, rfl⟩ := List.cons.inj h
      exact .inl ⟨hk, hpost⟩
    · exact .inr ⟨pre, k, post, (List.cons.inj h).2, hk, hpost⟩
  · rintro (⟨hl, hls⟩ | ⟨pre, k, post, rfl, hk, hpost⟩)
    · exact ⟨[], l, ls, rfl, hl, hls⟩
    · exact ⟨l :: pre, k, post, rfl, hk, hpost⟩

theorem raised_concat :
    Raised Raises Lowers (ls ++ [l]) ↔ Raises l ∨ Raised Raises Lowers ls ∧ ¬ Lowers l := by
  induction ls with
  | nil => simp [raised_cons, not_raised_nil]
  | cons k ls ih =>
    rw [List.cons_append, raised_cons, ih, raised_cons, List.forall_mem_append,
      List.forall_mem_singleton]
    tauto

/-- Some label is the last of its kind. -/
theorem raised_self_of_exists {P : L → Prop} (h : ∃ l ∈ ls, P l) : Raised P P ls := by
  induction ls with
  | nil => simp at h
  | cons l ls ih =>
    rw [raised_cons]
    by_cases hls : ∃ l' ∈ ls, P l'
    · exact .inr (ih hls)
    · have hnone : ∀ l' ∈ ls, ¬ P l' := fun l' hl' hP => hls ⟨l', hl', hP⟩
      obtain ⟨l', hl', hP⟩ := h
      rcases List.mem_cons.1 hl' with rfl | hl'
      · exact .inl ⟨hP, hnone⟩
      · exact absurd hP (hnone l' hl')

/-- **Flags along a path.** A flag that some labels raise, some lower and all others keep is up at
the end of a path exactly if it was up from the start or its labels leave it raised. -/
theorem Path.flag_iff (flag : T → Prop)
    (hstep : ∀ t l t', R t l t' → (flag t' ↔ Raises l ∨ flag t ∧ ¬ Lowers l)) {t t' : T}
    (h : Path R t ls t') :
    flag t' ↔ (flag t ∧ ∀ l ∈ ls, ¬ Lowers l) ∨ Raised Raises Lowers ls := by
  induction h with
  | nil t => simp [not_raised_nil]
  | cons hd _ ih =>
    rw [ih, hstep _ _ _ hd, raised_cons, List.forall_mem_cons]
    tauto

end Flags

/-- **Refinement of runs.** If under an invariant the observations of every step are the labels of
a path of the specification between the abstractions of its two states, then so is the history
of every run. -/
theorem path_history {S I T L : Type} {next : S → I → S} {observe : S → I → List L}
    {R : T → L → T → Prop} {abs : S → T} {P : S → I → Prop}
    (hsim : ∀ s i, P s i → Path R (abs s) (observe s i) (abs (next s i)))
    {s : S} {is : List I} (hP : Along next P s is) :
    Path R (abs s) (history next observe s is) (abs (after next s is)) := by
  induction is generalizing s with
  | nil => exact .nil _
  | cons i is ih => exact (hsim s i hP.1).append (ih hP.2)

end Foundation
