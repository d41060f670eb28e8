import Mathlib.Data.List.Induction
import Mathlib.Tactic.Common

/-!
# Handling a stream more than once

A consumer handles the entries of a stream one by one and from time to time saves how far it has
come. After a crash it starts again where it has last saved, and handles again what it has handled
since. The state comes out as without the crash if handling a list of entries again, right after it
has been handled, changes nothing (`Replayable`).

This is so for stores that keep the first value, for stores that overwrite, and for records that
some entries create and others overwrite. It passes from what can be seen of a state to the state.

## Main definitions

* `Replayable`: a list of entries can be handled again.
* `Consumed`: what has been saved, what has been handled since, and what is left.
* `Redelivery`: what is delivered of a stream that starts again from earlier positions.

## Main results

* `Replayable.keepFirst`, `Replayable.overwrite`, `Replayable.upsert`, `Replayable.absorb`: stores
  that are replayable.
* `Replayable.view`: what is seen of a state through a replayable view.
* `Consumed.handle`, `Consumed.save`, `Consumed.crash`: the moves of a consumer.
* `Consumed.eq_of_nil`: the state when everything has been handled and saved.
* `Redelivery.foldl_eq`: the state when the end of the stream is reached.
-/

set_option autoImplicit false

namespace Foundation

variable {D C E F R : Type}

/-- Handling a list of entries again, right after it has been handled, changes nothing. -/
def Replayable (f : D → E → D) : Prop :=
  ∀ (es : List E) (d : D), es.foldl f (es.foldl f d) = es.foldl f d

namespace Replayable

/-! ### Stores -/

theorem foldl_keepFirst (w : E → Option R) (es : List E) (o : Option R) :
    es.foldl (fun o e => o.or (w e)) o = o.or (es.findSome? w) := by
  induction es generalizing o with
  | nil => simp
  | cons e es ih =>
    rw [List.foldl_cons, ih, List.findSome?_cons, Option.or_assoc]
    cases w e <;> simp

/-- A store that keeps the first value. -/
theorem keepFirst (w : E → Option R) : Replayable fun (o : Option R) e => o.or (w e) := by
  intro es o
  rw [foldl_keepFirst, foldl_keepFirst, Option.or_assoc, Option.or_self]

/-- A store that takes every new value. -/
theorem overwrite (w : E → Option R) : Replayable fun (x : R) e => (w e).getD x := by
  intro es
  induction es using List.reverseRecOn with
  | nil => exact fun _ => rfl
  | append_singleton es e ih =>
    intro x
    simp only [List.foldl_append, List.foldl_cons, List.foldl_nil]
    rcases w e with _ | v
    · exact ih x
    · rfl

/-- A record that some entries create where there is none, and others change. The entry that
creates a record would change it to the same, whatever has happened to the record since. -/
theorem upsert {create : E → Option R} {touch : R → E → R} (htouch : Replayable touch)
    (hcreate : ∀ e r (es : List E), create e = some r → touch (es.foldl touch r) e = r) :
    Replayable fun (o : Option R) e => o.elim (create e) fun r => some (touch r e) := by
  have hsome : ∀ (es : List E) (r : R), es.foldl
      (fun (o : Option R) e => o.elim (create e) fun r => some (touch r e)) (some r) =
        some (es.foldl touch r) := by
    intro es
    induction es with
    | nil => exact fun _ => rfl
    | cons e es ih => exact fun r => ih (touch r e)
  have hnone : ∀ es : List E, (∀ e ∈ es, create e = none) → es.foldl
      (fun (o : Option R) e => o.elim (create e) fun r => some (touch r e)) none = none := by
    intro es
    induction es with
    | nil => exact fun _ => rfl
    | cons e es ih =>
      intro hes
      rw [List.foldl_cons, Option.elim_none, hes e List.mem_cons_self]
      exact ih fun e' he' => hes e' (List.mem_cons_of_mem _ he')
  rintro es (_ | r)
  · by_cases hes : ∀ e ∈ es, create e = none
    · rw [hnone es hes, hnone es hes]
    · -- the first entry that creates the record splits the list
      obtain ⟨pre, e, post, rfl, hpre, r, hr⟩ :
          ∃ pre e post, es = pre ++ e :: post ∧ (∀ e ∈ pre, create e = none) ∧
            ∃ r, create e = some r := by
        clear hsome hnone
        induction es with
        | nil => simp at hes
        | cons e es ih =>
          rcases he : create e with _ | r
          · obtain ⟨pre, e', post, rfl, hpre, hr⟩ := ih fun h => hes (by simpa [he] using h)
            exact ⟨e :: pre, e', post, rfl, by simpa [he] using hpre, hr⟩
          · exact ⟨[], e, es, rfl, by simp, r, he⟩
      have hfirst : (pre ++ e :: post).foldl
          (fun (o : Option R) e => o.elim (create e) fun r => some (touch r e)) none =
            some (post.foldl touch r) := by
        rw [List.foldl_append, hnone pre hpre, List.foldl_cons, Option.elim_none, hr, hsome]
      rw [hfirst, hsome, List.foldl_append, List.foldl_cons, ← List.foldl_append, hcreate e r _ hr]
  · rw [hsome, hsome, htouch es r]

/-- A store in which an entry is done after it has been handled, from then on, and is not handled
again. -/
theorem absorb {f : D → E → D} (Done : D → E → Prop) (hdone : ∀ d e, Done (f d e) e)
    (hkeep : ∀ d e e', Done d e → Done (f d e') e) (hskip : ∀ d e, Done d e → f d e = d) :
    Replayable f := by
  have hkeep' : ∀ (es : List E) (d : D) (e : E), Done d e → Done (es.foldl f d) e := by
    intro es
    induction es with
    | nil => exact fun _ _ h => h
    | cons e' es ih => exact fun d e h => ih (f d e') e (hkeep d e e' h)
  have hall : ∀ (es : List E) (d : D), ∀ e ∈ es, Done (es.foldl f d) e := by
    intro es
    induction es with
    | nil => simp
    | cons e es ih =>
      intro d e' he'
      rcases List.mem_cons.1 he' with rfl | he'
      · exact hkeep' es _ _ (hdone d e')
      · exact ih _ e' he'
  have hskip' : ∀ (es : List E) (d : D), (∀ e ∈ es, Done d e) → es.foldl f d = d := by
    intro es d hes
    induction es with
    | nil => rfl
    | cons e es ih =>
      rw [List.foldl_cons, hskip d e (hes e List.mem_cons_self)]
      exact ih fun e' he' => hes e' (List.mem_cons_of_mem _ he')
  exact fun es d => hskip' es _ (hall es d)

/-! ### Views -/

variable {f : D → E → D} {g : C → E → C}

theorem foldl_view (v : D → C) (hom : ∀ d e, v (f d e) = g (v d) e) (es : List E) (d : D) :
    v (es.foldl f d) = es.foldl g (v d) := by
  induction es generalizing d with
  | nil => rfl
  | cons e es ih => rw [List.foldl_cons, List.foldl_cons, ih, hom]

/-- A view of the states that satisfy an invariant. -/
theorem foldl_view_of_invariant (Inv : D → Prop) (hinv : ∀ d e, Inv d → Inv (f d e)) (v : D → C)
    (hom : ∀ d e, Inv d → v (f d e) = g (v d) e) (es : List E) {d : D} (hd : Inv d) :
    v (es.foldl f d) = es.foldl g (v d) := by
  induction es generalizing d with
  | nil => rfl
  | cons e es ih => rw [List.foldl_cons, List.foldl_cons, ih (hinv d e hd), hom d e hd]

/-- What is seen of a state through a view that is replayable. -/
theorem view (hg : Replayable g) (v : D → C) (hom : ∀ d e, v (f d e) = g (v d) e) (es : List E)
    (d : D) : v (es.foldl f (es.foldl f d)) = v (es.foldl f d) := by
  rw [foldl_view v hom, foldl_view v hom, hg es]

/-- Entries that are read in another form, if they can be read. -/
theorem filterMap (hf : Replayable f) (read : F → Option E) :
    Replayable fun d x => (read x).elim d (f d) := by
  have hfold : ∀ (xs : List F) (d : D),
      xs.foldl (fun d x => (read x).elim d (f d)) d = (xs.filterMap read).foldl f d := by
    intro xs
    induction xs with
    | nil => exact fun _ => rfl
    | cons x xs ih =>
      intro d
      rw [List.foldl_cons, ih]
      rcases hx : read x with _ | e
      · rw [List.filterMap_cons_none hx, Option.elim_none]
      · rw [List.filterMap_cons_some hx, Option.elim_some, List.foldl_cons]
  intro xs d
  rw [hfold, hfold, hf]

end Replayable

/-! ### Consumers -/

/-- Of a stream, `saved` has been handled and saved, `since` has been handled after that, `left` is
left, and the state is `d`; if all that is not saved is handled, the state is as if the whole
stream had been handled once. -/
structure Consumed (f : D → E → D) (init : D) (stream saved since left : List E) (d : D) :
    Prop where
  split : stream = saved ++ (since ++ left)
  state : ∃ d₀, d = since.foldl f d₀ ∧ (since ++ left).foldl f d₀ = stream.foldl f init

namespace Consumed

variable {f : D → E → D} {init d : D} {stream saved since left : List E} {e : E}

theorem start : Consumed f init stream [] [] stream init := ⟨rfl, init, rfl, rfl⟩

theorem handle (h : Consumed f init stream saved since (e :: left) d) :
    Consumed f init stream saved (since ++ [e]) left (f d e) := by
  obtain ⟨hsplit, d₀, hd, hend⟩ := h
  refine ⟨by simpa using hsplit, d₀, ?_, by simpa using hend⟩
  rw [hd, List.foldl_append, List.foldl_cons, List.foldl_nil]

theorem save (h : Consumed f init stream saved since left d) :
    Consumed f init stream (saved ++ since) [] left d := by
  obtain ⟨hsplit, d₀, hd, hend⟩ := h
  refine ⟨by simpa using hsplit, d, rfl, ?_⟩
  rw [List.nil_append, hd, ← List.foldl_append, hend]

/-- After a crash all that is not saved is left. -/
theorem crash (hf : Replayable f) (h : Consumed f init stream saved since left d) :
    Consumed f init stream saved [] (since ++ left) d := by
  obtain ⟨hsplit, d₀, hd, hend⟩ := h
  refine ⟨by simpa using hsplit, d, rfl, ?_⟩
  rw [List.nil_append, List.foldl_append, hd, hf, ← List.foldl_append, hend]

/-- **Caught up.** When all is saved, the state is as if the stream had been handled once. -/
theorem eq_of_nil (h : Consumed f init stream saved [] [] d) : d = stream.foldl f init := by
  obtain ⟨-, d₀, hd, hend⟩ := h
  exact hd.trans hend

end Consumed

/-! ### Redelivery -/

/-- The entries `es` have been delivered of a stream, the last one before position `p`: each is the
one at the position reached, or at an earlier one from where the delivery has started again. -/
inductive Redelivery (stream : List E) : List E → ℕ → Prop
  | start : Redelivery stream [] 0
  | deliver {es : List E} {p q : ℕ} {e : E} (h : Redelivery stream es p) (hq : q ≤ p)
      (he : stream[q]? = some e) : Redelivery stream (es ++ [e]) (q + 1)

namespace Redelivery

variable {stream es : List E} {p q : ℕ} {f : D → E → D}

theorem eq_zero_of_nil (h : Redelivery stream es p) (hes : es = []) : p = 0 := by
  cases h with
  | start => rfl
  | deliver => exact (List.append_ne_nil_of_right_ne_nil _ (List.cons_ne_nil _ _) hes).elim

theorem mem_of_mem_take (h : Redelivery stream es p) {e : E} (he : e ∈ stream.take p) :
    e ∈ es := by
  induction h with
  | start => simp at he
  | @deliver es p q e' h hq he' ih =>
    rw [List.take_add_one, he', Option.toList_some, List.mem_append] at he
    rcases he with he | he
    · exact List.mem_append_left _ (ih (List.take_subset_take_left stream hq he))
    · exact List.mem_append_right _ he

theorem mem_stream (h : Redelivery stream es p) {e : E} (he : e ∈ es) : e ∈ stream := by
  induction h with
  | start => simp at he
  | @deliver es p q e' h hq he' ih =>
    rcases List.mem_append.1 he with he | he
    · exact ih he
    · rw [List.mem_singleton.1 he]
      exact List.mem_of_getElem? he'

/-- What comes before a delivered entry has been delivered, too. -/
theorem mem_of_le (h : Redelivery stream es p) (hnodup : stream.Nodup) {e e' : E} {i j : ℕ}
    (he : e ∈ es) (hi : stream[i]? = some e') (hj : stream[j]? = some e) (hij : i ≤ j) :
    e' ∈ es := by
  induction h with
  | start => cases he
  | @deliver es p q last h hq hlast ih =>
    rcases List.mem_append.1 he with he | he
    · exact List.mem_append_left _ (ih he)
    · obtain rfl := List.mem_singleton.1 he
      obtain ⟨hlt, -⟩ := List.getElem?_eq_some_iff.1 hlast
      obtain rfl : q = j := (List.getElem?_inj hlt hnodup).1 (hlast.trans hj.symm)
      have htake : (stream.take (q + 1))[i]? = some e' := by
        rw [List.getElem?_take_of_lt (Nat.lt_succ_of_le hij), hi]
      exact (Redelivery.deliver h hq hlast).mem_of_mem_take (List.mem_of_getElem? htake)

/-- When the end is reached, what has been delivered is what is in the stream. -/
theorem mem_iff (h : Redelivery stream es stream.length) {e : E} : e ∈ es ↔ e ∈ stream :=
  ⟨h.mem_stream, fun he => h.mem_of_mem_take (by rwa [List.take_length])⟩

/-- What has been delivered, cut where it has last started again from a position or before it. -/
theorem exists_cut (h : Redelivery stream es p) (hq : q ≤ p) :
    ∃ pre post r, es = pre ++ post ∧ Redelivery stream pre r ∧ q ≤ r ∧
      Redelivery (stream.drop q) post (p - q) := by
  induction h with
  | start =>
    obtain rfl := Nat.le_zero.1 hq
    exact ⟨[], [], 0, rfl, .start, Nat.le_refl _, .start⟩
  | @deliver es p r e h hr he ih =>
    rcases Nat.eq_or_lt_of_le hq with rfl | hlt
    · refine ⟨es ++ [e], [], r + 1, (List.append_nil _).symm, .deliver h hr he, Nat.le_refl _, ?_⟩
      rw [Nat.sub_self]
      exact .start
    · have hqr : q ≤ r := Nat.le_of_lt_succ hlt
      obtain ⟨pre, post, r', rfl, hpre, hr', hpost⟩ := ih (Nat.le_trans hqr hr)
      refine ⟨pre, post ++ [e], r', List.append_assoc .., hpre, hr', ?_⟩
      have he' : (stream.drop q)[r - q]? = some e := by
        rw [List.getElem?_drop, Nat.add_sub_cancel' hqr, he]
      rw [Nat.succ_sub hqr]
      exact .deliver hpost (Nat.sub_le_sub_right hr q) he'

/-- Where the delivery goes on, it leads to the state of the whole stream, if it does so after every
shorter delivery. -/
theorem foldl_append_drop_self {n : ℕ}
    (hshorter : ∀ {stream es : List E} {p q : ℕ}, es.length < n → Redelivery stream es p → q ≤ p →
      ∀ d, (es ++ stream.drop q).foldl f d = stream.foldl f d)
    (hlength : es.length ≤ n) (h : Redelivery stream es p) (d : D) :
    (es ++ stream.drop p).foldl f d = stream.foldl f d := by
  cases h with
  | start => rfl
  | @deliver es p q e h hq he =>
    obtain ⟨hlt, he⟩ := List.getElem?_eq_some_iff.1 he
    rw [List.append_assoc, List.singleton_append, ← he, ← List.drop_eq_getElem_cons hlt]
    refine hshorter ?_ h hq d
    rw [List.length_append, List.length_singleton] at hlength
    exact hlength

/-- From any position that has been passed on, the rest of the stream leads to the state of the
whole stream. -/
theorem foldl_append_drop (hf : Replayable f) (h : Redelivery stream es p) (hq : q ≤ p) (d : D) :
    (es ++ stream.drop q).foldl f d = stream.foldl f d := by
  induction hn : es.length using Nat.strongRecOn generalizing stream es p q d with
  | ind n ih =>
    have hshorter : ∀ {stream es : List E} {p q : ℕ}, es.length < n → Redelivery stream es p →
        q ≤ p → ∀ d, (es ++ stream.drop q).foldl f d = stream.foldl f d :=
      fun hlt h hq d => ih _ hlt h hq d rfl
    have hself : ∀ {stream es : List E} {p : ℕ}, es.length ≤ n → Redelivery stream es p →
        ∀ d, (es ++ stream.drop p).foldl f d = stream.foldl f d :=
      fun hle h d => foldl_append_drop_self hshorter hle h d
    obtain ⟨pre, post, r, rfl, hpre, hqr, hpost⟩ := h.exists_cut hq
    by_cases hnil : post = []
    · have hpq : p ≤ q := Nat.le_of_sub_eq_zero (hpost.eq_zero_of_nil hnil)
      obtain rfl := Nat.le_antisymm hpq hq
      exact hself (Nat.le_of_eq hn) h d
    · have hlt : pre.length < n := by
        rw [← hn, List.length_append]
        exact Nat.lt_add_of_pos_right (List.length_pos_iff.2 hnil)
      have hle : post.length ≤ n := by
        rw [← hn, List.length_append]
        exact Nat.le_add_left ..
      -- from `q` on, the part `post` leads where the stream does
      have hrest : ∀ d, (stream.drop p).foldl f (post.foldl f d) = (stream.drop q).foldl f d := by
        intro d
        have hpost' := hself hle hpost d
        rwa [List.drop_drop, Nat.add_sub_cancel' hq, List.foldl_append] at hpost'
      calc (pre ++ post ++ stream.drop q).foldl f d
          = (stream.drop q).foldl f (post.foldl f (pre.foldl f d)) := by
            rw [List.foldl_append, List.foldl_append]
        _ = (stream.drop p).foldl f (post.foldl f (post.foldl f (pre.foldl f d))) :=
            (hrest _).symm
        _ = (stream.drop p).foldl f (post.foldl f (pre.foldl f d)) := by rw [hf]
        _ = (stream.drop q).foldl f (pre.foldl f d) := hrest _
        _ = stream.foldl f d := by
            rw [← List.foldl_append]
            exact hshorter hlt hpre hqr d

/-- **Redelivery.** When the end of the stream is reached, the state is as if the stream had been
handled once. -/
theorem foldl_eq (hf : Replayable f) (h : Redelivery stream es stream.length) (d : D) :
    es.foldl f d = stream.foldl f d := by
  have hend := h.foldl_append_drop hf (Nat.le_refl _) d
  rwa [List.drop_length, List.append_nil] at hend

variable {g : C → E → C}

/-- What is seen of the state through a replayable view. -/
theorem view_eq (hg : Replayable g) (h : Redelivery stream es stream.length) (v : D → C)
    (hom : ∀ d e, v (f d e) = g (v d) e) (d : D) : v (es.foldl f d) = v (stream.foldl f d) := by
  rw [Replayable.foldl_view v hom, Replayable.foldl_view v hom, h.foldl_eq hg]

/-- What is seen of the state through a view that is replayable where an invariant holds. -/
theorem view_eq_of_invariant (hg : Replayable g) (h : Redelivery stream es stream.length)
    (Inv : D → Prop) (hinv : ∀ d e, Inv d → Inv (f d e)) (v : D → C)
    (hom : ∀ d e, Inv d → v (f d e) = g (v d) e) {d : D} (hd : Inv d) :
    v (es.foldl f d) = v (stream.foldl f d) := by
  rw [Replayable.foldl_view_of_invariant Inv hinv v hom es hd,
    Replayable.foldl_view_of_invariant Inv hinv v hom stream hd, h.foldl_eq hg]

end Redelivery

end Foundation
