import Mathlib.Data.List.Basic
import Mathlib.Data.List.TakeWhile
import Mathlib.Tactic.Common

/-!
# Labels in quotation marks

A text format for labelled samples: a line has a name, labels in braces and a value, and the value
of a label stands in quotation marks, where a quotation mark and a backslash have to be escaped by a
backslash. A writer that does not escape writes what is read back exactly if there is nothing to
escape.

## Main definitions

* `readQuoted`, `readLabels`, `readSample`: the reader.
* `IsPlain`, `IsPlainLabel`: values and labels with nothing to escape.
* `labelsText`: labels written without escapes.

## Main results

* `readQuoted_append_iff`: a value that is not escaped.
* `readLabels_append_iff`: labels that are not escaped.
* `readSample_labelled_iff`, `readSample_bare`: whole lines.
-/

set_option autoImplicit false

namespace Foundation

/-! ### Values -/

/-- What stands for a character after a backslash. -/
def unescape (c : Char) : Option Char :=
  if c = 'n' then some '\n' else if c = '\x22' ∨ c = '\x5c' then some c else none

/-- A value is read up to its quotation mark, with what is left. -/
def readQuoted : List Char → Option (List Char × List Char)
  | [] => none
  | c :: cs =>
    if c = '\x22' then some ([], cs)
    else if c = '\x5c' then
      match cs with
      | [] => none
      | d :: ds => (unescape d).bind fun e => (readQuoted ds).map fun r => (e :: r.1, r.2)
    else (readQuoted cs).map fun r => (c :: r.1, r.2)

/-- There is nothing to escape. -/
def IsPlain (cs : List Char) : Prop := ∀ c ∈ cs, c ≠ '\x22' ∧ c ≠ '\x5c'

instance (cs : List Char) : Decidable (IsPlain cs) :=
  List.decidableBAll (fun c => c ≠ '\x22' ∧ c ≠ '\x5c') cs

variable {value rest rest' cs : List Char} {c : Char}

theorem readQuoted_quote : readQuoted ('\x22' :: rest) = some ([], rest) := by
  rw [readQuoted.eq_def]
  rfl

theorem readQuoted_backslash (d : Char) : readQuoted ('\x5c' :: d :: cs) =
    (unescape d).bind fun e => (readQuoted cs).map fun r => (e :: r.1, r.2) := by
  rw [readQuoted.eq_def]
  rfl

theorem readQuoted_cons (hquote : c ≠ '\x22') (hslash : c ≠ '\x5c') :
    readQuoted (c :: cs) = (readQuoted cs).map fun r => (c :: r.1, r.2) := by
  rw [readQuoted.eq_def]
  simp only [if_neg hquote, if_neg hslash]

theorem unescape_eq_backslash (h : unescape c = some '\x5c') : c = '\x5c' := by
  unfold unescape at h
  split_ifs at h with hn hc
  · exact absurd (Option.some.inj h) (by decide)
  · exact Option.some.inj h

/-- A plain value is read. -/
theorem readQuoted_append (h : IsPlain value) :
    readQuoted (value ++ '\x22' :: rest) = some (value, rest) := by
  induction value with
  | nil => exact readQuoted_quote
  | cons c value ih =>
    obtain ⟨⟨hquote, hslash⟩, hvalue⟩ := List.forall_mem_cons.1 h
    rw [List.cons_append, readQuoted_cons hquote hslash, ih hvalue]
    rfl

/-- At a quotation mark nothing is read. -/
theorem of_readQuoted_quote (h : readQuoted ('\x22' :: cs) = some (value, rest)) :
    value = [] ∧ cs = rest := by
  rw [readQuoted_quote] at h
  obtain ⟨rfl, rfl⟩ := Prod.mk.inj (Option.some.inj h)
  exact ⟨rfl, rfl⟩

/-- A backslash is read of two of them. -/
theorem of_readQuoted_backslash {d : Char}
    (h : readQuoted ('\x5c' :: d :: cs) = some ('\x5c' :: value, rest)) :
    d = '\x5c' ∧ readQuoted cs = some (value, rest) := by
  rw [readQuoted_backslash] at h
  obtain ⟨e, hunescape, h⟩ := Option.bind_eq_some_iff.1 h
  obtain ⟨r, hr, heq⟩ := Option.map_eq_some_iff.1 h
  obtain ⟨hvalue, hrest⟩ := Prod.mk.inj heq
  obtain ⟨rfl, rfl⟩ := List.cons.inj hvalue
  exact ⟨unescape_eq_backslash hunescape, by rw [hr, ← hrest]⟩

/-- Two backslashes are read as one, so that a value is not read with backslashes before it. -/
theorem readQuoted_ne_replicate (k : ℕ) :
    readQuoted (value ++ '\x22' :: rest) ≠
      some (List.replicate (k + 1) '\x5c' ++ value, rest') := by
  induction value using readQuoted.induct generalizing k with
  | case1 =>
    intro h
    exact absurd (of_readQuoted_quote h).1 (by simp)
  | case2 value =>
    intro h
    exact absurd (of_readQuoted_quote h).1 (by simp)
  | case3 =>
    intro h
    exact absurd (of_readQuoted_backslash h).1 (by decide)
  | case4 d value hquote ih =>
    intro h
    obtain ⟨rfl, hrest⟩ := of_readQuoted_backslash h
    have hmore : List.replicate k '\x5c' ++ '\x5c' :: '\x5c' :: value =
        List.replicate (k + 1 + 1) '\x5c' ++ value := by
      rw [List.replicate_succ', List.replicate_succ']
      simp
    exact ih (k + 1) (hrest.trans (congrArg (fun cs => some (cs, rest')) hmore))
  | case5 c value hquote hslash ih =>
    intro h
    rw [List.cons_append, readQuoted_cons hquote hslash] at h
    obtain ⟨r, -, heq⟩ := Option.map_eq_some_iff.1 h
    exact hslash (List.cons.inj (Prod.mk.inj heq).1).1

/-- **A value that is not escaped** is read back exactly if it is plain. -/
theorem readQuoted_append_iff :
    readQuoted (value ++ '\x22' :: rest) = some (value, rest') ↔ IsPlain value ∧ rest = rest' := by
  constructor
  · intro h
    induction value with
    | nil => exact ⟨List.forall_mem_nil _, (of_readQuoted_quote h).2⟩
    | cons c value ih =>
      rw [List.cons_append] at h
      have hquote : c ≠ '\x22' := by
        rintro rfl
        exact absurd (of_readQuoted_quote h).1 (List.cons_ne_nil _ _)
      have hslash : c ≠ '\x5c' := by
        rintro rfl
        rcases value with _ | ⟨d, value⟩
        · exact absurd (of_readQuoted_backslash h).1 (by decide)
        · obtain ⟨rfl, hrest⟩ := of_readQuoted_backslash h
          exact readQuoted_ne_replicate 0 hrest
      rw [readQuoted_cons hquote hslash] at h
      obtain ⟨r, hr, heq⟩ := Option.map_eq_some_iff.1 h
      obtain ⟨hvalue, hrest⟩ := Prod.mk.inj heq
      obtain ⟨hplain, heq⟩ := ih (by rw [hr, ← (List.cons.inj hvalue).2, ← hrest])
      exact ⟨List.forall_mem_cons.2 ⟨⟨hquote, hslash⟩, hplain⟩, heq⟩
  · rintro ⟨hplain, rfl⟩
    exact readQuoted_append hplain

/-! ### Labels -/

/-- Labels are read up to the brace, with what is left. The first argument bounds their number. -/
def readLabels : ℕ → List Char → Option (List (List Char × List Char) × List Char)
  | 0, _ => none
  | fuel + 1, cs =>
    match cs.dropWhile (· ≠ '=') with
    | '=' :: '\x22' :: rest =>
      (readQuoted rest).bind fun r =>
        match r.2 with
        | ',' :: more => (readLabels fuel more).map fun r' =>
          ((cs.takeWhile (· ≠ '='), r.1) :: r'.1, r'.2)
        | '\x7d' :: left => some ([(cs.takeWhile (· ≠ '='), r.1)], left)
        | _ => none
    | _ => none

/-- A label without escapes. -/
def labelText (label : List Char × List Char) : List Char :=
  label.1 ++ '=' :: '\x22' :: (label.2 ++ ['\x22'])

/-- Labels without escapes. -/
def labelsText (labels : List (List Char × List Char)) : List Char :=
  [','].intercalate (labels.map labelText)

/-- There is nothing to escape in a label. -/
def IsPlainLabel (label : List Char × List Char) : Prop := '=' ∉ label.1 ∧ IsPlain label.2

instance (label : List Char × List Char) : Decidable (IsPlainLabel label) :=
  inferInstanceAs (Decidable (_ ∧ _))

variable {name : List Char} {label : List Char × List Char} {labels : List (List Char × List Char)}
  {fuel : ℕ}

theorem takeWhile_ne_append {d : Char} (hname : d ∉ name) :
    (name ++ d :: cs).takeWhile (· ≠ d) = name := by
  rw [List.takeWhile_append_of_pos fun c hc => by simpa using fun heq : c = d => hname (heq ▸ hc)]
  simp

theorem dropWhile_ne_append {d : Char} (hname : d ∉ name) :
    (name ++ d :: cs).dropWhile (· ≠ d) = d :: cs := by
  rw [List.dropWhile_append_of_pos fun c hc => by simpa using fun heq : c = d => hname (heq ▸ hc)]
  simp

/-- The first label that is read, and those after it. -/
theorem readLabels_succ_iff : readLabels (fuel + 1) cs = some (label :: labels, rest') ↔
    '=' ∉ label.1 ∧ ∃ cs' left, cs = label.1 ++ '=' :: '\x22' :: cs' ∧
      readQuoted cs' = some (label.2, left) ∧
        (left = '\x7d' :: rest' ∧ labels = [] ∨
          ∃ more, left = ',' :: more ∧ readLabels fuel more = some (labels, rest')) := by
  obtain ⟨name, value⟩ := label
  constructor
  · intro h
    rw [readLabels] at h
    split at h
    · next rest hdrop =>
      obtain ⟨⟨value', left⟩, hquoted, h⟩ := Option.bind_eq_some_iff.1 h
      have hname : '=' ∉ cs.takeWhile (· ≠ '=') := fun hmem => by
        simpa using List.mem_takeWhile_imp hmem
      have hcs : cs = cs.takeWhile (· ≠ '=') ++ '=' :: '\x22' :: rest := by
        rw [← hdrop, List.takeWhile_append_dropWhile]
      split at h
      · next more hleft =>
        obtain ⟨⟨labels', left'⟩, hmore, heq⟩ := Option.map_eq_some_iff.1 h
        simp only [Prod.mk.injEq, List.cons.injEq] at heq
        obtain ⟨⟨⟨rfl, rfl⟩, rfl⟩, rfl⟩ := heq
        exact ⟨hname, rest, left, hcs, hquoted, .inr ⟨more, hleft, hmore⟩⟩
      · next left' hleft =>
        simp only [Option.some.injEq, Prod.mk.injEq, List.cons.injEq] at h
        obtain ⟨⟨⟨rfl, rfl⟩, rfl⟩, rfl⟩ := h
        exact ⟨hname, rest, left, hcs, hquoted, .inl ⟨hleft, rfl⟩⟩
      · exact absurd h (by simp)
    · exact absurd h (by simp)
  · rintro ⟨hname, cs', left, rfl, hquoted, hleft⟩
    rw [readLabels, dropWhile_ne_append hname, takeWhile_ne_append hname]
    simp only [hquoted, Option.bind_some]
    rcases hleft with ⟨rfl, rfl⟩ | ⟨more, rfl, hmore⟩
    · rfl
    · simp only [hmore, Option.map_some]

@[simp] theorem labelsText_singleton : labelsText [label] = labelText label :=
  List.intercalate_singleton

theorem labelsText_cons_cons {next : List Char × List Char} :
    labelsText (label :: next :: labels) =
      labelText label ++ ',' :: labelsText (next :: labels) := by
  rw [labelsText, List.map_cons, List.map_cons, List.intercalate_cons_cons, List.append_assoc]
  rfl

/-- **A label that is not escaped** is read back exactly if it is plain. -/
theorem readLabels_labelText_iff {tail : List Char} :
    readLabels (fuel + 1) (labelText label ++ tail) = some (label :: labels, rest') ↔
      IsPlainLabel label ∧ (tail = '\x7d' :: rest' ∧ labels = [] ∨
        ∃ more, tail = ',' :: more ∧ readLabels fuel more = some (labels, rest')) := by
  have htext : labelText label ++ tail =
      label.1 ++ '=' :: '\x22' :: (label.2 ++ '\x22' :: tail) := by
    simp [labelText]
  rw [htext, readLabels_succ_iff]
  constructor
  · rintro ⟨hname, cs', left, hcs, hquoted, hleft⟩
    obtain rfl := (List.cons.inj (List.cons.inj (List.append_cancel_left hcs)).2).2
    obtain ⟨hvalue, rfl⟩ := readQuoted_append_iff.1 hquoted
    exact ⟨⟨hname, hvalue⟩, hleft⟩
  · rintro ⟨⟨hname, hvalue⟩, hleft⟩
    exact ⟨hname, _, tail, rfl, readQuoted_append hvalue, hleft⟩

/-- **Labels that are not escaped** are read back exactly if they are plain. -/
theorem readLabels_append_iff (hlabels : labels ≠ []) (hfuel : labels.length ≤ fuel) :
    readLabels fuel (labelsText labels ++ '\x7d' :: rest) = some (labels, rest') ↔
      (∀ label ∈ labels, IsPlainLabel label) ∧ rest = rest' := by
  induction labels generalizing fuel with
  | nil => exact absurd rfl hlabels
  | cons label labels ih =>
    obtain ⟨fuel, rfl⟩ : ∃ n, fuel = n + 1 :=
      Nat.exists_eq_succ_of_ne_zero (Nat.ne_of_gt (Nat.lt_of_lt_of_le (Nat.succ_pos _) hfuel))
    rw [List.forall_mem_cons]
    rcases labels with _ | ⟨next, labels⟩
    · rw [labelsText_singleton, readLabels_labelText_iff, and_assoc]
      simp
    · have hrest := ih (List.cons_ne_nil _ _) (Nat.le_of_succ_le_succ hfuel)
      rw [labelsText_cons_cons, List.append_assoc, readLabels_labelText_iff, and_assoc, ← hrest]
      simp

theorem length_le_labelsText : labels.length ≤ (labelsText labels).length := by
  induction labels with
  | nil => exact Nat.zero_le _
  | cons label labels ih =>
    rcases labels with _ | ⟨next, labels⟩
    · simp [labelText]
      omega
    · rw [labelsText_cons_cons, List.length_append]
      simp only [List.length_cons] at ih ⊢
      omega

/-- The characters of labels without escapes. -/
theorem mem_labelsText_iff (hcomma : c ≠ ',') (hequal : c ≠ '=') (hquote : c ≠ '\x22') :
    c ∈ labelsText labels ↔ ∃ label ∈ labels, c ∈ label.1 ∨ c ∈ label.2 := by
  have hlabel : ∀ label, c ∈ labelText label ↔ c ∈ label.1 ∨ c ∈ label.2 := by
    simp [labelText, hequal, hquote]
  induction labels with
  | nil => simp [labelsText]
  | cons label labels ih =>
    rcases labels with _ | ⟨next, labels⟩
    · simp [hlabel]
    · rw [labelsText_cons_cons, List.mem_append, List.mem_cons, hlabel, List.exists_mem_cons_iff]
      simp only [hcomma, false_or]
      exact or_congr_right ih

theorem mem_labelsText_of_ne_nil (hlabels : labels ≠ []) : '=' ∈ labelsText labels := by
  obtain ⟨label, labels, rfl⟩ := List.exists_cons_of_ne_nil hlabels
  rcases labels with _ | ⟨next, labels⟩
  · simp [labelText]
  · rw [labelsText_cons_cons]
    simp [labelText]

/-- Labels that are written alike are the same, if they are plain. -/
theorem labelsText_inj {labels' : List (List Char × List Char)}
    (hplain : ∀ label ∈ labels, IsPlainLabel label)
    (hplain' : ∀ label ∈ labels', IsPlainLabel label)
    (h : labelsText labels = labelsText labels') : labels = labels' := by
  have hnil : ∀ {l l' : List (List Char × List Char)}, l = [] → labelsText l = labelsText l' →
      l = l' := by
    intro l l' hl heq
    subst hl
    by_contra hne
    exact List.not_mem_nil (heq ▸ mem_labelsText_of_ne_nil (Ne.symm hne))
  by_cases hlabels : labels = []
  · exact hnil hlabels h
  · by_cases hlabels' : labels' = []
    · exact (hnil hlabels' h.symm).symm
    · have hread : readLabels (labels.length + labels'.length) (labelsText labels ++ ['\x7d']) =
          some (labels, []) :=
        (readLabels_append_iff hlabels (Nat.le_add_right _ _)).2 ⟨hplain, rfl⟩
      have hread' : readLabels (labels.length + labels'.length) (labelsText labels' ++ ['\x7d']) =
          some (labels', []) :=
        (readLabels_append_iff hlabels' (Nat.le_add_left _ _)).2 ⟨hplain', rfl⟩
      rw [h, hread'] at hread
      exact (Prod.mk.inj (Option.some.inj hread)).1.symm

/-! ### Lines -/

/-- No line has an end of line in it. -/
theorem notMem_of_mem_splitOn {line : List Char} (h : line ∈ cs.splitOn c) : c ∉ line := by
  induction cs generalizing line with
  | nil =>
    rw [List.splitOn_nil, List.mem_singleton] at h
    exact h ▸ List.not_mem_nil
  | cons d cs ih =>
    rw [List.splitOn_cons_eq_if_modifyHead] at h
    split_ifs at h with hd
    · rcases List.mem_cons.1 h with rfl | h
      · exact List.not_mem_nil
      · exact ih h
    · obtain ⟨first, lines, hsplit⟩ := List.exists_cons_of_ne_nil (List.splitOn_ne_nil c cs)
      rw [hsplit] at h ih
      rcases List.mem_cons.1 h with rfl | h
      · rw [List.mem_cons, not_or]
        exact ⟨fun heq => hd (by simp [heq]), ih List.mem_cons_self⟩
      · exact ih (List.mem_cons_of_mem _ h)

/-- What a line says. -/
structure Sample where
  name : List Char
  labels : List (List Char × List Char)
  value : List Char

/-- The name ends here. -/
def endsName (c : Char) : Bool := c = '\x7b' || c = ' '

/-- A line is read; a comment says nothing. -/
def readSample (cs : List Char) : Option Sample :=
  if cs.head? = some '#' then none
  else
    match cs.dropWhile fun c => !endsName c with
    | '\x7b' :: rest =>
      (readLabels rest.length rest).bind fun r =>
        match r.2 with
        | ' ' :: value => some ⟨cs.takeWhile fun c => !endsName c, r.1, value⟩
        | _ => none
    | ' ' :: value => some ⟨cs.takeWhile fun c => !endsName c, [], value⟩
    | _ => none

/-- A name that begins no comment and does not end before its end. -/
def IsPlainName (name : List Char) : Prop :=
  name.head? ≠ some '#' ∧ ∀ c ∈ name, endsName c = false

instance (name : List Char) : Decidable (IsPlainName name) :=
  @instDecidableAnd _ _ inferInstance (List.decidableBAll (fun c => endsName c = false) name)

@[simp] theorem readSample_nil : readSample [] = none := rfl

@[simp] theorem readSample_comment : readSample ('#' :: cs) = none := rfl

/-- What is read of a line with a plain name depends on what follows the name. -/
theorem readSample_append (hname : IsPlainName name) (hc : endsName c = true) :
    readSample (name ++ c :: rest) =
      match c :: rest with
      | '\x7b' :: rest =>
        (readLabels rest.length rest).bind fun r =>
          match r.2 with
          | ' ' :: value => some ⟨name, r.1, value⟩
          | _ => none
      | ' ' :: value => some ⟨name, [], value⟩
      | _ => none := by
  obtain ⟨hhead, hends⟩ := hname
  have hskip : ∀ d ∈ name, (!endsName d) = true := fun d hd => by rw [hends d hd]; rfl
  have hhash : (name ++ c :: rest).head? ≠ some '#' := by
    rw [List.head?_append]
    cases hfirst : name.head? with
    | none =>
      rintro ⟨⟩
      exact absurd hc (by decide)
    | some d => exact fun heq => hhead (hfirst.trans heq)
  have htake : (name ++ c :: rest).takeWhile (fun d => !endsName d) = name := by
    rw [List.takeWhile_append_of_pos hskip, List.takeWhile_cons_of_neg (by simp [hc]),
      List.append_nil]
  have hdrop : (name ++ c :: rest).dropWhile (fun d => !endsName d) = c :: rest := by
    rw [List.dropWhile_append_of_pos hskip, List.dropWhile_cons_of_neg (by simp [hc])]
  rw [readSample, if_neg hhash, hdrop, htake]

/-- A line without labels is read back. -/
theorem readSample_bare (hname : IsPlainName name) :
    readSample (name ++ ' ' :: value) = some ⟨name, [], value⟩ :=
  readSample_append hname rfl

/-- **A line with labels that are not escaped** is read back exactly if they are plain. -/
theorem readSample_labelled_iff {value' : List Char} (hname : IsPlainName name)
    (hlabels : labels ≠ []) :
    readSample (name ++ '\x7b' :: (labelsText labels ++ '\x7d' :: ' ' :: value)) =
        some ⟨name, labels, value'⟩ ↔
      (∀ label ∈ labels, IsPlainLabel label) ∧ value = value' := by
  have hfuel : labels.length ≤ (labelsText labels ++ '\x7d' :: ' ' :: value).length := by
    rw [List.length_append]
    exact Nat.le_add_right_of_le length_le_labelsText
  rw [readSample_append hname rfl]
  constructor
  · intro h
    obtain ⟨⟨labels', left⟩, hread, h⟩ := Option.bind_eq_some_iff.1 h
    split at h
    · next value'' hleft =>
      obtain rfl : left = ' ' :: value'' := hleft
      simp only [Option.some.injEq, Sample.mk.injEq, true_and] at h
      obtain ⟨rfl, rfl⟩ := h
      obtain ⟨hplain, hvalue⟩ := (readLabels_append_iff hlabels hfuel).1 hread
      exact ⟨hplain, (List.cons.inj hvalue).2⟩
    · exact absurd h (by simp)
  · rintro ⟨hplain, rfl⟩
    refine Option.bind_eq_some_iff.2 ⟨(labels, ' ' :: value), ?_, rfl⟩
    exact (readLabels_append_iff hlabels hfuel).2 ⟨hplain, rfl⟩

end Foundation
