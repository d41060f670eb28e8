import SorobanPay.Backend.MetricsService

/-!
# Metric series are kept apart

The values of labels are not escaped in the keys of `services/metricsService.ts`, nor in the text of
`getPrometheusMetrics`, which is to be in the text exposition format: a quotation mark, a backslash
and a line feed in the value of a label have to be escaped there. The series of a run are kept apart
if and only if no label that is used has anything to escape, and no label set is used in two orders
of names that `localeCompare` cannot tell apart.

## Main definitions

* `Safe`: labels with nothing to escape.
* `KeptApart`: what the registry is for.
* `Harmless`: the runs in which it does what it is for.

## Main results

* `labelKey_inj`: the key tells the labels, if they are safe.
* `written_iff`: the line of a series is one line and is read back exactly if the labels are safe.
* `metrics_apart_iff`: the runs in which series are kept apart.
* `keptApart_of_safe`, `requests_apart_iff`: runs with names that can be told apart, and runs of
  requests.
-/

set_option autoImplicit false

namespace SorobanPay.MetricsService

open Foundation

variable {N : Type}

/-! ### Label sets -/

section Labels

variable (R : Runtime N)

/-- The labels as they are written: sorted by their names. -/
def sortedLabels : Option (LabelSet N) → List (String × String)
  | none => []
  | some labels => sortedEntries R labels

/-- The labels as they are given. -/
def labelTexts : Option (LabelSet N) → List (String × String)
  | none => []
  | some labels => labels.entries.map fun entry => (entry.1, entry.2.text R)

/-- The same labels, in any order. -/
def SameLabels (labels labels' : Option (LabelSet N)) : Prop :=
  (labelTexts R labels).Perm (labelTexts R labels')

instance (labels labels' : Option (LabelSet N)) : Decidable (SameLabels R labels labels') :=
  inferInstanceAs (Decidable (List.Perm _ _))

/-- The characters of a label. -/
def labelChars (label : String × String) : List Char × List Char :=
  (label.1.toList, label.2.toList)

/-- No name has an equals sign or a line feed in it, and no value a quotation mark, a backslash or a
line feed. -/
def Safe (labels : Option (LabelSet N)) : Prop :=
  ∀ label ∈ labelTexts R labels,
    IsPlainLabel (labelChars label) ∧ '\n' ∉ label.1.toList ∧ '\n' ∉ label.2.toList

/-- The names of the two are written in the same order. -/
def SortedAlike (labels labels' : Option (LabelSet N)) : Prop :=
  (sortedLabels R labels).map Prod.fst = (sortedLabels R labels').map Prod.fst

end Labels

variable {R : Runtime N} {labels labels' : Option (LabelSet N)} {name key : String} {value : N}

theorem SameLabels.refl (labels : Option (LabelSet N)) : SameLabels R labels labels :=
  List.Perm.refl _

theorem perm_sortedLabels : (sortedLabels R labels).Perm (labelTexts R labels) := by
  cases labels with
  | none => exact List.Perm.refl _
  | some labels => exact (List.mergeSort_perm _ _).map _

theorem mem_sortedLabels {label : String × String} :
    label ∈ sortedLabels R labels ↔ label ∈ labelTexts R labels :=
  perm_sortedLabels.mem_iff

theorem nodup_sortedLabels : ((sortedLabels R labels).map Prod.fst).Nodup := by
  refine (perm_sortedLabels.map Prod.fst).nodup_iff.2 ?_
  cases labels with
  | none => exact List.nodup_nil
  | some labels =>
    rw [labelTexts, List.map_map]
    exact labels.nodup

/-- Label sets are the same if they are written alike. -/
theorem SameLabels.of_sortedLabels (h : sortedLabels R labels = sortedLabels R labels') :
    SameLabels R labels labels' :=
  (perm_sortedLabels.symm.trans (h ▸ List.Perm.refl _)).trans perm_sortedLabels

/-- The same labels in the same order of names are written alike. -/
theorem SameLabels.sortedLabels_eq (h : SameLabels R labels labels')
    (hsorted : SortedAlike R labels labels') : sortedLabels R labels = sortedLabels R labels' := by
  have hperm : (sortedLabels R labels).Perm (sortedLabels R labels') :=
    (perm_sortedLabels.trans h).trans perm_sortedLabels.symm
  refine List.ext_getElem hperm.length_eq fun i hi hi' => ?_
  refine List.inj_on_of_nodup_map nodup_sortedLabels (List.getElem_mem hi)
    (hperm.mem_iff.2 (List.getElem_mem hi')) ?_
  have hnames := List.getElem_of_eq hsorted (by rwa [List.length_map])
  rwa [List.getElem_map, List.getElem_map] at hnames

/-- The names are sorted. -/
theorem map_fst_sortedLabels (labels : LabelSet N) :
    (sortedLabels R (some labels)).map Prod.fst = labels.keys.mergeSort R.collation.le := by
  rw [sortedLabels, sortedEntries, List.map_map]
  exact List.map_mergeSort fun _ _ _ _ => rfl

/-- Names that can be told apart are written in the same order. -/
theorem SameLabels.sortedAlike (h : SameLabels R labels labels')
    (hapart : ∀ a ∈ (labelTexts R labels).map Prod.fst, ∀ b ∈ (labelTexts R labels).map Prod.fst,
      R.collation.le a b = true → R.collation.le b a = true → a = b) :
    SortedAlike R labels labels' := by
  have hpairwise : ∀ labels : Option (LabelSet N),
      ((sortedLabels R labels).map Prod.fst).Pairwise fun a b => R.collation.le a b = true := by
    intro labels
    cases labels with
    | none => exact List.Pairwise.nil
    | some labels =>
      rw [map_fst_sortedLabels]
      exact List.pairwise_mergeSort R.collation.trans R.collation.total _
  have hnames : ((sortedLabels R labels).map Prod.fst).Perm ((labelTexts R labels).map Prod.fst) :=
    perm_sortedLabels.map Prod.fst
  have hnames' : ((sortedLabels R labels').map Prod.fst).Perm
      ((labelTexts R labels).map Prod.fst) :=
    (perm_sortedLabels.trans h.symm).map Prod.fst
  refine List.Perm.eq_of_pairwise (fun a b ha hb => ?_) (hpairwise labels) (hpairwise labels')
    (hnames.trans hnames'.symm)
  exact hapart a (hnames.mem_iff.1 ha) b (hnames'.mem_iff.1 hb)

/-! ### Keys -/

theorem toList_intercalate_pairText (l : List (String × String)) :
    (",".intercalate (l.map pairText)).toList = labelsText (l.map labelChars) := by
  rw [String.toList_intercalate, labelsText, List.map_map, List.map_map]
  refine congrArg _ (List.map_congr_left fun label _ => ?_)
  simp [pairText, labelText, labelChars]

theorem length_sortedEntries (labels : LabelSet N) :
    (sortedEntries R labels).length = labels.entries.length := by
  rw [sortedEntries, List.length_map, List.length_mergeSort]

/-- The key is made of the sorted labels. -/
theorem labelKey_eq : labelKey R labels = if sortedLabels R labels = [] then "__default__"
    else ",".intercalate ((sortedLabels R labels).map pairText) := by
  cases labels with
  | none => rfl
  | some labels =>
    rw [labelKey, sortedLabels]
    simp only [← length_sortedEntries (R := R) labels, List.length_eq_zero_iff]

theorem labelKey_of_nil (h : sortedLabels R labels = []) : labelKey R labels = "__default__" := by
  rw [labelKey_eq, if_pos h]

theorem toList_labelKey (h : sortedLabels R labels ≠ []) :
    (labelKey R labels).toList = labelsText ((sortedLabels R labels).map labelChars) := by
  rw [labelKey_eq, if_neg h, toList_intercalate_pairText]

theorem labelChars_ne_nil (h : sortedLabels R labels ≠ []) :
    (sortedLabels R labels).map labelChars ≠ [] :=
  mt List.map_eq_nil_iff.1 h

theorem labelKey_ne_default (h : sortedLabels R labels ≠ []) :
    labelKey R labels ≠ "__default__" := by
  intro heq
  have hmem := mem_labelsText_of_ne_nil (labelChars_ne_nil h)
  rw [← toList_labelKey h, heq] at hmem
  exact absurd hmem (by decide)

/-- What is written after the name is the key in braces, if there are labels. -/
theorem seriesLine_eq : seriesLine R name (labelKey R labels) value =
    name ++ formatLabels R labels ++ " " ++ R.text value := by
  by_cases h : sortedLabels R labels = []
  · have hformat : formatLabels R labels = "" := by
      cases labels with
      | none => rfl
      | some labels =>
        have hlength := length_sortedEntries (R := R) labels
        rw [show sortedEntries R labels = [] from h, List.length_nil] at hlength
        rw [formatLabels, if_pos hlength.symm]
    rw [seriesLine, if_pos (labelKey_of_nil h), hformat, String.append_empty]
  · have hformat : formatLabels R labels = "\x7b" ++ labelKey R labels ++ "\x7d" := by
      cases labels with
      | none => exact absurd rfl h
      | some labels =>
        have hlength : labels.entries.length ≠ 0 := by
          rw [← length_sortedEntries (R := R) labels]
          exact fun hzero => h (List.length_eq_zero_iff.1 hzero)
        rw [formatLabels, labelKey, if_neg hlength, if_neg hlength]
    rw [seriesLine, if_neg (labelKey_ne_default h), hformat]
    simp [String.append_assoc]

theorem safe_iff : Safe R labels ↔ ∀ label ∈ sortedLabels R labels,
    IsPlainLabel (labelChars label) ∧ '\n' ∉ label.1.toList ∧ '\n' ∉ label.2.toList :=
  forall_congr' fun _ => imp_congr_left mem_sortedLabels.symm

theorem labelChars_injective : Function.Injective labelChars := by
  rintro ⟨name, value⟩ ⟨name', value'⟩ h
  obtain ⟨hname, hvalue⟩ := Prod.mk.inj h
  exact Prod.ext (String.toList_injective hname) (String.toList_injective hvalue)

theorem Safe.isPlainLabel (h : Safe R labels) :
    ∀ label ∈ (sortedLabels R labels).map labelChars, IsPlainLabel label :=
  List.forall_mem_map.2 fun label hlabel => (safe_iff.1 h label hlabel).1

/-- **The key tells the labels**, if they are safe. -/
theorem labelKey_inj (hsafe : Safe R labels) (hsafe' : Safe R labels')
    (h : labelKey R labels = labelKey R labels') :
    sortedLabels R labels = sortedLabels R labels' := by
  by_cases hnil : sortedLabels R labels = []
  · by_contra hne
    exact labelKey_ne_default (fun hnil' => hne (hnil.trans hnil'.symm))
      (h.symm.trans (labelKey_of_nil hnil))
  · by_cases hnil' : sortedLabels R labels' = []
    · exact absurd (h.trans (labelKey_of_nil hnil')) (labelKey_ne_default hnil)
    · have htext := congrArg String.toList h
      rw [toList_labelKey hnil, toList_labelKey hnil'] at htext
      exact List.map_injective_iff.2 labelChars_injective
        (labelsText_inj hsafe.isPlainLabel hsafe'.isPlainLabel htext)

/-! ### Lines -/

/-- A metric and labels. -/
abbrev Series := String × List (String × String)

/-- The lines of a text. -/
def textLines (text : String) : List (List Char) := text.toList.splitOn '\n'

/-- What a line says of a series, if it says something. -/
def readSeries (R : Runtime N) (line : List Char) : Option (Series × N) :=
  (readSample line).bind fun sample => (R.ofText (String.ofList sample.value)).map fun value =>
    ((String.ofList sample.name, sample.labels.map fun label =>
      (String.ofList label.1, String.ofList label.2)), value)

theorem toList_seriesLine_of_nil (h : sortedLabels R labels = []) :
    (seriesLine R name (labelKey R labels) value).toList =
      name.toList ++ ' ' :: (R.text value).toList := by
  rw [seriesLine, if_pos (labelKey_of_nil h)]
  simp

theorem toList_seriesLine (h : sortedLabels R labels ≠ []) :
    (seriesLine R name (labelKey R labels) value).toList =
      name.toList ++ '\x7b' :: (labelsText ((sortedLabels R labels).map labelChars) ++
        '\x7d' :: ' ' :: (R.text value).toList) := by
  rw [seriesLine, if_neg (labelKey_ne_default h), ← toList_labelKey h]
  simp

/-- The line of a series is read back exactly if its labels are plain. -/
theorem readSeries_seriesLine_iff (hname : IsPlainName name.toList) :
    readSeries R (seriesLine R name (labelKey R labels) value).toList =
        some ((name, sortedLabels R labels), value) ↔
      ∀ label ∈ sortedLabels R labels, IsPlainLabel (labelChars label) := by
  have hback : (sortedLabels R labels).map ((fun label : List Char × List Char =>
      (String.ofList label.1, String.ofList label.2)) ∘ labelChars) = sortedLabels R labels := by
    refine (List.map_congr_left fun label _ => ?_).trans (List.map_id _)
    exact Prod.ext String.ofList_toList String.ofList_toList
  by_cases h : sortedLabels R labels = []
  · rw [toList_seriesLine_of_nil h, readSeries, readSample_bare hname, h]
    simp [R.ofText_text]
  · rw [toList_seriesLine h, ← List.forall_mem_map]
    constructor
    · intro hread
      obtain ⟨sample, hsample, hread⟩ := Option.bind_eq_some_iff.1 hread
      obtain ⟨value', -, heq⟩ := Option.map_eq_some_iff.1 hread
      obtain ⟨hseries, rfl⟩ := Prod.mk.inj heq
      obtain ⟨hname', hlabels⟩ := Prod.mk.inj hseries
      have hchars : sample.labels = (sortedLabels R labels).map labelChars := by
        rw [← hlabels, List.map_map]
        refine ((List.map_congr_left fun label _ => ?_).trans (List.map_id _)).symm
        exact Prod.ext String.toList_ofList String.toList_ofList
      have hsample' : sample = ⟨name.toList, (sortedLabels R labels).map labelChars,
          sample.value⟩ := by
        rw [← hchars, ← hname', String.toList_ofList]
      rw [hsample'] at hsample
      exact ((readSample_labelled_iff hname (labelChars_ne_nil h)).1 hsample).1
    · intro hplain
      rw [readSeries, (readSample_labelled_iff hname (labelChars_ne_nil h)).2 ⟨hplain, rfl⟩]
      simp [R.ofText_text, hback]

/-- The line of a series has no line feed in it exactly if its labels have none. -/
theorem line_notMem_iff (hline : '\n' ∉ name.toList) :
    '\n' ∉ (seriesLine R name (labelKey R labels) value).toList ↔
      ∀ label ∈ sortedLabels R labels, '\n' ∉ label.1.toList ∧ '\n' ∉ label.2.toList := by
  by_cases h : sortedLabels R labels = []
  · rw [toList_seriesLine_of_nil h, h]
    simp [hline, R.line_notMem_text]
  · rw [toList_seriesLine h, List.mem_append, List.mem_cons, List.mem_append,
      mem_labelsText_iff (by decide) (by decide) (by decide)]
    simp [hline, R.line_notMem_text, labelChars]

/-- **A series on a line**: the line is one line and is read back exactly if the labels are safe. -/
theorem written_iff (hname : IsPlainName name.toList) (hline : '\n' ∉ name.toList) :
    ('\n' ∉ (seriesLine R name (labelKey R labels) value).toList ∧
      readSeries R (seriesLine R name (labelKey R labels) value).toList =
        some ((name, sortedLabels R labels), value)) ↔ Safe R labels := by
  rw [line_notMem_iff hline, readSeries_seriesLine_iff hname, safe_iff, ← forall₂_and]
  simp only [and_comm]

/-! ### The text -/

/-- The lines of all metrics. -/
def pushedLines (R : Runtime N) (registry : Registry N) : List String :=
  registry.entries.flatMap fun entry => metricLines R entry.1 entry.2

variable {registry : Registry N} {calls : List (Call N)} {c c' : Call N}

@[simp] theorem readSeries_nil : readSeries R [] = none := rfl

theorem readSeries_comment {line : List Char} (h : line.head? = some '#') :
    readSeries R line = none := by
  rw [readSeries, readSample, if_pos h]
  rfl

/-- The text has the lines that were pushed, if these are lines. -/
theorem textLines_getPrometheusMetrics (hne : pushedLines R registry ≠ [])
    (hlines : ∀ line ∈ pushedLines R registry, '\n' ∉ line.toList) :
    textLines (getPrometheusMetrics R registry) =
      (pushedLines R registry).map String.toList ++ [[]] := by
  have htext : (getPrometheusMetrics R registry).toList =
      ['\n'].intercalate ((pushedLines R registry).map String.toList) ++ '\n' :: [] := by
    rw [getPrometheusMetrics, String.toList_append, String.toList_intercalate]
    rfl
  rw [textLines, htext, List.splitOn_append_cons_self, List.splitOn_nil,
    List.splitOn_intercalate '\n' (List.forall_mem_map.2 hlines) (mt List.map_eq_nil_iff.1 hne)]

/-- What is read of the text is read of the lines that were pushed. -/
theorem filterMap_textLines (hlines : ∀ line ∈ pushedLines R registry, '\n' ∉ line.toList) :
    (textLines (getPrometheusMetrics R registry)).filterMap (readSeries R) =
      (pushedLines R registry).filterMap fun line => readSeries R line.toList := by
  by_cases hne : pushedLines R registry = []
  · have htext : getPrometheusMetrics R registry = "\n" := by
      rw [getPrometheusMetrics, ← pushedLines, hne]
      rfl
    rw [htext, hne]
    rfl
  · rw [textLines_getPrometheusMetrics hne hlines, List.filterMap_append, List.filterMap_map]
    simp

/-! ### Runs -/

section Runs

variable (R : Runtime N) (calls : List (Call N))

/-- The registry after the calls. -/
abbrev registryAfter : Registry N := after (step R) registered calls

/-- What is stored for labels of a metric. -/
def storedValue (registry : Registry N) (name : String) (labels : Option (LabelSet N)) : Option N :=
  (registry.get name).bind fun metric => metric.values.get (labelKey R labels)

/-- What the calls with these labels make of their value. -/
def seriesValue (name : String) (labels : Option (LabelSet N)) : Option N :=
  foldCalls R (fun c => c.Changes name ∧ SameLabels R c.labels labels) calls

/-- Different labels have different keys, what is stored for labels is what the calls with these
labels make of it, and the text says it, on one line. -/
structure KeptApart : Prop where
  separate : ∀ c ∈ calls, ∀ c' ∈ calls, c.IsDeclared → c'.IsDeclared → c.name = c'.name →
    (labelKey R c.labels = labelKey R c'.labels ↔ SameLabels R c.labels c'.labels)
  stored : ∀ c ∈ calls, c.IsDeclared →
    storedValue R (registryAfter R calls) c.name c.labels = seriesValue R calls c.name c.labels
  written : ∀ c ∈ calls, c.IsDeclared → ∀ value,
    storedValue R (registryAfter R calls) c.name c.labels = some value →
    (seriesLine R c.name (labelKey R c.labels) value).toList ∈
        textLines (getPrometheusMetrics R (registryAfter R calls)) ∧
      readSeries R (seriesLine R c.name (labelKey R c.labels) value).toList =
        some ((c.name, sortedLabels R c.labels), value)
  once : (((textLines (getPrometheusMetrics R (registryAfter R calls))).filterMap
    (readSeries R)).map Prod.fst).Nodup

/-- The labels are safe, and the same labels are not used in two orders of names that are written
differently. -/
structure Harmless : Prop where
  safe : ∀ c ∈ calls, c.IsDeclared → Safe R c.labels
  sortedAlike : ∀ c ∈ calls, ∀ c' ∈ calls, c.IsDeclared → c'.IsDeclared → c.name = c'.name →
    SameLabels R c.labels c'.labels → SortedAlike R c.labels c'.labels

end Runs

theorem get_registryAfter {metric : Metric N}
    (h : (registered : Registry N).get name = some metric) :
    (registryAfter R calls).get name = some (withValues (valuesOf R calls) name metric) := by
  rw [registryAfter, after_step, InsertionMap.get_mapValues, h]
  rfl

theorem Call.IsDeclared.exists_get (h : c.IsDeclared) :
    ∃ metric, (registered : Registry N).get c.name = some metric := by
  obtain ⟨metric, hget, -⟩ := Option.map_eq_some_iff.1 h
  exact ⟨metric, hget⟩

theorem storedValue_registryAfter (hc : c.IsDeclared) :
    storedValue R (registryAfter R calls) c.name labels =
      foldCalls R (fun c' => c'.Changes c.name ∧ labelKey R c'.labels = labelKey R labels)
        calls := by
  obtain ⟨metric, hget⟩ := hc.exists_get
  rw [storedValue, get_registryAfter hget, ← get_valuesOf]
  rfl

theorem exists_storedValue (hmem : c ∈ calls) (hc : c.IsDeclared) :
    ∃ value, storedValue R (registryAfter R calls) c.name c.labels = some value := by
  rw [storedValue_registryAfter hc]
  exact Option.isSome_iff_exists.1 (isSome_foldCalls.2 ⟨c, hmem, ⟨hc, rfl⟩, rfl⟩)

/-- What is stored under a key comes from a call with this key. -/
theorem exists_call_of_get (h : (valuesOf R calls name).get key = some value) :
    ∃ c ∈ calls, c.Changes name ∧ labelKey R c.labels = key := by
  rw [get_valuesOf] at h
  exact isSome_foldCalls.1 (Option.isSome_iff_exists.2 ⟨value, h⟩)

/-! ### The lines of a run -/

section Safe

variable {metric : Metric N} {line : String}

/-- The lines of a metric: two comments, and a line for every value. -/
theorem mem_metricLines_iff : line ∈ metricLines R name metric ↔
    line = "# HELP " ++ name ++ " " ++ metric.help ∨
      line = "# TYPE " ++ name ++ " " ++ metric.type.text ∨
        ∃ key value, metric.values.get key = some value ∧ line = seriesLine R name key value := by
  simp only [metricLines, List.mem_cons, List.mem_map, Prod.exists, InsertionMap.mem_entries_iff,
    eq_comm (a := line)]

theorem exists_of_mem_pushedLines (h : line ∈ pushedLines R (registryAfter R calls)) :
    ∃ name metric, (registered : Registry N).get name = some metric ∧
      line ∈ metricLines R name (withValues (valuesOf R calls) name metric) := by
  obtain ⟨⟨name, metric⟩, hentry, hline⟩ := List.mem_flatMap.1 h
  rw [InsertionMap.mem_entries_iff, registryAfter, after_step, InsertionMap.get_mapValues] at hentry
  obtain ⟨metric, hget, rfl⟩ := Option.map_eq_some_iff.1 hentry
  exact ⟨name, metric, hget, hline⟩

/-- The line of what is stored. -/
theorem mem_pushedLines (hc : c.IsDeclared)
    (h : storedValue R (registryAfter R calls) c.name labels = some value) :
    seriesLine R c.name (labelKey R labels) value ∈ pushedLines R (registryAfter R calls) := by
  obtain ⟨metric, hget⟩ := hc.exists_get
  rw [storedValue, get_registryAfter hget] at h
  refine List.mem_flatMap.2 ⟨_, InsertionMap.mem_entries_iff.2 (get_registryAfter hget), ?_⟩
  exact mem_metricLines_iff.2 (.inr (.inr ⟨_, value, h, rfl⟩))

variable (hsafe : ∀ c ∈ calls, c.IsDeclared → Safe R c.labels)

include hsafe

/-- What is stored is written on one line, which tells the labels. -/
theorem written_of_stored (hget : (registered : Registry N).get name = some metric)
    (h : (valuesOf R calls name).get key = some value) :
    '\n' ∉ (seriesLine R name key value).toList ∧
      ∃ c ∈ calls, c.Changes name ∧ labelKey R c.labels = key ∧
        readSeries R (seriesLine R name key value).toList =
          some ((name, sortedLabels R c.labels), value) := by
  obtain ⟨-, hname, hline, -⟩ := isBlank_registered name metric hget
  obtain ⟨c, hc, hchanges, rfl⟩ := exists_call_of_get h
  obtain ⟨hone, hread⟩ := (written_iff hname hline).2 (hsafe c hc hchanges.1)
  exact ⟨hone, c, hc, hchanges, rfl, hread⟩

/-- A line of a metric is one line, and a comment or a line that says the name. -/
theorem of_mem_metricLines (hget : (registered : Registry N).get name = some metric)
    (h : line ∈ metricLines R name (withValues (valuesOf R calls) name metric)) :
    '\n' ∉ line.toList ∧ ∀ series, (readSeries R line.toList).map Prod.fst = some series →
      series.1 = name := by
  obtain ⟨-, -, hline, hhelp⟩ := isBlank_registered name metric hget
  rcases mem_metricLines_iff.1 h with rfl | rfl | ⟨key, value, hvalue, rfl⟩
  · rw [readSeries_comment (by simp)]
    exact ⟨by simp [withValues, hline, hhelp], nofun⟩
  · rw [readSeries_comment (by simp)]
    exact ⟨by cases htype : metric.type <;> simp [withValues, hline, htype, MetricType.text], nofun⟩
  · obtain ⟨hone, c, -, -, -, hread⟩ := written_of_stored hsafe hget hvalue
    refine ⟨hone, fun series hseries => ?_⟩
    rw [hread] at hseries
    exact Option.some.inj hseries ▸ rfl

theorem line_notMem_of_mem_pushedLines (h : line ∈ pushedLines R (registryAfter R calls)) :
    '\n' ∉ line.toList := by
  obtain ⟨name, metric, hget, hline⟩ := exists_of_mem_pushedLines h
  exact (of_mem_metricLines hsafe hget hline).1

/-- The lines of a metric say different series. -/
theorem pairwise_metricLines (hget : (registered : Registry N).get name = some metric) :
    (metricLines R name (withValues (valuesOf R calls) name metric)).Pairwise fun line line' =>
      ∀ s, (readSeries R line.toList).map Prod.fst = some s →
        ∀ s', (readSeries R line'.toList).map Prod.fst = some s' → s ≠ s' := by
  rw [metricLines, List.pairwise_cons, List.pairwise_cons, List.pairwise_map]
  refine ⟨fun line' _ s hs => ?_, fun line' _ s hs => ?_, ?_⟩
  · rw [readSeries_comment (by simp)] at hs
    cases hs
  · rw [readSeries_comment (by simp)] at hs
    cases hs
  · have hkeys := List.pairwise_map.1 (valuesOf R calls name).nodup
    refine hkeys.imp_of_mem ?_
    rintro ⟨key, value⟩ ⟨key', value'⟩ hentry hentry' hne s hs s' hs' rfl
    obtain ⟨-, c, -, -, rfl, hread⟩ :=
      written_of_stored hsafe hget (InsertionMap.mem_entries_iff.1 hentry)
    obtain ⟨-, c', -, -, rfl, hread'⟩ :=
      written_of_stored hsafe hget (InsertionMap.mem_entries_iff.1 hentry')
    rw [hread] at hs
    rw [hread'] at hs'
    have hseries := Option.some.inj (hs.trans hs'.symm)
    have hlabels : sortedLabels R c.labels = sortedLabels R c'.labels := (Prod.mk.inj hseries).2
    exact hne (by rw [labelKey_eq, labelKey_eq, hlabels])

/-- No series is on two lines. -/
theorem nodup_series : (((pushedLines R (registryAfter R calls)).filterMap fun line =>
    readSeries R line.toList).map Prod.fst).Nodup := by
  have hget : ∀ entry ∈ (registryAfter R calls).entries, ∃ metric,
      (registered : Registry N).get entry.1 = some metric ∧
        entry.2 = withValues (valuesOf R calls) entry.1 metric := by
    rintro ⟨name, metric⟩ hentry
    rw [InsertionMap.mem_entries_iff, registryAfter, after_step,
      InsertionMap.get_mapValues] at hentry
    obtain ⟨metric, hget, rfl⟩ := Option.map_eq_some_iff.1 hentry
    exact ⟨metric, hget, rfl⟩
  rw [List.map_filterMap, List.Nodup, List.pairwise_filterMap, pushedLines, List.pairwise_flatMap]
  constructor
  · intro entry hentry
    obtain ⟨metric, hmetric, heq⟩ := hget entry hentry
    rw [heq]
    exact pairwise_metricLines hsafe hmetric
  · refine (List.pairwise_map.1 (registryAfter R calls).nodup).imp_of_mem ?_
    intro entry entry' hentry hentry' hne line hline line' hline' s hs s' hs' heq
    obtain ⟨metric, hmetric, hvalues⟩ := hget entry hentry
    obtain ⟨metric', hmetric', hvalues'⟩ := hget entry' hentry'
    rw [hvalues] at hline
    rw [hvalues'] at hline'
    have hname := (of_mem_metricLines hsafe hmetric hline).2 s hs
    have hname' := (of_mem_metricLines hsafe hmetric' hline').2 s' hs'
    exact hne (by rw [← hname, ← hname', heq])

end Safe

/-! ### Series are kept apart -/

theorem KeptApart.safe (h : KeptApart R calls) : ∀ c ∈ calls, c.IsDeclared → Safe R c.labels := by
  intro c hc hdeclared
  obtain ⟨metric, hget⟩ := hdeclared.exists_get
  obtain ⟨-, hname, hline, -⟩ := isBlank_registered c.name metric hget
  obtain ⟨value, hvalue⟩ := exists_storedValue (R := R) hc hdeclared
  obtain ⟨hmem, hread⟩ := h.written c hc hdeclared value hvalue
  exact (written_iff hname hline).1 ⟨notMem_of_mem_splitOn hmem, hread⟩

theorem KeptApart.harmless (h : KeptApart R calls) : Harmless R calls := by
  refine ⟨h.safe, fun c hc c' hc' hdeclared hdeclared' hname hsame => ?_⟩
  have hkey := (h.separate c hc c' hc' hdeclared hdeclared' hname).2 hsame
  rw [SortedAlike, labelKey_inj (h.safe c hc hdeclared) (h.safe c' hc' hdeclared') hkey]

/-- The keys of a metric are those of its label sets. -/
theorem Harmless.labelKey_eq_iff (h : Harmless R calls) (hc : c ∈ calls) (hc' : c' ∈ calls)
    (hdeclared : c.IsDeclared) (hdeclared' : c'.IsDeclared) (hname : c.name = c'.name) :
    labelKey R c.labels = labelKey R c'.labels ↔ SameLabels R c.labels c'.labels := by
  constructor
  · intro hkey
    exact .of_sortedLabels (labelKey_inj (h.safe c hc hdeclared) (h.safe c' hc' hdeclared') hkey)
  · intro hsame
    have hsorted := h.sortedAlike c hc c' hc' hdeclared hdeclared' hname hsame
    rw [labelKey_eq, labelKey_eq, hsame.sortedLabels_eq hsorted]

theorem Harmless.keptApart (h : Harmless R calls) : KeptApart R calls where
  separate _ hc _ hc' := h.labelKey_eq_iff hc hc'
  stored c hc hdeclared := by
    rw [storedValue_registryAfter hdeclared, seriesValue]
    refine foldCalls_congr fun c' hc' => and_congr_right fun hchanges => ?_
    exact h.labelKey_eq_iff hc' hc hchanges.1 hdeclared hchanges.2
  written c hc hdeclared value hvalue := by
    obtain ⟨metric, hget⟩ := hdeclared.exists_get
    obtain ⟨-, hname, hline, -⟩ := isBlank_registered c.name metric hget
    have hmem := mem_pushedLines hdeclared hvalue
    rw [textLines_getPrometheusMetrics (List.ne_nil_of_mem hmem)
      fun line => line_notMem_of_mem_pushedLines h.safe]
    exact ⟨List.mem_append_left _ (List.mem_map_of_mem hmem),
      ((written_iff hname hline).2 (h.safe c hc hdeclared)).2⟩
  once := by
    rw [filterMap_textLines fun line => line_notMem_of_mem_pushedLines h.safe]
    exact nodup_series h.safe

/-- **Metric series are kept apart** in a run if and only if no label has anything to escape and no
label set is used in two orders that are written differently. -/
theorem metrics_apart_iff (R : Runtime N) (calls : List (Call N)) :
    KeptApart R calls ↔ Harmless R calls :=
  ⟨KeptApart.harmless, Harmless.keptApart⟩

/-- With names that can be told apart, safe labels are enough. -/
theorem keptApart_of_safe (hsafe : ∀ c ∈ calls, c.IsDeclared → Safe R c.labels)
    (hapart : ∀ c ∈ calls, ∀ a ∈ (labelTexts R c.labels).map Prod.fst,
      ∀ b ∈ (labelTexts R c.labels).map Prod.fst,
        R.collation.le a b = true → R.collation.le b a = true → a = b) :
    KeptApart R calls :=
  Harmless.keptApart ⟨hsafe, fun c hc _ _ _ _ _ hsame => hsame.sortedAlike (hapart c hc)⟩

/-! ### Requests -/

/-- The call of `recordHttpRequest`. -/
def request (R : Runtime N) (r : String × String × N) : Call N :=
  .incrementCounter "http_requests_total" (some (httpLabels R r.1 r.2.1 r.2.2)) none

theorem safe_httpLabels_iff {method route : String} {statusCode : N} :
    Safe R (some (httpLabels R method route statusCode)) ↔
      (IsPlain (R.toUpperCase method).toList ∧ '\n' ∉ (R.toUpperCase method).toList) ∧
        IsPlain route.toList ∧ '\n' ∉ route.toList := by
  simp [Safe, labelTexts, httpLabels, labelChars, IsPlainLabel, LabelValue.text, R.isPlain_text,
    R.line_notMem_text]

/-- **Requests are kept apart** exactly if their methods and routes have nothing to escape. -/
theorem requests_apart_iff {requests : List (String × String × N)} :
    KeptApart R (requests.map (request R)) ↔ ∀ r ∈ requests,
      (IsPlain (R.toUpperCase r.1).toList ∧ '\n' ∉ (R.toUpperCase r.1).toList) ∧
        IsPlain r.2.1.toList ∧ '\n' ∉ r.2.1.toList := by
  constructor
  · intro h r hr
    exact safe_httpLabels_iff.1 (h.safe _ (List.mem_map_of_mem hr) isDeclared_http)
  · intro h
    refine Harmless.keptApart ⟨List.forall_mem_map.2 fun r hr _ => safe_httpLabels_iff.2 (h r hr),
      fun c hc c' hc' _ _ _ _ => ?_⟩
    obtain ⟨r, -, rfl⟩ := List.mem_map.1 hc
    obtain ⟨r', -, rfl⟩ := List.mem_map.1 hc'
    -- The names of the labels of a request are always the same.
    exact (map_fst_sortedLabels (httpLabels R r.1 r.2.1 r.2.2)).trans
      (map_fst_sortedLabels (httpLabels R r'.1 r'.2.1 r'.2.2)).symm

/-! ### A quotation mark in a route -/

/-- Integers, and names in the order of their code points. -/
def sampleRuntime : Runtime ℤ where
  collation := ActivityFeed.sampleCollation
  toUpperCase := String.toUpper
  zero := 0
  one := 1
  add := (· + ·)
  text := toString
  ofText := Frontend.bigIntOfText
  ofText_text := Frontend.bigIntOfText_toString
  isPlain_text n c hc := by
    constructor
    · rintro rfl
      exact notMem_toList_toString (by decide) (by decide) n hc
    · rintro rfl
      exact notMem_toList_toString (by decide) (by decide) n hc
  line_notMem_text := notMem_toList_toString (by decide) (by decide)

/-- A route and a status. -/
def plainLabels : LabelSet ℤ where
  entries := [("route", .string "x"), ("status", .string "200")]
  nodup := by simp

/-- A route with quotation marks. -/
def quotedLabels : LabelSet ℤ where
  entries := [("route", .string "x\x22,status=\x22200")]
  nodup := by simp

/-- A call of the counter of requests. -/
def sampleCall (labels : LabelSet ℤ) : Call ℤ :=
  .incrementCounter "http_requests_total" (some labels) none

theorem sortedEntries_plainLabels :
    sortedEntries sampleRuntime plainLabels = [("route", "x"), ("status", "200")] := by
  rw [sortedEntries, List.mergeSort_of_pairwise (by decide)]
  rfl

/-- Different label sets have one key, and a route with a line feed is not on one line. -/
theorem not_metrics_apart_sample :
    (¬ SameLabels sampleRuntime (some plainLabels) (some quotedLabels) ∧
      labelKey sampleRuntime (some plainLabels) = labelKey sampleRuntime (some quotedLabels) ∧
        ¬ KeptApart sampleRuntime [sampleCall plainLabels, sampleCall quotedLabels]) ∧
      ¬ KeptApart sampleRuntime [request sampleRuntime ("get", "/a\nb", 200)] := by
  have hdifferent : ¬ SameLabels sampleRuntime (some plainLabels) (some quotedLabels) :=
    fun h => absurd h.length_eq (by decide)
  have hkey : labelKey sampleRuntime (some plainLabels) =
      labelKey sampleRuntime (some quotedLabels) := by
    rw [labelKey, labelKey, sortedEntries_plainLabels, sortedEntries, quotedLabels,
      List.mergeSort_singleton]
    decide
  refine ⟨⟨hdifferent, hkey, fun h => ?_⟩, fun h => ?_⟩
  · exact hdifferent ((h.separate (sampleCall plainLabels) (by simp) (sampleCall quotedLabels)
      (by simp) isDeclared_http isDeclared_http rfl).1 hkey)
  · have hroute := (requests_apart_iff.1 h _ (List.mem_singleton_self _)).2.2
    exact absurd hroute (by decide)

end SorobanPay.MetricsService
