import SorobanPay.Foundation.QuotedLabels
import SorobanPay.Foundation.Run
import SorobanPay.Frontend.ActivityFeed

/-!
# The metrics registry

`services/metricsService.ts` keeps counters and gauges in memory. A metric has a value for each
label set, under a key that is made of the labels, sorted by their names. `getPrometheusMetrics`
renders all metrics, a value on a line.

Numbers, with their texts, `localeCompare` and `toUpperCase` are parameters. A number is read back
from its text; the two zeros, which have one text, are one number.

## Main definitions

* `labelKey`, `incrementCounter`, `setGauge`, `getPrometheusMetrics`, `recordHttpRequest`: the
  service.
* `valuesOf`: the values of a metric after a run.
* `foldCalls`: what some calls make of a value.

## Main results

* `after_step`: the registry after a run.
* `get_valuesOf`: what is stored under a key.
-/

set_option autoImplicit false

namespace SorobanPay.MetricsService

open Foundation
open ActivityFeed (Collation)

/-! ### The registry -/

/-- What is used of the runtime. -/
structure Runtime (N : Type) where
  collation : Collation
  toUpperCase : String → String
  zero : N
  one : N
  add : N → N → N
  text : N → String
  ofText : String → Option N
  ofText_text : ∀ n, ofText (text n) = some n
  isPlain_text : ∀ n, IsPlain (text n).toList
  line_notMem_text : ∀ n, '\n' ∉ (text n).toList

/-- The value of a label. -/
inductive LabelValue (N : Type) where
  | string (s : String)
  | number (n : N)

/-- Labels in the order of `Object.entries`. -/
abbrev LabelSet (N : Type) := InsertionMap String (LabelValue N)

inductive MetricType where
  | counter
  | gauge
  deriving DecidableEq, Repr

structure Metric (N : Type) where
  type : MetricType
  help : String
  values : InsertionMap String N

abbrev Registry (N : Type) := InsertionMap String (Metric N)

variable {N : Type}

section Registration

/-- `registerCounter` and `registerGauge`: a name that is there keeps its metric. -/
def register (type : MetricType) (registry : Registry N) (name help : String) : Registry N :=
  if (registry.get name).isSome then registry else registry.set name ⟨type, help, .empty⟩

def registerCounter (registry : Registry N) (name help : String) : Registry N :=
  register .counter registry name help

def registerGauge (registry : Registry N) (name help : String) : Registry N :=
  register .gauge registry name help

/-- The registry with all metrics registered. -/
def registered : Registry N :=
  let registry := registerGauge .empty "indexer_lag_seconds"
    "Seconds between the last successful RPC poll and now."
  let registry := registerCounter registry "events_processed_total"
    "Total number of on-chain contract events indexed."
  let registry := registerCounter registry "webhook_delivery_total"
    "Total webhook delivery attempts partitioned by status (success|failure)."
  let registry := registerCounter registry "rpc_poll_total"
    "Total Soroban RPC poll attempts partitioned by status (success|error)."
  registerCounter registry "http_requests_total"
    "Total HTTP requests partitioned by method, route, and status code."

end Registration

section Labels

variable (R : Runtime N)

def LabelValue.text : LabelValue N → String
  | .string s => s
  | .number n => R.text n

/-- The entries, sorted by their names, with the texts of the values. -/
def sortedEntries (labels : LabelSet N) : List (String × String) :=
  (labels.entries.mergeSort fun a b => R.collation.le a.1 b.1).map fun entry =>
    (entry.1, entry.2.text R)

def pairText (label : String × String) : String := label.1 ++ "=\x22" ++ label.2 ++ "\x22"

def labelKey : Option (LabelSet N) → String
  | none => "__default__"
  | some labels =>
    if labels.entries.length = 0 then "__default__"
    else ",".intercalate ((sortedEntries R labels).map pairText)

def formatLabels : Option (LabelSet N) → String
  | none => ""
  | some labels =>
    if labels.entries.length = 0 then ""
    else "\x7b" ++ ",".intercalate ((sortedEntries R labels).map pairText) ++ "\x7d"

end Labels

section Updates

variable (R : Runtime N) (registry : Registry N)

/-- The value of a label set of a metric is changed, if the metric is there and has the type. -/
def update (type : MetricType) (name : String) (labels : Option (LabelSet N))
    (f : Option N → N) : Registry N :=
  match registry.get name with
  | none => registry
  | some metric =>
    if metric.type = type then
      let key := labelKey R labels
      registry.set name { metric with values := metric.values.set key (f (metric.values.get key)) }
    else registry

def incrementCounter (name : String) (labels : Option (LabelSet N)) (amount : Option N) :
    Registry N :=
  update R registry .counter name labels fun value =>
    R.add (value.getD R.zero) (amount.getD R.one)

def setGauge (name : String) (value : N) (labels : Option (LabelSet N)) : Registry N :=
  update R registry .gauge name labels fun _ => value

/-- The labels of a request. -/
def httpLabels (method route : String) (statusCode : N) : LabelSet N where
  entries := [("method", .string (R.toUpperCase method)), ("route", .string route),
    ("status", .string (R.text statusCode))]
  nodup := by simp

def recordHttpRequest (method route : String) (statusCode : N) : Registry N :=
  incrementCounter R registry "http_requests_total" (some (httpLabels R method route statusCode))
    none

end Updates

section Rendering

variable (R : Runtime N)

def MetricType.text : MetricType → String
  | .counter => "counter"
  | .gauge => "gauge"

def seriesLine (name key : String) (value : N) : String :=
  if key = "__default__" then name ++ " " ++ R.text value
  else name ++ "\x7b" ++ key ++ "\x7d " ++ R.text value

def metricLines (name : String) (metric : Metric N) : List String :=
  ("# HELP " ++ name ++ " " ++ metric.help) :: ("# TYPE " ++ name ++ " " ++ metric.type.text) ::
    metric.values.entries.map fun entry => seriesLine R name entry.1 entry.2

def getPrometheusMetrics (registry : Registry N) : String :=
  "\n".intercalate (registry.entries.flatMap fun entry => metricLines R entry.1 entry.2) ++ "\n"

end Rendering

/-! ### Runs -/

/-- A call of the service. -/
inductive Call (N : Type) where
  | incrementCounter (name : String) (labels : Option (LabelSet N)) (amount : Option N)
  | setGauge (name : String) (value : N) (labels : Option (LabelSet N))

section Calls

variable (R : Runtime N)

def step (registry : Registry N) : Call N → Registry N
  | .incrementCounter name labels amount => incrementCounter R registry name labels amount
  | .setGauge name value labels => setGauge R registry name value labels

def Call.name : Call N → String
  | .incrementCounter name _ _ => name
  | .setGauge name _ _ => name

def Call.labels : Call N → Option (LabelSet N)
  | .incrementCounter _ labels _ => labels
  | .setGauge _ _ labels => labels

/-- The type of the metrics that the call changes. -/
def Call.type : Call N → MetricType
  | .incrementCounter .. => .counter
  | .setGauge .. => .gauge

/-- The value after the call. -/
def Call.newValue : Call N → Option N → N
  | .incrementCounter _ _ amount, value => R.add (value.getD R.zero) (amount.getD R.one)
  | .setGauge _ value _, _ => value

/-- The call is of a metric that is there, and of its type. -/
def Call.IsDeclared (c : Call N) : Prop :=
  ((registered : Registry N).get c.name).map Metric.type = some c.type

instance (c : Call N) : Decidable c.IsDeclared := inferInstanceAs (Decidable (_ = _))

/-- The call changes a value of the metric. -/
def Call.Changes (c : Call N) (name : String) : Prop := c.IsDeclared ∧ c.name = name

instance (c : Call N) (name : String) : Decidable (c.Changes name) :=
  inferInstanceAs (Decidable (_ ∧ _))

/-- The values of a metric after a run. -/
def valuesOf (calls : List (Call N)) (name : String) : InsertionMap String N :=
  calls.foldl (fun values c =>
    if c.Changes name then
      values.set (labelKey R c.labels) (c.newValue R (values.get (labelKey R c.labels)))
    else values) .empty

/-- What a run makes of a value by the calls with a property. -/
def foldCalls (P : Call N → Prop) [DecidablePred P] (calls : List (Call N)) : Option N :=
  calls.foldl (fun value c => if P c then some (c.newValue R value) else value) none

/-- The metric with other values. -/
def withValues (values : String → InsertionMap String N) (name : String) (metric : Metric N) :
    Metric N :=
  { metric with values := values name }

end Calls

variable {R : Runtime N} {registry : Registry N} {c : Call N} {calls : List (Call N)}
  {name key : String}

theorem step_eq : step R registry c = update R registry c.type c.name c.labels (c.newValue R) := by
  cases c <;> rfl

/-- A request is a call. -/
theorem recordHttpRequest_eq {method route : String} {statusCode : N} :
    recordHttpRequest R registry method route statusCode =
      step R registry (.incrementCounter "http_requests_total"
        (some (httpLabels R method route statusCode)) none) := rfl

/-- Nothing is stored, and the names and helps can stand on lines. -/
def IsBlank (registry : Registry N) : Prop := ∀ name metric, registry.get name = some metric →
  metric.values = .empty ∧ IsPlainName name.toList ∧ '\n' ∉ name.toList ∧ '\n' ∉ metric.help.toList

theorem IsBlank.register {type : MetricType} {help : String} (h : IsBlank registry)
    (hname : IsPlainName name.toList) (hline : '\n' ∉ name.toList)
    (hhelp : '\n' ∉ help.toList) : IsBlank (register type registry name help) := by
  intro name' metric hget
  rw [MetricsService.register] at hget
  split_ifs at hget with hsome
  · exact h name' metric hget
  · rw [InsertionMap.get_set] at hget
    split_ifs at hget with hname'
    · obtain rfl := Option.some.inj hget
      exact ⟨rfl, hname' ▸ hname, hname' ▸ hline, hhelp⟩
    · exact h name' metric hget

theorem isBlank_registered : IsBlank (registered : Registry N) := by
  have hempty : IsBlank (.empty : Registry N) := by
    intro name metric hget
    cases hget
  unfold registered registerCounter registerGauge
  refine IsBlank.register ?_ (by decide) (by decide) (by decide)
  refine IsBlank.register ?_ (by decide) (by decide) (by decide)
  refine IsBlank.register ?_ (by decide) (by decide) (by decide)
  refine IsBlank.register ?_ (by decide) (by decide) (by decide)
  exact hempty.register (by decide) (by decide) (by decide)

/-- The counter of requests is there. -/
theorem isDeclared_http {labels : Option (LabelSet N)} {amount : Option N} :
    (Call.incrementCounter "http_requests_total" labels amount).IsDeclared := by
  simp [Call.IsDeclared, registered, registerCounter, registerGauge, register,
    InsertionMap.get_set, Call.name, Call.type]

theorem valuesOf_append : valuesOf R (calls ++ [c]) name =
    if c.Changes name then
      (valuesOf R calls name).set (labelKey R c.labels)
        (c.newValue R ((valuesOf R calls name).get (labelKey R c.labels)))
    else valuesOf R calls name := by
  simp only [valuesOf, List.foldl_append, List.foldl_cons, List.foldl_nil]

/-- **The registry after a run**: the metrics are those that are registered, with other values. -/
theorem after_step : after (step R) registered calls =
    registered.mapValues (withValues (valuesOf R calls)) := by
  induction calls using List.reverseRecOn with
  | nil =>
    rw [after_nil]
    refine (InsertionMap.mapValues_eq_self fun name metric hget => ?_).symm
    obtain ⟨hvalues, -⟩ := isBlank_registered name metric hget
    rw [withValues, valuesOf, List.foldl_nil, ← hvalues]
  | append_singleton calls c ih =>
    have hignored : ¬ c.IsDeclared →
        (registered : Registry N).mapValues (withValues (valuesOf R calls)) =
          registered.mapValues (withValues (valuesOf R (calls ++ [c]))) := by
      intro hdeclared
      refine InsertionMap.mapValues_congr fun name metric _ => ?_
      rw [withValues, withValues, valuesOf_append, if_neg fun h => hdeclared h.1]
    rw [after_append, after_cons, after_nil, ih, step_eq, update, InsertionMap.get_mapValues]
    cases hget : (registered : Registry N).get c.name with
    | none =>
      refine hignored fun hdeclared => ?_
      rw [Call.IsDeclared, hget] at hdeclared
      cases hdeclared
    | some metric =>
      have hdeclared : c.IsDeclared ↔ metric.type = c.type := by
        rw [Call.IsDeclared, hget]
        exact Option.some_inj
      simp only [Option.map_some]
      split_ifs with htype
      · rw [InsertionMap.set_mapValues hget]
        refine InsertionMap.mapValues_congr fun name metric' hmetric' => ?_
        by_cases hname : name = c.name
        · subst hname
          obtain rfl := Option.some.inj (hget.symm.trans hmetric')
          rw [if_pos rfl, withValues, withValues, valuesOf_append,
            if_pos ⟨hdeclared.2 htype, rfl⟩]
        · rw [if_neg hname, withValues, withValues, valuesOf_append,
            if_neg fun h => hname h.2.symm]
      · exact hignored (mt hdeclared.1 htype)

section FoldCalls

variable {P Q : Call N → Prop} [DecidablePred P] [DecidablePred Q]

theorem foldCalls_append :
    foldCalls R P (calls ++ [c]) =
      if P c then some (c.newValue R (foldCalls R P calls)) else foldCalls R P calls := by
  rw [foldCalls, List.foldl_append]
  rfl

theorem foldCalls_congr (h : ∀ c ∈ calls, P c ↔ Q c) :
    foldCalls R P calls = foldCalls R Q calls := by
  induction calls using List.reverseRecOn with
  | nil => rfl
  | append_singleton calls c ih =>
    rw [List.forall_mem_append, List.forall_mem_singleton] at h
    rw [foldCalls_append, foldCalls_append, ih h.1]
    simp only [h.2]

theorem isSome_foldCalls : (foldCalls R P calls).isSome ↔ ∃ c ∈ calls, P c := by
  induction calls using List.reverseRecOn with
  | nil => simp [foldCalls]
  | append_singleton calls c ih =>
    rw [foldCalls_append]
    split_ifs with hc
    · simp only [Option.isSome_some, true_iff]
      exact ⟨c, List.mem_append_right _ (List.mem_singleton_self c), hc⟩
    · rw [ih]
      simp [or_and_right, exists_or, hc]

end FoldCalls

/-- **What is stored under a key** is made by the calls of the metric with this key. -/
theorem get_valuesOf : (valuesOf R calls name).get key =
    foldCalls R (fun c => c.Changes name ∧ labelKey R c.labels = key) calls := by
  induction calls using List.reverseRecOn with
  | nil => rfl
  | append_singleton calls c ih =>
    rw [foldCalls_append, ← ih, valuesOf_append]
    by_cases hchanges : c.Changes name
    · rw [if_pos hchanges, InsertionMap.get_set]
      by_cases hkey : labelKey R c.labels = key
      · rw [if_pos hkey.symm, if_pos ⟨hchanges, hkey⟩, hkey]
      · rw [if_neg (Ne.symm hkey), if_neg fun h => hkey h.2]
    · rw [if_neg hchanges, if_neg fun h => hchanges h.1]

end SorobanPay.MetricsService
