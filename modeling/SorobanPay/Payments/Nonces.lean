import SorobanPay.Lifecycle.Announcements
import SorobanPay.Lifecycle.Provenance
import SorobanPay.Tokens.Ledger

/-!
# The nonces of payments

Every `executed` event carries the nonce of the payment, which is to identify the payment among all
payments of the pair. The nonce is a counter in the record of the pair, and within the life of one
record it counts up by one. But a pair has many records one after the other: `subscribe` starts the
counter of the new record at zero, whatever came before, and a transferred record brings along the
counter it had under its old merchant.

`executed_nonces_unique_iff` says what follows for the nonces of a run: they are distinct exactly
if every record of the pair ends before it has counted up to a nonce that an earlier record of the
pair has used.

## Main definitions

* `executedNonces`: the nonces published for a pair.
* `Act.startNonce`, `collectedNonces`: where the counter of a record starts, and the nonces of the
  collections among some acts.
* `EndsInTime`: every record of a pair ends before it counts up to a nonce that was used.

## Main results

* `Lifecycle.collectedNonces_eq`: the nonces of one record count up by one.
* `Lifecycle.nodup_collectedNonces_iff`: the nonces of one pair.
* `executed_nonces_unique_iff`: the nonces of a run.
* `not_nodup_resubscribed`: two payments with the same nonce.
-/

set_option autoImplicit false

namespace SorobanPay

open Foundation SubscriptionData

variable {Address Hash World Op : Type}

/-! ### Statement -/

/-- The nonce an event publishes for the pair `(s, m)`. -/
def Event.executedNonce [DecidableEq Address] (s m : Address) : Event Address → Option ℕ
  | .executed s' m' _ _ nonce => if s' = s ∧ m' = m then some nonce else none
  | _ => none

/-- The nonces published for the pair `(s, m)`. -/
def executedNonces [DecidableEq Address] (s m : Address) (events : List (Event Address)) : List ℕ :=
  events.filterMap (Event.executedNonce s m)

/-- The counter with which an act opens a record. -/
def Act.startNonce : Act Address → Option ℕ
  | .subscribe _ d | .moveIn _ d => some d.paymentNonce
  | _ => none

/-- The nonce of a collection. -/
def Act.nonce : Act Address → Option ℕ
  | .collect _ d => some (d.paymentNonce + 1)
  | _ => none

/-- The nonces of the collections among some acts. -/
def collectedNonces (as : List (Act Address)) : List ℕ := as.filterMap Act.nonce

/-- How many of some acts are collections. -/
def collections (as : List (Act Address)) : ℕ := (collectedNonces as).length

/-- A record opened with the counter `n₀` is collected fewer than `n - n₀` times before the next one
is opened, for every larger nonce `n` that an earlier record of the pair has used. -/
def EndsInTime (as : List (Act Address)) : Prop :=
  ∀ pre a life post n₀, as = pre ++ a :: (life ++ post) → a.startNonce = some n₀ →
    (∀ b ∈ life, b.startNonce = none) →
      ∀ n ∈ collectedNonces pre, n₀ < n → n₀ + collections life < n

@[simp] theorem collectedNonces_nil : collectedNonces ([] : List (Act Address)) = [] := rfl

@[simp] theorem collectedNonces_append (as bs : List (Act Address)) :
    collectedNonces (as ++ bs) = collectedNonces as ++ collectedNonces bs :=
  List.filterMap_append

@[simp] theorem collections_append (as bs : List (Act Address)) :
    collections (as ++ bs) = collections as + collections bs := by
  simp [collections]

theorem collectedNonces_cons_of_none {a : Act Address} (ha : a.nonce = none)
    (as : List (Act Address)) : collectedNonces (a :: as) = collectedNonces as :=
  List.filterMap_cons_none ha

theorem collectedNonces_cons_of_some {a : Act Address} {n : ℕ} (ha : a.nonce = some n)
    (as : List (Act Address)) : collectedNonces (a :: as) = n :: collectedNonces as :=
  List.filterMap_cons_some ha

theorem Act.nonce_eq_none {a : Act Address} {n₀ : ℕ} (ha : a.startNonce = some n₀) :
    a.nonce = none := by
  cases a <;> first | rfl | cases ha

/-! ### One life cycle -/

namespace Lifecycle

variable {r r' : Option (SubscriptionData Address)} {a : Act Address} {as life : List (Act Address)}
  {d : SubscriptionData Address} {n₀ : ℕ}

theorem exists_of_startNonce (h : Lifecycle r a r') (ha : a.startNonce = some n₀) :
    ∃ d, r' = some d ∧ d.paymentNonce = n₀ := by
  cases h with
  | subscribe | moveIn => exact ⟨_, rfl, Option.some.inj ha⟩
  | update | pause | resume | collect | markOverdue | cancel | moveOut => cases ha

theorem startNonce_ne_none (h : Lifecycle none a r) : a.startNonce ≠ none := by
  cases h with
  | subscribe | moveIn => exact Option.some_ne_none _

/-- Without an opening nothing happens to a pair without a record. -/
theorem eq_nil_of_path_none (h : Path Lifecycle none life r)
    (hlife : ∀ a ∈ life, a.startNonce = none) : life = [] := by
  cases h with
  | nil => rfl
  | cons hd _ => exact absurd (hlife _ List.mem_cons_self) hd.startNonce_ne_none

/-- **One record.** Until the next opening the nonces of the collections count up by one, and so
does the counter of the record. -/
theorem collectedNonces_eq (h : Path Lifecycle (some d) life r)
    (hlife : ∀ a ∈ life, a.startNonce = none) :
    collectedNonces life = List.range' (d.paymentNonce + 1) (collections life) ∧
      ∀ d', r = some d' → d'.paymentNonce = d.paymentNonce + collections life := by
  induction life generalizing d with
  | nil =>
    obtain rfl := Path.nil_iff.1 h
    exact ⟨rfl, fun d' hd' => by rw [Option.some.inj hd']; rfl⟩
  | cons a life ih =>
    obtain ⟨r₁, hact, hrest⟩ := Path.cons_iff.1 h
    obtain ⟨ha, htail⟩ := List.forall_mem_cons.1 hlife
    have hsame : ∀ d₁, r₁ = some d₁ → a.nonce = none → d₁.paymentNonce = d.paymentNonce →
        collectedNonces (a :: life) =
            List.range' (d.paymentNonce + 1) (collections (a :: life)) ∧
          ∀ d', r = some d' → d'.paymentNonce = d.paymentNonce + collections (a :: life) := by
      rintro d₁ rfl hnone hcounter
      obtain ⟨hnonces, hend⟩ := ih hrest htail
      rw [hcounter] at hnonces hend
      rw [collections, collectedNonces_cons_of_none hnone]
      exact ⟨hnonces, hend⟩
    have hclosed : r₁ = none → a.nonce = none →
        collectedNonces (a :: life) =
            List.range' (d.paymentNonce + 1) (collections (a :: life)) ∧
          ∀ d', r = some d' → d'.paymentNonce = d.paymentNonce + collections (a :: life) := by
      rintro rfl hnone
      obtain rfl := eq_nil_of_path_none hrest htail
      obtain rfl := Path.nil_iff.1 hrest
      rw [collections, collectedNonces_cons_of_none hnone]
      exact ⟨rfl, fun d' hd' => by cases hd'⟩
    cases hact with
    | subscribe => cases ha
    | update | pause | resume | markOverdue => exact hsame _ rfl rfl rfl
    | cancel | moveOut => exact hclosed rfl rfl
    | @collect _ now =>
      obtain ⟨hnonces, hend⟩ := ih hrest htail
      rw [collected_paymentNonce] at hnonces hend
      have hcons : collectedNonces (Act.collect now d :: life) =
          (d.paymentNonce + 1) :: collectedNonces life := collectedNonces_cons_of_some rfl life
      have hcount : collections (Act.collect now d :: life) = collections life + 1 := by
        rw [collections, hcons, List.length_cons, collections]
      refine ⟨?_, fun d' hd' => ?_⟩
      · rw [hcons, hcount, List.range'_succ, hnonces]
      · rw [hend d' hd', hcount]
        omega

/-- A live record was opened once, and no other record of the pair has been opened since. -/
theorem exists_opening (h : Path Lifecycle none as (some d)) :
    ∃ pre a life n₀, as = pre ++ a :: life ∧ a.startNonce = some n₀ ∧
      (∀ b ∈ life, b.startNonce = none) ∧ d.paymentNonce = n₀ + collections life ∧
        collectedNonces life = List.range' (n₀ + 1) (collections life) := by
  have hopen : ∃ a ∈ as, a.startNonce ≠ none := by
    by_contra hnone
    have hnil := eq_nil_of_path_none h fun a ha => by_contra fun hne => hnone ⟨a, ha, hne⟩
    rw [hnil, Path.nil_iff] at h
    cases h
  obtain ⟨pre, a, life, rfl, ha, hlife⟩ := raised_self_of_exists hopen
  obtain ⟨n₀, hn₀⟩ := Option.ne_none_iff_exists'.1 ha
  obtain ⟨r₁, -, hrest⟩ := Path.append_iff.1 h
  obtain ⟨r₂, hact, hpath⟩ := Path.cons_iff.1 hrest
  obtain ⟨d₀, rfl, rfl⟩ := hact.exists_of_startNonce hn₀
  have hnone : ∀ b ∈ life, b.startNonce = none := fun b hb => not_not.1 (hlife b hb)
  obtain ⟨hnonces, hend⟩ := collectedNonces_eq hpath hnone
  exact ⟨pre, a, life, d₀.paymentNonce, rfl, hn₀, hnone, hend d rfl, hnonces⟩

/-- A collection uses the nonce after those of the life of its record. -/
theorem nonce_fresh (h : Path Lifecycle none as (some d)) {now : ℕ}
    (hnext : EndsInTime (as ++ [.collect now d])) : d.paymentNonce + 1 ∉ collectedNonces as := by
  obtain ⟨pre, a, life, n₀, rfl, hn₀, hlife, hcounter, hnonces⟩ := exists_opening h
  rw [collectedNonces_append, collectedNonces_cons_of_none (Act.nonce_eq_none hn₀), hnonces,
    List.mem_append, not_or]
  constructor
  · intro hused
    have hlt := hnext pre a (life ++ [.collect now d]) [] n₀ (by simp) hn₀
      (fun b hb => by
        rcases List.mem_append.1 hb with hb | hb
        · exact hlife b hb
        · rw [List.mem_singleton.1 hb]
          rfl) _ hused (by omega)
    have hone : collections [(.collect now d : Act Address)] = 1 := rfl
    rw [collections_append, hone] at hlt
    omega
  · rw [List.mem_range'_1]
    omega

/-- **The nonces of one pair.** They are distinct exactly if every record ends before it counts up
to a nonce that an earlier record has used. -/
theorem nodup_collectedNonces_iff (h : Path Lifecycle none as r) :
    (collectedNonces as).Nodup ↔ EndsInTime as := by
  constructor
  · rintro hnodup pre a life post n₀ rfl hn₀ hlife n hn hlt
    obtain ⟨r₁, -, hrest⟩ := Path.append_iff.1 h
    obtain ⟨r₂, hact, hpath⟩ := Path.cons_iff.1 hrest
    obtain ⟨r₃, hpath, -⟩ := Path.append_iff.1 hpath
    obtain ⟨d₀, rfl, rfl⟩ := hact.exists_of_startNonce hn₀
    by_contra hle
    -- the record counts up to `n`, which an earlier one has used
    have hagain : n ∈ collectedNonces life := by
      rw [(collectedNonces_eq hpath hlife).1, List.mem_range'_1]
      omega
    rw [collectedNonces_append, collectedNonces_cons_of_none (Act.nonce_eq_none hn₀),
      collectedNonces_append, List.nodup_append] at hnodup
    exact hnodup.2.2 n hn n (List.mem_append_left _ hagain) rfl
  · intro hin
    induction as using List.reverseRecOn generalizing r with
    | nil => exact List.nodup_nil
    | append_singleton as b ih =>
      obtain ⟨r₁, hpath, hlast⟩ := Path.append_iff.1 h
      have hbefore : EndsInTime as := by
        rintro pre a life post n₀ rfl
        exact hin pre a life (post ++ [b]) n₀ (by simp)
      have hnodup := ih hpath hbefore
      obtain ⟨_, hact, -⟩ := Path.cons_iff.1 hlast
      cases hact with
      | @collect d now =>
        have hfresh := nonce_fresh hpath hin
        rw [collectedNonces_append, List.nodup_append]
        refine ⟨hnodup, List.nodup_singleton _, fun n hn n' hn' heq => hfresh ?_⟩
        rw [← List.mem_singleton.1 hn', ← heq]
        exact hn
      | _ =>
        rw [collectedNonces_append, collectedNonces_cons_of_none rfl, collectedNonces_nil,
          List.append_nil]
        exact hnodup

end Lifecycle

/-! ### Runs -/

section Runs

variable [DecidableEq Address] {H : Host Address Hash World Op}

theorem executedNonces_filter_announces (s m : Address) (events : List (Event Address)) :
    executedNonces s m (events.filter Event.announces) = executedNonces s m events := by
  rw [executedNonces, executedNonces, List.filterMap_filter]
  congr 1
  funext event
  cases event <;> rfl

/-- The nonces that a micro-step publishes for a pair are those of its collections on the pair. -/
theorem executedNonces_announcements (μ : MicroStep Address Hash World Op) (s m : Address) :
    executedNonces s m (μ.announcements H) = collectedNonces (μ.acts H s m) := by
  have hidle : ¬ μ.deed.IsCharge s m → collectedNonces (μ.acts H s m) = [] := by
    intro hdeed
    refine List.filterMap_eq_nil_iff.2 fun a ha => ?_
    have hdone := MicroStep.doneBy_of_mem_acts ha
    cases a <;> first | rfl | exact (hdeed hdone).elim
  obtain ⟨env, σ, deed, σ'⟩ := μ
  have hcharge : ∀ s' m' : Address,
      executedNonces s m ((H.record σ s' m').toList.map fun d =>
          .executed s' m' d.token d.amount (d.paymentNonce + 1)) =
        collectedNonces (if s' = s ∧ m' = m then
          (H.record σ s m).toList.map (.collect env.timestamp) else []) := by
    intro s' m'
    by_cases hpair : s' = s ∧ m' = m
    · obtain ⟨rfl, rfl⟩ := hpair
      cases H.record σ s' m' <;>
        simp [executedNonces, Event.executedNonce, collectedNonces, Act.nonce]
    · cases H.record σ s' m' <;>
        simp [executedNonces, Event.executedNonce, collectedNonces, hpair]
  cases deed with
  | applied call =>
    rw [hidle (by rintro (h | h) <;> cases h)]
    cases call <;> rfl
  | executed s' m' => exact hcharge s' m'
  | entry s' m' charged =>
    cases charged with
    | true => exact hcharge s' m'
    | false =>
      rw [hidle (by rintro (h | h) <;> cases h)]
      rfl
  | _ => rfl

variable [DecidableEq Hash]

/-- **The nonces of a run.** For every pair the published nonces are distinct exactly if every
record of the pair ends before it has counted up to a nonce that an earlier record of the pair has
used. -/
theorem executed_nonces_unique_iff (hkey : H.KeysInjective) {w : World}
    {steps : List (Step Address Hash Op)} (s m : Address) :
    (executedNonces s m (after (next H) (State.deployed Address Hash w) steps).events).Nodup ↔
      EndsInTime ((microHistory H (State.deployed Address Hash w) steps).flatMap
        (·.acts H s m)) := by
  have hnonces : executedNonces s m
      (after (next H) (State.deployed Address Hash w) steps).events =
        collectedNonces ((microHistory H (State.deployed Address Hash w) steps).flatMap
          (·.acts H s m)) := by
    rw [← executedNonces_filter_announces, filter_announces_after hkey]
    simp only [executedNonces, collectedNonces, List.filterMap_flatMap]
    exact congrArg₂ _ (funext fun μ => executedNonces_announcements μ s m) rfl
  rw [hnonces]
  exact Lifecycle.nodup_collectedNonces_iff
    (path_lifecycle hkey (path_microHistory _ steps) (sound_deployed w) s m)

end Runs

/-- A subscription collected once, made again, and collected once more. -/
def sampleResubscribed : List (Step UInt8 (List UInt8) (External UInt8)) :=
  [sampleStep 1 (.subscribe 1 2 9 100 86400 false none),
    sampleStep 86401 (.batchExecutePayment 2 9 [1]),
    sampleStep 86402 (.subscribe 1 2 9 100 86400 false none),
    sampleStep 172802 (.batchExecutePayment 2 9 [1])]

/-- Both payments have the nonce 1. -/
theorem not_nodup_resubscribed :
    ¬ (executedNonces 1 2
      (after (next sampleHost) sampleStart sampleResubscribed).events).Nodup := by
  have hnonces : executedNonces 1 2
      (after (next sampleHost) sampleStart sampleResubscribed).events = [1, 1] := rfl
  rw [hnonces]
  decide

theorem executed_nonces_unique_sample :
    (executedNonces 1 2 (after (next sampleHost) sampleStart
      (sampleResubscribed.take 3)).events).Nodup ↔
      EndsInTime ((microHistory sampleHost sampleStart (sampleResubscribed.take 3)).flatMap
        (·.acts sampleHost 1 2)) :=
  executed_nonces_unique_iff sampleHost_keysInjective 1 2

end SorobanPay
