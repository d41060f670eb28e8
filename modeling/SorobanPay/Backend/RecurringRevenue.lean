import SorobanPay.Backend.TimestampReaders
import SorobanPay.Foundation.Medians

/-!
# The recurring revenue of a merchant

`computeMrr` of `routes/mrr.ts` adds up, for each token, what the subscriptions contribute: the last
amount that was paid, for a month, if a payment comes as often as the upper median of the gaps
between the payments says.

The key of a subscription is made of the subscriber and the token with a bar between them, so the
fields are without bars.

## Main definitions

* `paymentsOf`: the payments of a subscription.
* `IsInterval`, `IsContribution`: what a subscription contributes.
* `IsTokenTotal`: the sum over the subscriptions of a token.

## Main results

* `isInterval_inferInterval`: the interval that is inferred.
* `mem_values_subscriptionGroups_iff`: the groups are the subscriptions.
* `mem_tokens_iff`, `computeMrr_sum`: the revenue is the sum of the contributions.
-/

set_option autoImplicit false

namespace SorobanPay.EventIndexer

open Foundation Frontend

/-! ### Contributions -/

/-- The payments of a subscription in the last 60 days, oldest first. -/
def paymentsOf (db : Db) (merchant : String) (nowMs : ℕ) (subscriber token : String) :
    List EventRow :=
  (db.events.filter fun row => (row.subscriber = subscriber && row.token = token) &&
    (row.merchant = merchant && row.type = .executed &&
      ((nowMs : ℤ) - sixtyDaysMs) / 1000 ≤ row.ledgerTimestamp)).insertionSort
    fun a b => a.ledgerTimestamp ≤ b.ledgerTimestamp

/-- The interval between payments at these times, in seconds: the upper median of the gaps, or a
month if there is one payment only. -/
def IsInterval (timestamps : List ℤ) (interval : ℤ) : Prop :=
  if timestamps.length < 2 then interval = 2592000 else IsUpperMedian (gaps timestamps) interval

/-- What payments contribute to a month: the last amount, as often as a month has the interval. -/
def IsContribution (payments : List EventRow) (contribution : ℤ) : Prop :=
  ∃ last amount interval, payments.getLast? = some last ∧ bigIntOfText last.amount = some amount ∧
    IsInterval (payments.map fun row => (row.ledgerTimestamp : ℤ)) interval ∧
    contribution = if interval = 0 then amount else amount * 2592000 / interval

/-- The contributions of all subscribers with payments, and how many these are. -/
def IsTokenTotal (payments : String → List EventRow) (amount : ℤ) (count : ℕ) : Prop :=
  ∃ (subscribers : List String) (contribution : String → ℤ),
    subscribers.Nodup ∧ subscribers ≠ [] ∧
    (∀ subscriber, subscriber ∈ subscribers ↔ payments subscriber ≠ []) ∧
    (∀ subscriber ∈ subscribers, IsContribution (payments subscriber) (contribution subscriber)) ∧
    amount = (subscribers.map contribution).sum ∧ count = subscribers.length

/-- The fields of the payments have no bars, and the amounts are numbers that are not negative. -/
structure ReadablePayments (db : Db) (merchant : String) (nowMs : ℕ) : Prop where
  barless : ∀ row ∈ recentPayments db merchant nowMs,
    '|' ∉ row.subscriber.toList ∧ '|' ∉ row.token.toList
  amounts : ∀ row ∈ recentPayments db merchant nowMs,
    ∃ amount, 0 ≤ amount ∧ bigIntOfText row.amount = some amount

instance : IsTrans EventRow fun a b => a.ledgerTimestamp ≤ b.ledgerTimestamp :=
  ⟨fun _ _ _ hab hbc => hab.trans hbc⟩

instance : Std.Total fun a b : EventRow => a.ledgerTimestamp ≤ b.ledgerTimestamp :=
  ⟨fun _ _ => Nat.le_total _ _⟩

theorem paymentsOf_eq (db : Db) (merchant : String) (nowMs : ℕ) (subscriber token : String) :
    paymentsOf db merchant nowMs subscriber token =
      (recentPayments db merchant nowMs).filter fun row =>
        row.subscriber = subscriber && row.token = token := by
  rw [recentPayments, ← filter_insertionSort, List.filter_filter, paymentsOf]

/-- The payments are in the order of their times. -/
theorem pairwise_paymentsOf (db : Db) (merchant : String) (nowMs : ℕ) (subscriber token : String) :
    ((paymentsOf db merchant nowMs subscriber token).map fun row =>
      (row.ledgerTimestamp : ℤ)).Pairwise (· ≤ ·) := by
  rw [List.pairwise_map]
  exact (List.pairwise_insertionSort _ _).imp fun h => Int.ofNat_le.2 h

section Interval

variable {timestamps : List ℤ} {interval interval' : ℤ}

theorem IsInterval.unique (h : IsInterval timestamps interval)
    (h' : IsInterval timestamps interval') : interval = interval' := by
  rw [IsInterval] at h h'
  split_ifs at h h'
  · exact h.trans h'.symm
  · exact h.unique h'

theorem IsInterval.nonneg (h : IsInterval timestamps interval)
    (hsorted : timestamps.Pairwise (· ≤ ·)) : 0 ≤ interval := by
  rw [IsInterval] at h
  split_ifs at h
  · rw [h]
    decide
  · exact nonneg_of_mem_gaps hsorted interval h.1

/-- Equal gaps are the interval. -/
theorem IsInterval.eq_of_forall_eq {gap : ℤ} (h : IsInterval timestamps interval)
    (hlength : 2 ≤ timestamps.length) (hgaps : ∀ g ∈ gaps timestamps, g = gap) :
    interval = gap := by
  rw [IsInterval, if_neg (by omega)] at h
  exact hgaps interval h.1

/-- **The interval that is inferred** from times in milliseconds. -/
theorem isInterval_inferInterval (hsorted : timestamps.Pairwise (· ≤ ·)) :
    IsInterval timestamps (inferInterval (timestamps.map (· * 1000))) := by
  rw [IsInterval, inferInterval, List.length_map]
  split_ifs with hlength
  · rfl
  · have hms : (timestamps.map (· * 1000)).insertionSort (· ≤ ·) = timestamps.map (· * 1000) := by
      refine List.Pairwise.insertionSort_eq ?_
      rw [List.pairwise_map]
      exact hsorted.imp fun h => by omega
    have hgaps : List.zipWith (fun later earlier : ℤ => (later - earlier + 500) / 1000)
        (timestamps.map (· * 1000)).tail (timestamps.map (· * 1000)) = gaps timestamps := by
      rw [← List.map_tail, List.zipWith_map, gaps]
      congr 1
      funext later earlier
      omega
    have hne : gaps timestamps ≠ [] := by
      refine List.ne_nil_of_length_pos ?_
      rw [length_gaps]
      omega
    simp only [hms, hgaps, List.length_insertionSort]
    exact isUpperMedian_getD_insertionSort hne 0

end Interval

theorem normaliseToMonthly_eq {amount interval : ℤ} (hamount : 0 ≤ amount)
    (hinterval : 0 ≤ interval) :
    normaliseToMonthly amount interval =
      if interval = 0 then amount else amount * 2592000 / interval := by
  rw [normaliseToMonthly]
  refine if_congr (by omega) rfl (Int.tdiv_eq_ediv_of_nonneg (by omega))

theorem IsContribution.unique {payments : List EventRow} {c c' : ℤ}
    (h : IsContribution payments c) (h' : IsContribution payments c') : c = c' := by
  obtain ⟨last, amount, interval, hlast, hamount, hinterval, rfl⟩ := h
  obtain ⟨last', amount', interval', hlast', hamount', hinterval', rfl⟩ := h'
  obtain rfl := Option.some.inj (hlast.symm.trans hlast')
  obtain rfl := Option.some.inj (hamount.symm.trans hamount')
  obtain rfl := hinterval.unique hinterval'
  rfl

/-- There is one total. -/
theorem IsTokenTotal.unique {payments : String → List EventRow} {amount amount' : ℤ}
    {count count' : ℕ} (h : IsTokenTotal payments amount count)
    (h' : IsTokenTotal payments amount' count') : amount = amount' ∧ count = count' := by
  obtain ⟨subscribers, contribution, hnodup, -, hmem, hcontribution, rfl, rfl⟩ := h
  obtain ⟨subscribers', contribution', hnodup', -, hmem', hcontribution', rfl, rfl⟩ := h'
  have hperm : subscribers.Perm subscribers' :=
    (List.perm_ext_iff_of_nodup hnodup hnodup').2 fun s => (hmem s).trans (hmem' s).symm
  refine ⟨?_, hperm.length_eq⟩
  rw [← (hperm.map contribution').sum_eq]
  refine congrArg List.sum (List.map_congr_left fun s hs => ?_)
  exact (hcontribution s hs).unique (hcontribution' s (hperm.subset hs))

/-! ### The groups -/

/-- A payment with its amount, if that is a number. -/
def withAmount (row : EventRow) : EventRow × ℤ := (row, (bigIntOfText row.amount).getD 0)

/-- The groups of `computeMrr`, in their order. -/
def subscriptionGroups (payments : List (EventRow × ℤ)) : List (List (EventRow × ℤ)) :=
  (InsertionMap.group (payments.map fun p => (p.1.subscriber ++ "|" ++ p.1.token, p))).values

/-- The first payment of a group tells its subscription. -/
def subscriptionOf (group : List (EventRow × ℤ)) : String × String :=
  (group.head?.map fun p => (p.1.subscriber, p.1.token)).getD ("", "")

/-- The contribution of a group that `computeMrr` adds. -/
def monthlyContribution (group : List (EventRow × ℤ)) : ℤ :=
  normaliseToMonthly ((group.getLast?.map Prod.snd).getD 0)
    (inferInterval (group.map fun p => (p.1.ledgerTimestamp : ℤ) * 1000))

/-- Without bars, the key tells the subscriber and the token. -/
theorem bar_inj {s t s' t' : String} (hs : '|' ∉ s.toList) (ht : '|' ∉ t.toList) :
    s ++ "|" ++ t = s' ++ "|" ++ t' ↔ s = s' ∧ t = t' := by
  refine ⟨fun h => ?_, fun ⟨hs, ht⟩ => by rw [hs, ht]⟩
  have hlist := congrArg String.toList h
  simp only [String.toList_append, List.append_assoc] at hlist
  obtain ⟨hleft, -, hright⟩ := (List.append_cons_inj_of_notMem hs ht).1 hlist
  exact ⟨String.toList_injective hleft, String.toList_injective hright⟩

section Groups

variable {payments : List (EventRow × ℤ)}
  (hbarless : ∀ p ∈ payments, '|' ∉ p.1.subscriber.toList ∧ '|' ∉ p.1.token.toList)

include hbarless

theorem filter_key_eq (s t : String) :
    ((payments.map fun p => (p.1.subscriber ++ "|" ++ p.1.token, p)).filter fun entry =>
        entry.1 = s ++ "|" ++ t).map Prod.snd =
      payments.filter fun p => p.1.subscriber = s && p.1.token = t := by
  rw [List.filter_map, List.map_map]
  refine (List.map_id' _).trans (List.filter_congr fun p hp => ?_)
  obtain ⟨hs, ht⟩ := hbarless p hp
  simp only [Function.comp_apply, bar_inj hs ht, Bool.decide_and]

/-- **The groups are the subscriptions** with payments. -/
theorem mem_values_subscriptionGroups_iff {group : List (EventRow × ℤ)} :
    group ∈ subscriptionGroups payments ↔ ∃ s t,
      group = (payments.filter fun p => p.1.subscriber = s && p.1.token = t) ∧ group ≠ [] := by
  rw [subscriptionGroups, InsertionMap.mem_values_iff]
  constructor
  · rintro ⟨key, hget⟩
    obtain ⟨heq, hne⟩ := InsertionMap.eq_of_mem_group (InsertionMap.mem_entries_iff.2 hget)
    obtain ⟨entry, hentry, hkey⟩ := List.mem_map.1 (InsertionMap.mem_of_get_group hget)
    obtain ⟨p, -, rfl⟩ := List.mem_map.1 hentry
    refine ⟨p.1.subscriber, p.1.token, ?_, hne⟩
    rw [heq, ← hkey, filter_key_eq hbarless]
  · rintro ⟨s, t, rfl, hne⟩
    refine ⟨s ++ "|" ++ t, ?_⟩
    have hget := InsertionMap.get_group_getD
      (payments.map fun p => (p.1.subscriber ++ "|" ++ p.1.token, p)) (s ++ "|" ++ t)
    rw [filter_key_eq hbarless] at hget
    rcases hgroup : (InsertionMap.group (payments.map fun p =>
      (p.1.subscriber ++ "|" ++ p.1.token, p))).get (s ++ "|" ++ t) with _ | group
    · rw [hgroup] at hget
      exact absurd hget.symm hne
    · rw [hgroup, Option.getD_some] at hget
      rw [hget]

omit hbarless in
theorem subscriptionOf_filter {s t : String}
    (hne : (payments.filter fun p => p.1.subscriber = s && p.1.token = t) ≠ []) :
    subscriptionOf (payments.filter fun p => p.1.subscriber = s && p.1.token = t) = (s, t) := by
  obtain ⟨p, rest, hgroup⟩ := List.exists_cons_of_ne_nil hne
  have hp : p ∈ payments.filter fun p => p.1.subscriber = s && p.1.token = t :=
    hgroup ▸ List.mem_cons_self
  obtain ⟨-, hsame⟩ := List.mem_filter.1 hp
  rw [Bool.and_eq_true, decide_eq_true_eq, decide_eq_true_eq] at hsame
  rw [hgroup, subscriptionOf, List.head?_cons, Option.map_some, Option.getD_some, hsame.1, hsame.2]

/-- No two groups are of one subscription. -/
theorem nodup_map_subscriptionOf :
    ((subscriptionGroups payments).map subscriptionOf).Nodup := by
  rw [subscriptionGroups, InsertionMap.nodup_map_values_iff]
  have hsubscription : ∀ key group, (InsertionMap.group (payments.map fun p =>
      (p.1.subscriber ++ "|" ++ p.1.token, p))).get key = some group →
      key = (subscriptionOf group).1 ++ "|" ++ (subscriptionOf group).2 := by
    intro key group hget
    obtain ⟨heq, hne⟩ := InsertionMap.eq_of_mem_group (InsertionMap.mem_entries_iff.2 hget)
    obtain ⟨entry, hentry, rfl⟩ := List.mem_map.1 (InsertionMap.mem_of_get_group hget)
    obtain ⟨p, -, rfl⟩ := List.mem_map.1 hentry
    rw [filter_key_eq hbarless] at heq
    rw [heq, subscriptionOf_filter (heq ▸ hne)]
  intro key key' group group' hget hget' hsame
  rw [hsubscription key group hget, hsubscription key' group' hget', hsame]

end Groups

/-! ### The sum over the groups -/

theorem addGroup_of_ne_nil (tokenMrr : InsertionMap String (ℤ × ℕ))
    {group : List (EventRow × ℤ)} (hne : group ≠ []) :
    addGroup tokenMrr group = tokenMrr.set (subscriptionOf group).2
      (((tokenMrr.get (subscriptionOf group).2).getD (0, 0)).1 + monthlyContribution group,
        ((tokenMrr.get (subscriptionOf group).2).getD (0, 0)).2 + 1) := by
  obtain ⟨first, rest, rfl⟩ := List.exists_cons_of_ne_nil hne
  rw [addGroup, monthlyContribution, subscriptionOf, List.head?_cons,
    List.getLast?_eq_some_getLast hne]
  rfl

/-- The groups of a token. -/
def groupsOf (token : String) (groups : List (List (EventRow × ℤ))) : List (List (EventRow × ℤ)) :=
  groups.filter fun group => (subscriptionOf group).2 = token

/-- Each token has the sum of the contributions of its groups. -/
theorem get_foldl_addGroup {groups : List (List (EventRow × ℤ))} (h : ∀ group ∈ groups, group ≠ [])
    (token : String) :
    (groups.foldl addGroup .empty).get token =
      if groupsOf token groups = [] then none
      else some (((groupsOf token groups).map monthlyContribution).sum,
        (groupsOf token groups).length) := by
  induction groups using List.reverseRecOn with
  | nil => rfl
  | append_singleton groups group ih =>
    have ih := ih fun g hg => h g (List.mem_append_left _ hg)
    rw [List.foldl_append, List.foldl_cons, List.foldl_nil,
      addGroup_of_ne_nil _ (h group (by simp)), InsertionMap.get_set, groupsOf,
      List.filter_append, ← groupsOf]
    by_cases htoken : token = (subscriptionOf group).2
    · subst htoken
      rw [if_pos rfl, ih, List.filter_cons_of_pos (by simp), List.filter_nil,
        if_neg (List.append_ne_nil_of_right_ne_nil _ (List.cons_ne_nil group [])),
        List.map_append, List.sum_append, List.length_append]
      split_ifs with hnil
      · simp [hnil]
      · simp
    · rw [if_neg htoken, ih, List.filter_cons_of_neg (by simpa using Ne.symm htoken),
        List.filter_nil, List.append_nil]

theorem mapM_eq_some_map {α β : Type} {f : α → Option β} {g : α → β} {l : List α}
    (h : ∀ a ∈ l, f a = some (g a)) : l.mapM f = some (l.map g) := by
  induction l with
  | nil => rfl
  | cons a l ih =>
    rw [List.mapM_cons, h a List.mem_cons_self, ih fun b hb => h b (List.mem_cons_of_mem a hb)]
    rfl

section Response

variable {db : Db} {merchant : String} {nowMs : ℕ}

/-- The payments that `computeMrr` groups. -/
def readPayments (db : Db) (merchant : String) (nowMs : ℕ) : List (EventRow × ℤ) :=
  (recentPayments db merchant nowMs).map withAmount

theorem filter_readPayments (s t : String) :
    ((readPayments db merchant nowMs).filter fun p => p.1.subscriber = s && p.1.token = t) =
      (paymentsOf db merchant nowMs s t).map withAmount := by
  rw [readPayments, List.filter_map, paymentsOf_eq]
  rfl

theorem ReadablePayments.barless_readPayments (h : ReadablePayments db merchant nowMs) :
    ∀ p ∈ readPayments db merchant nowMs,
      '|' ∉ p.1.subscriber.toList ∧ '|' ∉ p.1.token.toList := by
  simp only [readPayments, List.mem_map]
  rintro _ ⟨row, hrow, rfl⟩
  exact h.barless row hrow

theorem subscriptionOf_paymentsOf {s t : String} (hne : paymentsOf db merchant nowMs s t ≠ []) :
    subscriptionOf ((paymentsOf db merchant nowMs s t).map withAmount) = (s, t) := by
  rw [← filter_readPayments]
  exact subscriptionOf_filter (by simpa [filter_readPayments] using hne)

/-- The groups of a token are its subscriptions with payments. -/
theorem mem_groupsOf_iff (h : ReadablePayments db merchant nowMs) {token : String}
    {group : List (EventRow × ℤ)} :
    group ∈ groupsOf token (subscriptionGroups (readPayments db merchant nowMs)) ↔
      ∃ s, paymentsOf db merchant nowMs s token ≠ [] ∧
        group = (paymentsOf db merchant nowMs s token).map withAmount := by
  rw [groupsOf, List.mem_filter, mem_values_subscriptionGroups_iff h.barless_readPayments,
    decide_eq_true_eq]
  simp only [filter_readPayments]
  constructor
  · rintro ⟨⟨s, t, rfl, hne⟩, htoken⟩
    rw [Ne, List.map_eq_nil_iff] at hne
    rw [subscriptionOf_paymentsOf hne] at htoken
    obtain rfl : t = token := htoken
    exact ⟨s, hne, rfl⟩
  · rintro ⟨s, hne, rfl⟩
    exact ⟨⟨s, token, rfl, by simpa using hne⟩, by rw [subscriptionOf_paymentsOf hne]⟩

/-- What a subscription contributes. -/
theorem isContribution_monthlyContribution (h : ReadablePayments db merchant nowMs) {s t : String}
    (hne : paymentsOf db merchant nowMs s t ≠ []) :
    IsContribution (paymentsOf db merchant nowMs s t)
      (monthlyContribution ((paymentsOf db merchant nowMs s t).map withAmount)) := by
  have hsorted := pairwise_paymentsOf db merchant nowMs s t
  have hlast := List.getLast?_eq_some_getLast hne
  have hsublist : (paymentsOf db merchant nowMs s t).Sublist
      (recentPayments db merchant nowMs) := by
    rw [paymentsOf_eq]
    exact List.filter_sublist
  obtain ⟨amount, hnonneg, hamount⟩ := h.amounts _ (hsublist.subset (List.getLast_mem hne))
  have hinterval := isInterval_inferInterval hsorted
  refine ⟨_, amount, _, hlast, hamount, hinterval, ?_⟩
  rw [← normaliseToMonthly_eq hnonneg (hinterval.nonneg hsorted), monthlyContribution,
    List.getLast?_map, hlast, List.map_map, List.map_map]
  simp only [Option.map_some, Option.getD_some, withAmount, hamount]
  rfl

/-- The groups of a token add up to its total. -/
theorem isTokenTotal_groupsOf (h : ReadablePayments db merchant nowMs) {token : String}
    (hne : groupsOf token (subscriptionGroups (readPayments db merchant nowMs)) ≠ []) :
    IsTokenTotal (fun s => paymentsOf db merchant nowMs s token)
      ((groupsOf token (subscriptionGroups (readPayments db merchant nowMs))).map
        monthlyContribution).sum
      (groupsOf token (subscriptionGroups (readPayments db merchant nowMs))).length := by
  have hsubscribers : ∀ s, s ∈ (groupsOf token (subscriptionGroups
      (readPayments db merchant nowMs))).map (fun group => (subscriptionOf group).1) ↔
      paymentsOf db merchant nowMs s token ≠ [] := by
    intro s
    rw [List.mem_map]
    constructor
    · rintro ⟨group, hgroup, rfl⟩
      obtain ⟨s, hne, rfl⟩ := (mem_groupsOf_iff h).1 hgroup
      rwa [subscriptionOf_paymentsOf hne]
    · exact fun hne => ⟨_, (mem_groupsOf_iff h).2 ⟨s, hne, rfl⟩, by
        rw [subscriptionOf_paymentsOf hne]⟩
  refine ⟨(groupsOf token (subscriptionGroups (readPayments db merchant nowMs))).map
      fun group => (subscriptionOf group).1,
    fun s => monthlyContribution ((paymentsOf db merchant nowMs s token).map withAmount),
    ?_, by simpa using hne, hsubscribers,
    fun s hs => isContribution_monthlyContribution h ((hsubscribers s).1 hs), ?_,
    by rw [List.length_map]⟩
  · have hnodup := nodup_map_subscriptionOf h.barless_readPayments
    refine (List.nodup_map_iff_inj_on ((List.Nodup.of_map _ hnodup).filter _)).2 ?_
    intro g hg g' hg' hsame
    obtain ⟨hmem, htoken⟩ := List.mem_filter.1 hg
    obtain ⟨hmem', htoken'⟩ := List.mem_filter.1 hg'
    rw [decide_eq_true_eq] at htoken htoken'
    exact List.inj_on_of_nodup_map hnodup hmem hmem'
      (Prod.ext hsame (htoken.trans htoken'.symm))
  · rw [List.map_map]
    refine congrArg List.sum (List.map_congr_left fun group hgroup => ?_)
    obtain ⟨s, hne, rfl⟩ := (mem_groupsOf_iff h).1 hgroup
    rw [Function.comp_apply, subscriptionOf_paymentsOf hne]

/-- The response, with the groups as they come. -/
theorem computeMrr_eq (h : ReadablePayments db merchant nowMs) :
    computeMrr db merchant nowMs = some
      { merchant := merchant
        tokens := ((subscriptionGroups (readPayments db merchant nowMs)).foldl addGroup
          .empty).entries.map fun entry => ⟨entry.1, entry.2.1, entry.2.2⟩
        computedAt := nowMs
        cacheHit := false } := by
  have hread : ∀ row ∈ recentPayments db merchant nowMs,
      ((bigIntOfText row.amount).map fun amount => (row, amount)) = some (withAmount row) := by
    intro row hrow
    obtain ⟨amount, -, hamount⟩ := h.amounts row hrow
    rw [hamount, Option.map_some, withAmount, hamount, Option.getD_some]
  rw [computeMrr, mapM_eq_some_map hread]
  rfl

/-- **The tokens of the response** are those with payments, with their totals. -/
theorem mem_tokens_iff (h : ReadablePayments db merchant nowMs) {response : MrrResponse}
    (hresponse : computeMrr db merchant nowMs = some response) {token : String} {amount : ℤ}
    {count : ℕ} :
    ⟨token, amount, count⟩ ∈ response.tokens ↔
      IsTokenTotal (fun s => paymentsOf db merchant nowMs s token) amount count := by
  have hgroups : ∀ group ∈ subscriptionGroups (readPayments db merchant nowMs), group ≠ [] := by
    intro group hgroup
    obtain ⟨s, t, -, hne⟩ :=
      (mem_values_subscriptionGroups_iff h.barless_readPayments).1 hgroup
    exact hne
  have hget := get_foldl_addGroup hgroups token
  have hmem : ⟨token, amount, count⟩ ∈ response.tokens ↔
      ((subscriptionGroups (readPayments db merchant nowMs)).foldl addGroup .empty).get token =
        some (amount, count) := by
    rw [computeMrr_eq h] at hresponse
    rw [← Option.some.inj hresponse, ← InsertionMap.mem_entries_iff, List.mem_map]
    constructor
    · rintro ⟨⟨_, _, _⟩, hentry, heq⟩
      cases heq
      exact hentry
    · exact fun hentry => ⟨_, hentry, rfl⟩
  rw [hmem, hget]
  constructor
  · intro heq
    split_ifs at heq with hnil
    obtain ⟨rfl, rfl⟩ := Prod.mk.inj (Option.some.inj heq)
    exact isTokenTotal_groupsOf h hnil
  · intro htotal
    obtain ⟨subscribers, -, -, hne, hsubscribers, -⟩ := id htotal
    obtain ⟨s, hs⟩ := List.exists_mem_of_ne_nil _ hne
    have hnil : groupsOf token (subscriptionGroups (readPayments db merchant nowMs)) ≠ [] :=
      List.ne_nil_of_mem ((mem_groupsOf_iff h).2 ⟨s, (hsubscribers s).1 hs, rfl⟩)
    obtain ⟨rfl, rfl⟩ := htotal.unique (isTokenTotal_groupsOf h hnil)
    rw [if_neg hnil]

/-- Payments at equal intervals contribute the last amount for each of them in a month. -/
theorem isContribution_iff_of_gaps {payments : List EventRow} {gap contribution amount : ℤ}
    {last : EventRow} (hgap : 0 < gap) (hlength : 2 ≤ payments.length)
    (hgaps : ∀ g ∈ gaps (payments.map fun row => (row.ledgerTimestamp : ℤ)), g = gap)
    (hlast : payments.getLast? = some last) (hamount : bigIntOfText last.amount = some amount) :
    IsContribution payments contribution ↔ contribution = amount * 2592000 / gap := by
  constructor
  · rintro ⟨last', amount', interval, hlast', hamount', hinterval, rfl⟩
    obtain rfl := Option.some.inj (hlast.symm.trans hlast')
    obtain rfl := Option.some.inj (hamount.symm.trans hamount')
    obtain rfl := hinterval.eq_of_forall_eq (by rwa [List.length_map]) hgaps
    rw [if_neg hgap.ne']
  · rintro rfl
    have hne : gaps (payments.map fun row => (row.ledgerTimestamp : ℤ)) ≠ [] := by
      refine List.ne_nil_of_length_pos ?_
      rw [length_gaps, List.length_map]
      omega
    obtain ⟨g, hg⟩ := List.exists_mem_of_ne_nil _ hne
    have hmedian := isUpperMedian_getD_insertionSort hne 0
    rw [hgaps _ hmedian.1] at hmedian
    refine ⟨last, amount, gap, hlast, hamount, ?_, by rw [if_neg hgap.ne']⟩
    rw [IsInterval, List.length_map, if_neg (by omega)]
    exact hmedian

/-- **The revenue is the sum of the contributions** of the subscriptions of a token. It depends on
the payments of these alone, and payments at equal intervals contribute the last amount for each
interval of a month. -/
theorem computeMrr_sum (h : ReadablePayments db merchant nowMs) :
    (∃ response, computeMrr db merchant nowMs = some response ∧
      (response.tokens.map TokenMrr.token).Nodup ∧
      ∀ token amount count, ⟨token, amount, count⟩ ∈ response.tokens ↔
        IsTokenTotal (fun s => paymentsOf db merchant nowMs s token) amount count) ∧
    (∀ db' token response response', ReadablePayments db' merchant nowMs →
      computeMrr db merchant nowMs = some response →
      computeMrr db' merchant nowMs = some response' →
      (∀ s, paymentsOf db' merchant nowMs s token = paymentsOf db merchant nowMs s token) →
      ∀ amount count, ⟨token, amount, count⟩ ∈ response'.tokens ↔
        ⟨token, amount, count⟩ ∈ response.tokens) ∧
    ∀ s token gap last amount contribution, 0 < gap →
      2 ≤ (paymentsOf db merchant nowMs s token).length →
      (∀ g ∈ gaps ((paymentsOf db merchant nowMs s token).map fun row =>
        (row.ledgerTimestamp : ℤ)), g = gap) →
      (paymentsOf db merchant nowMs s token).getLast? = some last →
      bigIntOfText last.amount = some amount →
      (IsContribution (paymentsOf db merchant nowMs s token) contribution ↔
        contribution = amount * 2592000 / gap) := by
  refine ⟨⟨_, computeMrr_eq h, ?_, fun token amount count => mem_tokens_iff h (computeMrr_eq h)⟩,
    ?_, ?_⟩
  · rw [List.map_map]
    exact InsertionMap.nodup _
  · intro db' token response response' h' hresponse hresponse' hsame amount count
    rw [mem_tokens_iff h hresponse, mem_tokens_iff h' hresponse']
    simp only [hsame]
  · intro s token gap last amount contribution hgap hlength hgaps hlast hamount
    exact isContribution_iff_of_gaps hgap hlength hgaps hlast hamount

end Response

/-- One subscriber pays every day, and another one has paid once in between. -/
def dailyPayments : Db :=
  { Db.empty with
    events := [⟨.executed, "GS", "GM", "CT", "5", 100⟩, ⟨.executed, "GT", "GM", "CT", "9", 7000⟩,
      ⟨.executed, "GS", "GM", "CT", "5", 172900⟩, ⟨.executed, "GS", "GM", "CT", "5", 86500⟩] }

theorem readablePayments_dailyPayments : ReadablePayments dailyPayments "GM" 200000000 := by
  refine ⟨by decide, fun row hrow => ?_⟩
  have hamount : row.amount = "5" ∨ row.amount = "9" := by
    revert row
    decide
  rcases hamount with hamount | hamount <;> rw [hamount]
  · exact ⟨5, by decide, by decide⟩
  · exact ⟨9, by decide, by decide⟩

theorem computeMrr_sum_dailyPayments :
    IsContribution (paymentsOf dailyPayments "GM" 200000000 "GS" "CT") 150 :=
  ((computeMrr_sum readablePayments_dailyPayments).2.2 "GS" "CT" 86400
    ⟨.executed, "GS", "GM", "CT", "5", 172900⟩ 5 150 (by decide) (by decide) (by decide)
    (by decide) (by decide)).2 (by decide)

example : (computeMrr dailyPayments "GM" 200000000).map MrrResponse.tokens =
    some [⟨"CT", 159, 2⟩] := by decide

end SorobanPay.EventIndexer
