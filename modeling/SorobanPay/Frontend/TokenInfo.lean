import Mathlib.Data.List.Infix
import SorobanPay.Foundation.Interleaving
import SorobanPay.Foundation.Run

/-!
# The balance and the allowance of a subscriber

`useTokenInfo` asks a token contract for the balance of the subscriber and for the allowance that
the subscriber has granted, and asks again when the addresses change, at intervals, when the window
gets the focus, and on request. Replies come in any order. A fetch takes a number when it starts,
and when the replies to it are there, they are shown if no fetch has started since.

While a fetch is being waited for, the balance and the allowance of an earlier one are still there,
also when the addresses have changed. A change to addresses that are not valid starts no fetch, so
it does not make the last one stale: when the replies to this one come, they are shown, for
addresses that are not there any more.

What is simulated, and whether an address is valid, are parameters. The functions that intervals,
the focus and the caller have at hand are those of the last render.

## Main definitions

* `parseSimulationResult`, `buildErrorMessage`, `outcome`: what is made of the replies.
* `TokenInfo`, `tokenStep`: the hook.
* `Latest`: the fetch that has started last.
* `Shows`, `Carries`: what there is to show for it, and what is still there before.

## Main results

* `Showing.step`: what is shown comes from the last fetch.
* `tokenInfo_current`: for which addresses it is.
-/

set_option autoImplicit false

namespace SorobanPay.TokenBalances

open Foundation

/-! ### Replies -/

/-- What `scValToNative` makes of a value. -/
inductive Native
  | bigint (value : ℤ)
  | number (value : ℤ)
  | other (typeName : String)
  deriving DecidableEq, Repr

/-- The reply to a simulation. -/
inductive SimulationResponse
  | error (message : String)
  | success (retval : Option Native)
  deriving DecidableEq, Repr

/-- `parseSimulationResult`. -/
def parseSimulationResult (result : SimulationResponse) (fieldName : String) : Except String ℤ :=
  match result with
  | .error message =>
    .error ("Token contract rejected \"" ++ fieldName ++ "\" call: " ++ message)
  | .success none =>
    .error ("No return value in simulation for \"" ++ fieldName ++ "\". " ++
      "The address may not be a valid SEP-41 token contract.")
  | .success (some (.bigint value)) | .success (some (.number value)) => .ok value
  | .success (some (.other typeName)) =>
    .error ("Unexpected return type for \"" ++ fieldName ++ "\": expected i128, got " ++ typeName)

/-- `raw.includes(part)`. -/
def includes (raw part : String) : Bool := part.toList <:+: raw.toList

/-- `buildErrorMessage`. -/
def buildErrorMessage (raw : String) : String :=
  if includes raw "rejected" || includes raw "reverted" then
    "Token contract call was rejected. The address may not be a valid SEP-41 token."
  else if includes raw "No return value" || includes raw "not be a valid SEP-41" then
    "The contract did not return a balance or allowance. " ++
      "Verify the token address is a SEP-41 contract."
  else if includes raw "failed to fetch" || includes raw "network" ||
      includes raw "ECONNREFUSED" then
    "Could not reach the Soroban RPC endpoint. Check your network connection."
  else if includes raw "timeout" || includes raw "timed out" then
    "RPC request timed out while fetching token info. Will retry shortly."
  else "Could not load token info: " ++ raw

/-- The replies to the two simulations of a fetch, or what one of them has thrown. -/
abbrev Replies : Type := Except String (SimulationResponse × SimulationResponse)

/-- The balance and the allowance, or the message of an error. -/
def outcome (replies : Replies) : Except String (ℤ × ℤ) :=
  let parsed : Except String (ℤ × ℤ) := do
    let (balanceResult, allowanceResult) ← replies
    let balance ← parseSimulationResult balanceResult "balance"
    let allowance ← parseSimulationResult allowanceResult "allowance"
    pure (balance, allowance)
  match parsed with
  | .ok values => .ok values
  | .error raw => .error (buildErrorMessage raw)

/-! ### The hook -/

/-- The arguments that a fetch depends on. -/
structure TokenProps where
  tokenAddress : String
  subscriberAddress : String
  spenderAddress : String
  rpcUrl : Option String
  deriving DecidableEq, Repr

inductive TokenInfoStatus
  | idle
  | loading
  | success
  | error
  deriving DecidableEq, Repr

/-- A fetch with its number, and the replies to it when they are there. -/
structure Fetch where
  gen : ℕ
  props : TokenProps
  replies : Option Replies

/-- The state of the hook, `fetchGenRef`, the arguments of the last render, and all fetches. -/
structure TokenInfo where
  status : TokenInfoStatus
  balance : Option ℤ
  allowance : Option ℤ
  error : Option String
  lastUpdated : Option String
  fetchGen : ℕ
  props : Option TokenProps
  fetches : List Fetch

/-- Nothing has been rendered. -/
def TokenInfo.start : TokenInfo := ⟨.idle, none, none, none, none, 0, none, []⟩

/-- React renders, one of the other reasons for a fetch occurs, or the replies to a fetch come. -/
inductive TokenInput
  | render (props : TokenProps)
  | refresh
  | reply (i : ℕ) (replies : Replies) (now : String)

section Steps

variable (isValidCAddress isValidGAddress : String → Bool)

/-- `canFetch`. -/
def canFetch (props : TokenProps) : Bool :=
  isValidCAddress props.tokenAddress && isValidGAddress props.subscriberAddress &&
    isValidCAddress props.spenderAddress

/-- `fetchTokenInfo` up to the simulations. -/
def fetchTokenInfo (σ : TokenInfo) (props : TokenProps) : TokenInfo :=
  if canFetch isValidCAddress isValidGAddress props then
    { σ with
      status := .loading
      fetchGen := σ.fetchGen + 1
      fetches := σ.fetches ++ [⟨σ.fetchGen + 1, props, none⟩] }
  else { σ with status := .idle, balance := none, allowance := none, error := none }

/-- `fetchTokenInfo` when the replies are there, if no other fetch has started. -/
def settle (σ : TokenInfo) (replies : Replies) (now : String) : TokenInfo :=
  match outcome replies with
  | .ok (balance, allowance) =>
    { σ with
      balance := some balance
      allowance := some allowance
      error := none
      status := .success
      lastUpdated := some now }
  | .error message =>
    { σ with balance := none, allowance := none, error := some message, status := .error }

def tokenStep (σ : TokenInfo) : TokenInput → TokenInfo
  | .render props =>
    let σ' := { σ with props := some props }
    if σ.props = some props then σ'
    else fetchTokenInfo isValidCAddress isValidGAddress σ' props
  | .refresh =>
    match σ.props with
    | some props => fetchTokenInfo isValidCAddress isValidGAddress σ props
    | none => σ
  | .reply i replies now =>
    match σ.fetches[i]? with
    | some fetch =>
      if fetch.replies.isSome then σ
      else
        let σ' := { σ with fetches := σ.fetches.set i { fetch with replies := some replies } }
        if fetch.gen = σ.fetchGen then settle σ' replies now else σ'
    | none => σ

end Steps

/-! ### What is shown -/

/-- The fetch that has started last. -/
def Latest (σ : TokenInfo) (fetch : Fetch) : Prop :=
  ∃ n, σ.fetchGen = n + 1 ∧ σ.fetches[n]? = some fetch

/-- The values of an outcome are shown, or its error. -/
def ShowsOutcome (σ : TokenInfo) : Except String (ℤ × ℤ) → Prop
  | .ok (balance, allowance) =>
    σ.balance = some balance ∧ σ.allowance = some allowance ∧ σ.error = none
  | .error message => σ.balance = none ∧ σ.allowance = none ∧ σ.error = some message

/-- There are no values and there is no error. -/
def Empty (σ : TokenInfo) : Prop := σ.balance = none ∧ σ.allowance = none ∧ σ.error = none

/-- What is still there while a fetch is being waited for: nothing, or the outcome of an earlier
fetch, whatever addresses that was for. -/
def Carries (σ : TokenInfo) (fetch : Fetch) : Prop :=
  Empty σ ∨ ∃ (i : ℕ) (earlier : Fetch) (replies : Replies), σ.fetches[i]? = some earlier ∧
    earlier.gen < fetch.gen ∧ earlier.replies = some replies ∧ ShowsOutcome σ (outcome replies)

/-- The status that an outcome is shown with. -/
def statusOf : Except String (ℤ × ℤ) → TokenInfoStatus
  | .ok _ => .success
  | .error _ => .error

/-- What the hook has to show for the last fetch. -/
def Shows (σ : TokenInfo) (fetch : Fetch) : Prop :=
  match fetch.replies with
  | none => σ.status = .loading ∧ Carries σ fetch
  | some replies => σ.status = statusOf (outcome replies) ∧ ShowsOutcome σ (outcome replies)

/-- Nothing is shown. -/
def Blank (σ : TokenInfo) : Prop := σ.status = .idle ∧ Empty σ

/-- The values that are shown are both missing, or both from one fetch. -/
def Paired (σ : TokenInfo) : Prop :=
  σ.balance = none ∧ σ.allowance = none ∨
    ∃ (i : ℕ) (fetch : Fetch) (balance allowance : ℤ), σ.fetches[i]? = some fetch ∧
      fetch.replies.map outcome = some (.ok (balance, allowance)) ∧
        σ.balance = some balance ∧ σ.allowance = some allowance

/-! ### What a step keeps -/

/-- The same values are there, and so are the fetches that have been answered. -/
structure Retains (σ σ' : TokenInfo) : Prop where
  balance : σ'.balance = σ.balance
  allowance : σ'.allowance = σ.allowance
  error : σ'.error = σ.error
  answered : ∀ (i : ℕ) (fetch : Fetch), σ.fetches[i]? = some fetch → fetch.replies ≠ none →
    σ'.fetches[i]? = some fetch

namespace Retains

variable {σ σ' : TokenInfo} {fetch : Fetch}

theorem empty (h : Retains σ σ') (hempty : Empty σ) : Empty σ' :=
  ⟨h.balance.trans hempty.1, h.allowance.trans hempty.2.1, h.error.trans hempty.2.2⟩

theorem showsOutcome (h : Retains σ σ') {result : Except String (ℤ × ℤ)}
    (hshows : ShowsOutcome σ result) : ShowsOutcome σ' result := by
  cases result with
  | ok values =>
    exact ⟨h.balance.trans hshows.1, h.allowance.trans hshows.2.1, h.error.trans hshows.2.2⟩
  | error message =>
    exact ⟨h.balance.trans hshows.1, h.allowance.trans hshows.2.1, h.error.trans hshows.2.2⟩

theorem carries (h : Retains σ σ') (hcarries : Carries σ fetch) : Carries σ' fetch := by
  refine hcarries.imp h.empty ?_
  rintro ⟨i, earlier, replies, hearlier, hbefore, hreplies, hshows⟩
  have hanswered : earlier.replies ≠ none := by simp [hreplies]
  exact ⟨i, earlier, replies, h.answered i earlier hearlier hanswered, hbefore, hreplies,
    h.showsOutcome hshows⟩

theorem shows (h : Retains σ σ') (hstatus : σ'.status = σ.status) (hshows : Shows σ fetch) :
    Shows σ' fetch := by
  unfold Shows at hshows ⊢
  cases hreplies : fetch.replies with
  | none =>
    rw [hreplies] at hshows
    exact ⟨hstatus.trans hshows.1, h.carries hshows.2⟩
  | some replies =>
    rw [hreplies] at hshows
    exact ⟨hstatus.trans hshows.1, h.showsOutcome hshows.2⟩

theorem paired (h : Retains σ σ') (hpaired : Paired σ) : Paired σ' := by
  rcases hpaired with ⟨hbalance, hallowance⟩ |
    ⟨i, source, balance, allowance, hsource, hvalues, hbalance, hallowance⟩
  · exact .inl ⟨h.balance.trans hbalance, h.allowance.trans hallowance⟩
  · have hanswered : source.replies ≠ none := by
      intro hnone
      simp [hnone] at hvalues
    exact .inr ⟨i, source, balance, allowance, h.answered i source hsource hanswered, hvalues,
      h.balance.trans hbalance, h.allowance.trans hallowance⟩

end Retains

section Settle

variable (σ : TokenInfo) (replies : Replies) (now : String)

theorem fetches_settle : (settle σ replies now).fetches = σ.fetches := by
  unfold settle
  split <;> rfl

theorem fetchGen_settle : (settle σ replies now).fetchGen = σ.fetchGen := by
  unfold settle
  split <;> rfl

theorem props_settle : (settle σ replies now).props = σ.props := by
  unfold settle
  split <;> rfl

theorem status_settle : (settle σ replies now).status ≠ .loading := by
  unfold settle
  split <;> nofun

theorem showsOutcome_settle : ShowsOutcome (settle σ replies now) (outcome replies) := by
  unfold settle
  cases outcome replies with
  | ok values => exact ⟨rfl, rfl, rfl⟩
  | error message => exact ⟨rfl, rfl, rfl⟩

/-- The replies are shown. -/
theorem shows_settle {fetch : Fetch} (h : fetch.replies = some replies) :
    Shows (settle σ replies now) fetch := by
  have hstatus : (settle σ replies now).status = statusOf (outcome replies) := by
    unfold settle
    cases outcome replies <;> rfl
  rw [Shows, h]
  exact ⟨hstatus, showsOutcome_settle σ replies now⟩

theorem paired_settle {i : ℕ} {fetch : Fetch} (hfetch : σ.fetches[i]? = some fetch)
    (h : fetch.replies = some replies) : Paired (settle σ replies now) := by
  have hshows := showsOutcome_settle σ replies now
  cases hreplies : outcome replies with
  | ok values =>
    rw [hreplies] at hshows
    exact .inr ⟨i, fetch, values.1, values.2, (fetches_settle σ replies now).symm ▸ hfetch,
      by rw [h, Option.map_some, hreplies], hshows.1, hshows.2.1⟩
  | error message =>
    rw [hreplies] at hshows
    exact .inl ⟨hshows.1, hshows.2.1⟩

end Settle

section Invariant

variable {isValidCAddress isValidGAddress : String → Bool}

variable (isValidCAddress isValidGAddress) in
/-- Fetches are numbered in order and are for valid addresses, and what is shown comes from the last
one, which is for the addresses of the last render if these are valid. -/
structure Showing (σ : TokenInfo) : Prop where
  numbered : ∀ (i : ℕ) (fetch : Fetch), σ.fetches[i]? = some fetch → fetch.gen = i + 1 ∧
    canFetch isValidCAddress isValidGAddress fetch.props = true
  counted : σ.fetchGen = σ.fetches.length
  paired : Paired σ
  shown : Blank σ ∨ ∃ fetch, Latest σ fetch ∧ Shows σ fetch
  valid : ∀ props, σ.props = some props →
    canFetch isValidCAddress isValidGAddress props = true →
      ∃ fetch, Latest σ fetch ∧ fetch.props = props ∧ Shows σ fetch
  invalid : (∀ props, σ.props = some props →
    canFetch isValidCAddress isValidGAddress props = false) → σ.status ≠ .loading

theorem showing_start : Showing isValidCAddress isValidGAddress .start :=
  ⟨nofun, rfl, .inl ⟨rfl, rfl⟩, .inl ⟨rfl, rfl, rfl, rfl⟩, nofun, fun _ => nofun⟩

/-- What is shown has been found by an earlier fetch, if there is anything. -/
theorem Showing.carries {σ : TokenInfo} (h : Showing isValidCAddress isValidGAddress σ)
    {fetch : Fetch} (hgen : σ.fetchGen < fetch.gen) : Carries σ fetch := by
  rcases h.shown with hblank | ⟨last, ⟨n, hn, hlast⟩, hshows⟩
  · exact .inl hblank.2
  · have hlt : last.gen < fetch.gen := by rwa [(h.numbered n last hlast).1, ← hn]
    unfold Shows at hshows
    split at hshows
    · refine hshows.2.imp_right ?_
      rintro ⟨i, earlier, replies, hearlier, hbefore, hshown⟩
      exact ⟨i, earlier, replies, hearlier, hbefore.trans hlt, hshown⟩
    · exact .inr ⟨n, last, _, hlast, hlt, ‹_›, hshows.2⟩

namespace Showing

variable {σ : TokenInfo}

/-- A fetch starts for valid addresses, and for others nothing is shown. -/
theorem fetchTokenInfo (h : Showing isValidCAddress isValidGAddress σ) (props : TokenProps) :
    Showing isValidCAddress isValidGAddress
      (fetchTokenInfo isValidCAddress isValidGAddress { σ with props := some props } props) := by
  unfold TokenBalances.fetchTokenInfo
  split_ifs with hvalid
  · have hretains : Retains σ
        { σ with
          props := some props
          status := .loading
          fetchGen := σ.fetchGen + 1
          fetches := σ.fetches ++ [⟨σ.fetchGen + 1, props, none⟩] } :=
      ⟨rfl, rfl, rfl, fun i fetch hfetch _ =>
        (List.getElem?_append_left (List.getElem?_eq_some_iff.1 hfetch).1).trans hfetch⟩
    have hnew : Latest
        { σ with
          props := some props
          status := .loading
          fetchGen := σ.fetchGen + 1
          fetches := σ.fetches ++ [⟨σ.fetchGen + 1, props, none⟩] }
        ⟨σ.fetchGen + 1, props, none⟩ :=
      ⟨σ.fetchGen, rfl, by rw [h.counted]; exact List.getElem?_concat_length⟩
    have hbefore : Carries σ ⟨σ.fetchGen + 1, props, none⟩ := h.carries (Nat.lt_succ_self _)
    have hcarries := hretains.carries hbefore
    refine ⟨fun i fetch hfetch => ?_, ?_, hretains.paired h.paired, .inr ⟨_, hnew, rfl, hcarries⟩,
      fun props' hprops _ => ⟨_, hnew, Option.some.inj hprops, rfl, hcarries⟩, fun hinvalid => ?_⟩
    · rcases Pool.getElem?_start (p := ⟨(), σ.fetches⟩) hfetch with hfetch | ⟨rfl, rfl⟩
      · exact h.numbered i fetch hfetch
      · exact ⟨congrArg (· + 1) h.counted, hvalid⟩
    · rw [List.length_append, h.counted]
      rfl
    · rw [hinvalid props rfl] at hvalid
      cases hvalid
  · refine ⟨h.numbered, h.counted, .inl ⟨rfl, rfl⟩, .inl ⟨rfl, rfl, rfl, rfl⟩,
      fun props' hprops hvalid' => ?_, fun _ => nofun⟩
    obtain rfl := Option.some.inj hprops
    exact absurd hvalid' hvalid

section Reply

variable {i : ℕ} {fetch : Fetch} (replies : Replies)

theorem numbered_set (h : Showing isValidCAddress isValidGAddress σ)
    (hfetch : σ.fetches[i]? = some fetch) (j : ℕ) (fetch' : Fetch)
    (hfetch' : (σ.fetches.set i { fetch with replies := some replies })[j]? = some fetch') :
    fetch'.gen = j + 1 ∧ canFetch isValidCAddress isValidGAddress fetch'.props = true := by
  rcases Pool.getElem?_set hfetch' with ⟨rfl, rfl⟩ | ⟨-, hfetch'⟩
  · exact h.numbered j fetch hfetch
  · exact h.numbered j fetch' hfetch'

/-- The replies to the last fetch come, and are shown. -/
theorem reply_latest (h : Showing isValidCAddress isValidGAddress σ)
    (hfetch : σ.fetches[i]? = some fetch) (hlast : fetch.gen = σ.fetchGen) (now : String) :
    Showing isValidCAddress isValidGAddress
      (settle { σ with fetches := σ.fetches.set i { fetch with replies := some replies } } replies
        now) := by
  have hgen := (h.numbered i fetch hfetch).1
  have hself : (σ.fetches.set i { fetch with replies := some replies })[i]? =
      some { fetch with replies := some replies } :=
    List.getElem?_set_self (List.getElem?_eq_some_iff.1 hfetch).1
  have hlatest : Latest
      (settle { σ with fetches := σ.fetches.set i { fetch with replies := some replies } } replies
        now) { fetch with replies := some replies } := by
    refine ⟨i, ?_, ?_⟩
    · rw [fetchGen_settle]
      exact hlast.symm.trans hgen
    · rw [fetches_settle]
      exact hself
  refine ⟨by rw [fetches_settle]; exact h.numbered_set replies hfetch,
    by rw [fetchGen_settle, fetches_settle, List.length_set]; exact h.counted,
    paired_settle _ replies now hself rfl, .inr ⟨_, hlatest, shows_settle _ replies now rfl⟩,
    fun props hprops hvalid => ?_, fun _ => status_settle _ replies now⟩
  rw [props_settle] at hprops
  obtain ⟨fetch', ⟨n, hn, hfetch'⟩, hfor, -⟩ := h.valid props hprops hvalid
  obtain rfl : n = i := by omega
  obtain rfl := Option.some.inj (hfetch.symm.trans hfetch')
  exact ⟨_, hlatest, hfor, shows_settle _ replies now rfl⟩

/-- The replies to another fetch come, and nothing is shown of them. -/
theorem reply_stale (h : Showing isValidCAddress isValidGAddress σ)
    (hfetch : σ.fetches[i]? = some fetch) (hnone : fetch.replies = none)
    (hstale : fetch.gen ≠ σ.fetchGen) :
    Showing isValidCAddress isValidGAddress
      { σ with fetches := σ.fetches.set i { fetch with replies := some replies } } := by
  have hgen := (h.numbered i fetch hfetch).1
  have hretains : Retains σ
      { σ with fetches := σ.fetches.set i { fetch with replies := some replies } } := by
    refine ⟨rfl, rfl, rfl, fun j fetch' hfetch' hanswered => ?_⟩
    have hne : i ≠ j := by
      rintro rfl
      obtain rfl := Option.some.inj (hfetch.symm.trans hfetch')
      exact hanswered hnone
    exact (List.getElem?_set_ne hne).trans hfetch'
  have hlatest : ∀ fetch', Latest σ fetch' →
      Latest { σ with fetches := σ.fetches.set i { fetch with replies := some replies } }
        fetch' := by
    rintro fetch' ⟨n, hn, hfetch'⟩
    have hne : i ≠ n := by omega
    exact ⟨n, hn, (List.getElem?_set_ne hne).trans hfetch'⟩
  refine ⟨h.numbered_set replies hfetch, by rw [List.length_set]; exact h.counted,
    hretains.paired h.paired, ?_, fun props hprops hvalid => ?_, h.invalid⟩
  · rcases h.shown with hblank | ⟨fetch', hlast, hshows⟩
    · exact .inl hblank
    · exact .inr ⟨fetch', hlatest fetch' hlast, hretains.shows rfl hshows⟩
  · obtain ⟨fetch', hlast, hfor, hshows⟩ := h.valid props hprops hvalid
    exact ⟨fetch', hlatest fetch' hlast, hfor, hretains.shows rfl hshows⟩

end Reply

theorem step (h : Showing isValidCAddress isValidGAddress σ) (input : TokenInput) :
    Showing isValidCAddress isValidGAddress
      (tokenStep isValidCAddress isValidGAddress σ input) := by
  cases input with
  | render props =>
    rw [tokenStep]
    split_ifs with hsame
    · exact ⟨h.numbered, h.counted, h.paired, h.shown, hsame ▸ h.valid, hsame ▸ h.invalid⟩
    · exact h.fetchTokenInfo props
  | refresh =>
    cases hprops : σ.props with
    | none =>
      simp only [tokenStep, hprops]
      exact h
    | some props =>
      have hsame : { σ with props := some props } = σ := by rw [← hprops]
      simp only [tokenStep, hprops]
      rw [← hsame]
      exact h.fetchTokenInfo props
  | reply i replies now =>
    cases hfetch : σ.fetches[i]? with
    | none =>
      simp only [tokenStep, hfetch]
      exact h
    | some fetch =>
      simp only [tokenStep, hfetch]
      split_ifs with hdone hlast
      · exact h
      · exact h.reply_latest replies hfetch hlast now
      · have hnone : fetch.replies = none := Option.not_isSome_iff_eq_none.1 hdone
        exact h.reply_stale replies hfetch hnone hlast

end Showing

/-! ### While a fetch is being waited for -/

/-- What is shown besides the status. -/
abbrev Content : Type := Option ℤ × Option ℤ × Option String × Option String

def content (σ : TokenInfo) : Content := (σ.balance, σ.allowance, σ.error, σ.lastUpdated)

/-- Since the fetch with some number has started, others have, or it is not waited for any more, or
there is still what there was. -/
def Kept (gen : ℕ) (shown : Content) (σ : TokenInfo) : Prop :=
  gen ≤ σ.fetchGen ∧ (σ.fetchGen = gen → σ.status = .loading → content σ = shown)

theorem Kept.fetchTokenInfo {gen : ℕ} {shown : Content} {σ : TokenInfo}
    (h : Kept gen shown σ) (props : TokenProps) :
    Kept gen shown (fetchTokenInfo isValidCAddress isValidGAddress σ props) := by
  unfold TokenBalances.fetchTokenInfo
  split_ifs
  · exact ⟨h.1.trans (Nat.le_succ _), fun heq => absurd (heq ▸ h.1) (Nat.not_succ_le_self _)⟩
  · exact ⟨h.1, fun _ => nofun⟩

theorem Kept.step {gen : ℕ} {shown : Content} {σ : TokenInfo}
    (h : Kept gen shown σ) (input : TokenInput) :
    Kept gen shown (tokenStep isValidCAddress isValidGAddress σ input) := by
  cases input with
  | render props =>
    rw [tokenStep]
    split_ifs
    · exact h
    · have hprops : Kept gen shown { σ with props := some props } := h
      exact hprops.fetchTokenInfo props
  | refresh =>
    rw [tokenStep]
    split
    · exact h.fetchTokenInfo _
    · exact h
  | reply i replies now =>
    simp only [tokenStep]
    split
    · split_ifs
      · exact h
      · exact ⟨by rw [fetchGen_settle]; exact h.1, fun _ hstatus =>
          absurd hstatus (status_settle _ replies now)⟩
      · exact h
    · exact h

theorem content_fetchTokenInfo {σ : TokenInfo} {props : TokenProps}
    (h : (fetchTokenInfo isValidCAddress isValidGAddress σ props).fetchGen ≠ σ.fetchGen) :
    content (fetchTokenInfo isValidCAddress isValidGAddress σ props) = content σ := by
  unfold fetchTokenInfo at h ⊢
  split_ifs with hvalid
  · rfl
  · rw [if_neg hvalid] at h
    exact absurd rfl h

/-- A step that starts a fetch leaves what is shown. -/
theorem content_of_started {σ : TokenInfo} {input : TokenInput}
    (h : (tokenStep isValidCAddress isValidGAddress σ input).fetchGen ≠ σ.fetchGen) :
    content (tokenStep isValidCAddress isValidGAddress σ input) = content σ := by
  cases input with
  | render props =>
    rw [tokenStep] at h ⊢
    split_ifs with hsame
    · rfl
    · rw [if_neg hsame] at h
      exact content_fetchTokenInfo (σ := { σ with props := some props }) h
  | refresh =>
    rw [tokenStep] at h ⊢
    cases hprops : σ.props with
    | none => rfl
    | some props =>
      simp only [hprops] at h
      exact content_fetchTokenInfo h
  | reply i replies now =>
    refine absurd ?_ h
    simp only [tokenStep]
    split
    · split_ifs
      · rfl
      · exact fetchGen_settle _ replies now
      · rfl
    · rfl

variable (isValidCAddress isValidGAddress) in
/-- **What is shown, and for which addresses.** After any renders, refreshes and replies in any
order: if the addresses of the last render are valid, the fetch that has started last is for them.
When its replies are there, its balance and its allowance are shown, or its error. While it is being
waited for, the status says so, and what is shown besides is what was shown when it started:
nothing, or the outcome of an earlier fetch, which may have been for other addresses. If the
addresses are not valid, nothing is shown, or else the replies to the last fetch, which was for
other addresses. A balance and an allowance are never from different fetches. -/
theorem tokenInfo_current (inputs : List TokenInput) :
    let σ := after (tokenStep isValidCAddress isValidGAddress) .start inputs
    (∀ props, σ.props = some props → canFetch isValidCAddress isValidGAddress props = true →
      ∃ fetch, Latest σ fetch ∧ fetch.props = props ∧ Shows σ fetch) ∧
    (∀ props, σ.props = some props → canFetch isValidCAddress isValidGAddress props = false →
      Blank σ ∨ ∃ fetch, Latest σ fetch ∧ fetch.props ≠ props ∧ fetch.replies.isSome = true ∧
        Shows σ fetch) ∧
    Paired σ ∧
    ∀ input inputs', (tokenStep isValidCAddress isValidGAddress σ input).fetchGen ≠ σ.fetchGen →
      let τ := after (tokenStep isValidCAddress isValidGAddress)
        (tokenStep isValidCAddress isValidGAddress σ input) inputs'
      τ.status = .loading →
        τ.fetchGen = (tokenStep isValidCAddress isValidGAddress σ input).fetchGen →
          content τ = content σ := by
  intro σ
  have h : Showing isValidCAddress isValidGAddress σ :=
    after_invariant (fun _ input h => h.step input) showing_start inputs
  refine ⟨h.valid, fun props hprops hinvalid => h.shown.imp_right ?_, h.paired,
    fun input inputs' hstarts => ?_⟩
  · rintro ⟨fetch, hlatest, hshows⟩
    refine ⟨fetch, hlatest, ?_, ?_, hshows⟩
    · rintro rfl
      obtain ⟨n, -, hfetch⟩ := hlatest
      rw [(h.numbered n fetch hfetch).2] at hinvalid
      cases hinvalid
    · by_contra hwaiting
      refine h.invalid (fun props' hprops' => ?_) ?_
      · rwa [← Option.some.inj (hprops.symm.trans hprops')]
      · rw [Shows, Option.not_isSome_iff_eq_none.1 hwaiting] at hshows
        exact hshows.1
  · intro τ hloading hlast
    have hkept : Kept (tokenStep isValidCAddress isValidGAddress σ input).fetchGen (content σ) τ :=
      after_invariant (fun _ input h => h.step input)
        ⟨le_rfl, fun _ _ => content_of_started hstarts⟩ inputs'
    exact hkept.2 hlast hloading

/-- While the balance for other addresses is being waited for, the old one is still there. -/
example :
    let props : TokenProps := ⟨"C", "G", "C", none⟩
    let replies : Replies := .ok (.success (some (.bigint 7)), .success (some (.bigint 5)))
    let σ := after (tokenStep (fun _ => true) fun _ => true) .start
      [.render props, .reply 0 replies "now", .render { props with tokenAddress := "C'" }]
    σ.status = .loading ∧ σ.balance = some 7 := by
  decide

end Invariant

end SorobanPay.TokenBalances
