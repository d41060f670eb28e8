import SorobanPay.Lifecycle.Refinement
import SorobanPay.Tokens.Ledger

/-!
# Leaving a subscription

A subscriber can leave at any time: `cancel` asks for nothing but the subscriber's signature and a
record, so it succeeds in every reachable state and at every ledger time, whether the record is
paused, overdue, short of allowance or due. And it is final: what is collected for the pair later,
or stored for it, comes after a `subscribe` of the pair or a transfer to it, which the same
subscriber has signed.

## Main definitions

* `Call.Opens`: the calls that give a record to a pair.

## Main results

* `MicroStep.Genuine.opens`: an act that opens a pair belongs to such a call, and the subscriber has
  authorized it.
* `cancel_exits`: `cancel` is open to the subscriber and final.
-/

set_option autoImplicit false

namespace SorobanPay

open Foundation

variable {Address Hash World Op : Type}

/-- The calls that give a record to the pair `(s, m)`. -/
def Call.Opens (s m : Address) : Call Address → Prop
  | .subscribe s' m' .. => s' = s ∧ m' = m
  | .transferSubscription s' _ new => s' = s ∧ new = m
  | _ => False

variable [DecidableEq Address] [DecidableEq Hash] {H : Host Address Hash World Op}
  {σ σ' : State Address Hash World} {μ : MicroStep Address Hash World Op} {env : Env Address}
  {s m : Address}

/-- Two calls open pairs, and both are signed by the subscriber. -/
theorem authorizes_of_opens {call : Call Address} {reply : Reply Address}
    (h : (call.run H env).Returns σ reply σ') (hopens : call.Opens s m) :
    H.authorizes env s = true := by
  cases call with
  | subscribe s' m' token amount interval strict grace =>
    obtain ⟨rfl, rfl⟩ := hopens
    simp only [Call.run, Tx.returns_bind_const, returns_subscribe] at h
    exact h.1.1
  | transferSubscription s' old new =>
    obtain ⟨rfl, rfl⟩ := hopens
    simp only [Call.run, Tx.returns_bind_const, returns_transferSubscription] at h
    exact h.1.1
  | _ => exact hopens.elim

omit [DecidableEq Hash] in
/-- The acts that open a pair belong to the calls that do. -/
theorem Call.opens_of_mem_acts {now : ℕ} {call : Call Address} {a : Act Address}
    (ha : a ∈ call.acts H now σ s m) (hopening : a.IsOpening) : call.Opens s m := by
  cases call with
  | subscribe s' m' token amount interval strict grace =>
    simp only [Call.acts] at ha
    split_ifs at ha with hpair
    · exact hpair
    · simp at ha
  | transferSubscription s' old new =>
    simp only [Call.acts] at ha
    split_ifs at ha with hout hin
    · obtain rfl := List.mem_singleton.1 ha
      exact hopening.elim
    · exact hin
    · simp at ha
  | updateSubscription | pauseSubscription | resumeSubscription | cancel =>
    obtain ⟨-, rfl⟩ := by simpa [Call.acts] using ha
    exact hopening.elim
  | _ => simp [Call.acts] at ha

/-- **Who opens a pair.** The acts that open it belong to a call that does, signed by the
subscriber. -/
theorem MicroStep.Genuine.opens (hμ : μ.Genuine H) {a : Act Address} (ha : a ∈ μ.acts H s m)
    (hopening : a.IsOpening) :
    ∃ call, μ.deed = .applied call ∧ call.Opens s m ∧ H.authorizes μ.env s = true := by
  rcases MicroStep.mem_acts ha with ⟨call, hdeed, ha⟩ | ⟨-, d, rfl⟩ | ⟨-, rfl⟩
  · have hopens := Call.opens_of_mem_acts ha hopening
    cases hμ with
    | applied plain h =>
      obtain rfl := Deed.applied.inj hdeed
      exact ⟨_, rfl, hopens, authorizes_of_opens h hopens⟩
    | _ => cases hdeed
  · exact hopening.elim
  · exact hopening.elim

/-- A record that a pair has got since it had none was opened for it. -/
theorem exists_opens_of_path {μs : List (MicroStep Address Hash World Op)}
    (hkey : H.KeysInjective) (hpath : Path (Leads H) σ μs σ') (hσ : Sound H σ)
    (hnone : H.record σ s m = none) (hsome : (H.record σ' s m).isSome = true) :
    ∃ ν ∈ μs, ∃ call, ν.deed = .applied call ∧ call.Opens s m ∧
      H.authorizes ν.env s = true := by
  obtain ⟨d, hd⟩ := Option.isSome_iff_exists.1 hsome
  have hlife := path_lifecycle hkey hpath hσ s m
  rw [hnone, hd] at hlife
  obtain ⟨a, ha, hopening⟩ := Lifecycle.exists_isOpening hlife
  obtain ⟨ν, hν, ha⟩ := List.mem_flatMap.1 ha
  exact ⟨ν, hν, (sound_of_mem_path hkey hpath hσ hν).1.opens ha hopening⟩

/-- The step in which a subscriber cancels. -/
abbrev cancelStep (Op Hash : Type) (env : Env Address) (s m token : Address) :
    Step Address Hash Op :=
  ⟨env, .invoke (.cancel s m token)⟩

/-- `cancel` succeeds for a pair that has a record, and leaves it none. -/
theorem cancel_succeeds (hkey : H.KeysInjective) (hauth : H.authorizes env s = true)
    (hlive : (H.record σ s m).isSome = true) (token : Address) :
    (invoke H env (.cancel s m token) σ).1 = .ok .done ∧
      H.record (next H σ (cancelStep Op Hash env s m token)) s m = none := by
  have hcancel : (cancel H env s m token).Returns σ () _ := returns_cancel.2 ⟨hauth, hlive, rfl⟩
  have hrun : ((Call.cancel s m token).run H env).Returns σ .done _ :=
    Tx.returns_bind_const.2 ⟨hcancel, rfl⟩
  refine ⟨by rw [invoke, Tx.commit_of_returns hrun], ?_⟩
  rw [next_eq_of_returns hrun, record_cancel hcancel, Host.record_removeSubscription hkey,
    if_pos ⟨rfl, rfl⟩]

/-- **The way out.** In every reachable state `cancel` succeeds for a subscriber with a
subscription, at any ledger time. Whatever happens afterwards, a collection for the pair, or a
record of it, comes after a call that opens the pair anew, and the subscriber has authorized this
call. -/
theorem cancel_exits (hkey : H.KeysInjective) (hreach : Reachable H σ)
    (hauth : H.authorizes env s = true) (hlive : (H.record σ s m).isSome = true)
    (token : Address) :
    (invoke H env (.cancel s m token) σ).1 = .ok .done ∧
      ∀ steps pre (μ : MicroStep Address Hash World Op) post,
        microHistory H (next H σ (cancelStep Op Hash env s m token)) steps = pre ++ μ :: post →
        μ.deed.IsCharge s m ∨ (H.record μ.before s m).isSome = true →
        ∃ ν ∈ pre, ∃ call, ν.deed = .applied call ∧ call.Opens s m ∧
          H.authorizes ν.env s = true := by
  obtain ⟨hdone, hnone⟩ := cancel_succeeds hkey hauth hlive token
  refine ⟨hdone, fun steps pre μ post hsplit hμ => ?_⟩
  have hsound : Sound H (next H σ (cancelStep Op Hash env s m token)) :=
    sound_of_path hkey (path_microSteps σ _) (hreach.sound hkey)
  have hpath := path_microHistory (H := H) (next H σ (cancelStep Op Hash env s m token)) steps
  rw [hsplit] at hpath
  obtain ⟨τ, hpre, hrest⟩ := Path.append_iff.1 hpath
  obtain ⟨_, ⟨rfl, -, hgenuine⟩, -⟩ := Path.cons_iff.1 hrest
  refine exists_opens_of_path hkey hpre hsound hnone ?_
  -- a collection finds a record, too
  rcases hμ with hcharge | hrecord
  · obtain ⟨d, fees, hcollects⟩ := hgenuine.collects (sound_of_path hkey hpre hsound) hcharge
    exact Option.isSome_iff_exists.2 ⟨d, hcollects.found⟩
  · exact hrecord

/-- A subscription of 100 a day that has been paused. -/
abbrev samplePausedForGood : State UInt8 (List UInt8) (TokenLedger UInt8) :=
  after (next sampleHost) sampleStart
    [sampleStep 1 (.subscribe 1 2 9 100 86400 false none),
      sampleStep 2 (.pauseSubscription 1 2 9 none)]

/-- It is cancelled at time 0. -/
abbrev sampleLeft : State UInt8 (List UInt8) (TokenLedger UInt8) :=
  next sampleHost samplePausedForGood
    (cancelStep (External UInt8) (List UInt8) (sampleEnv 0) 1 2 9)

/-- Then it is made again, and collected a day later. -/
def sampleMadeAgain : List (Step UInt8 (List UInt8) (External UInt8)) :=
  [sampleStep 3 (.subscribe 1 2 9 50 86400 false none),
    sampleStep 86403 (.executePayment 1 2 9)]

theorem cancel_exits_sample :
    (invoke sampleHost (sampleEnv 0) (.cancel 1 2 9) samplePausedForGood).1 = .ok .done ∧
      ∃ pre μ post, microHistory sampleHost sampleLeft sampleMadeAgain = pre ++ μ :: post ∧
        μ.deed.IsCharge 1 2 ∧
        ∃ ν ∈ pre, ∃ call, ν.deed = .applied call ∧ call.Opens 1 2 ∧
          sampleHost.authorizes ν.env 1 = true := by
  have hsplit : ∃ pre μ, microHistory sampleHost sampleLeft sampleMadeAgain = pre ++ μ :: [] ∧
      μ.deed = .executed 1 2 := ⟨[_], _, rfl, rfl⟩
  obtain ⟨pre, μ, hsplit, hdeed⟩ := hsplit
  have hreach : Reachable sampleHost samplePausedForGood := ⟨_, _, rfl⟩
  have hauth : sampleHost.authorizes (sampleEnv 0) 1 = true := rfl
  have hlive : (sampleHost.record samplePausedForGood 1 2).isSome = true := rfl
  obtain ⟨hdone, hfinal⟩ := cancel_exits sampleHost_keysInjective hreach hauth hlive 9
  have hcharge : μ.deed.IsCharge 1 2 := .inl hdeed
  exact ⟨hdone, pre, μ, [], hsplit, hcharge,
    hfinal sampleMadeAgain pre μ [] hsplit (.inl hcharge)⟩

end SorobanPay
