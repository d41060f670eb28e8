import SorobanPay.Foundation.Encoding
import SorobanPay.Foundation.FirstSeen
import SorobanPay.Frontend.NativeValues

/-!
# The negotiation of the API version

`negotiateVersion` of `lib/api_version.ts` picks the version that client and server speak. The
versions of the client are listed newest first, and the first one that the server has is taken. The
minimum that the server demands is looked up among the versions of the client, and is not compared
with the version that is taken.

## Main definitions

* `negotiateVersion`, `negotiateFromHeader`: the negotiation.
* `Advertises`: the natural numbers that an advertisement stands for.
* `NegotiatedRight`: what the negotiation is for.

## Main results

* `mem_normaliseVersionList`: the versions of the server.
* `negotiateFromHeader_intercalate`: the header is read as the list.
* `negotiation_iff`: when the negotiation is right.
-/

set_option autoImplicit false

namespace SorobanPay.ApiVersion

open Foundation WebhookNotifier Frontend

/-! ### The negotiation -/

/-- `SUPPORTED_API_VERSIONS`. -/
def supportedApiVersions : List String := ["2", "1"]

/-- `PREFERRED_API_VERSION`. -/
def preferredApiVersion : String := "2"

/-- `API_VERSION_RESPONSE_HEADER`. -/
def apiVersionResponseHeader : String := "X-SorobanPay-API-Version"

/-- `UPGRADE_DOCS_URL`. -/
def upgradeDocsUrl : String :=
  "https://github.com/Chrisland58/SorobanPay/blob/main/docs/api-cookbook.md"

/-- `NegotiationResult`. -/
inductive NegotiationResult
  | compatible (negotiatedVersion : String) (isDowngraded : Bool)
  | upgradeRequired (serverVersion upgradeMessage : String)
  | unknown (reason : String)
  deriving DecidableEq, Repr

/-- The field `version`, a text or a list of texts. -/
inductive VersionField
  | single (version : String)
  | many (versions : List String)

/-- The texts of the field. -/
def VersionField.texts : VersionField → List String
  | single version => [version]
  | many versions => versions

/-- `ServerVersionAdvertisement`. -/
structure ServerVersionAdvertisement where
  version : VersionField
  minVersion : Option String
  serverMessage : Option String

/-- `trim`. -/
def trimText (text : String) : String := String.ofList (trim text.toList)

/-- `normaliseVersionList`. -/
def normaliseVersionList (version : VersionField) : List String :=
  firstSeen id [] ((version.texts.map trimText).filter (· ≠ ""))

/-- `clientSupports`. -/
def clientSupports (version : String) : Bool := supportedApiVersions.contains version

/-- `buildUpgradeMessage`. -/
def buildUpgradeMessage (requiredVersion : String) (serverMessage : Option String) : String :=
  let base := "This version of SorobanPay requires API version " ++ requiredVersion ++
    " or higher, but your client only supports versions " ++
    ", ".intercalate supportedApiVersions ++ ". Please upgrade to continue. See " ++
    upgradeDocsUrl ++ " for details."
  match serverMessage with
  | none => base
  | some message =>
    if message ≠ "" ∧ trimText message ≠ "" then base ++ " Server says: " ++ trimText message
    else base

/-- The minimum that the client does not support. -/
def unsupportedMinimum (minVersion : Option String) : Option String :=
  (minVersion.map trimText).filter fun minVer => minVer ≠ "" && !clientSupports minVer

/-- `negotiateVersion`. -/
def negotiateVersion (advertisement : ServerVersionAdvertisement) : NegotiationResult :=
  match normaliseVersionList advertisement.version with
  | [] => .unknown "Server version advertisement is empty or could not be parsed."
  | highestServer :: others =>
    match unsupportedMinimum advertisement.minVersion with
    | some minVer =>
      .upgradeRequired minVer (buildUpgradeMessage minVer advertisement.serverMessage)
    | none =>
      match supportedApiVersions.find? fun v => (highestServer :: others).contains v with
      | some clientVer => .compatible clientVer (clientVer ≠ preferredApiVersion)
      | none =>
        .upgradeRequired highestServer
          (buildUpgradeMessage highestServer advertisement.serverMessage)

/-- `negotiateFromHeader`; an absent header is none. -/
def negotiateFromHeader (headerValue : Option String) : NegotiationResult :=
  let header := headerValue.getD ""
  if trimText header = "" then
    .unknown ("No " ++ apiVersionResponseHeader ++ " header present in the server response.")
  else
    let versions := ((header.toList.splitOn ',').map fun cs => trimText (String.ofList cs)).filter
      (· ≠ "")
    if versions = [] then
      .unknown "Server version header was present but contained no parseable versions."
    else negotiateVersion ⟨.many versions, none, none⟩

/-! ### Versions as numbers -/

/-- The versions of the client. -/
def clientVersions : List ℕ := [2, 1]

/-- The texts stand for the natural numbers, with blanks around them. -/
def Stand (texts : List String) (numbers : List ℕ) : Prop :=
  texts.map trimText = numbers.map toString

/-- The advertisement is of these versions with this minimum, each in decimal without zeros in
front. -/
structure Advertises (advertisement : ServerVersionAdvertisement) (server : List ℕ)
    (minimum : Option ℕ) : Prop where
  version : Stand advertisement.version.texts server
  minVersion : advertisement.minVersion.map trimText = minimum.map toString

/-- The version is the highest one that both sides support. -/
def HighestCommon (server : List ℕ) (v : ℕ) : Prop :=
  v ∈ clientVersions ∧ v ∈ server ∧ ∀ w ∈ clientVersions, w ∈ server → w ≤ v

/-- The result is `compatible` with the highest common version if it is at least the minimum, and
`upgrade_required` if no common version is. -/
def NegotiatedRight (result : NegotiationResult) (server : List ℕ) (minimum : Option ℕ) : Prop :=
  (∀ v : ℕ, (∃ isDowngraded, result = .compatible (toString v) isDowngraded) ↔
      HighestCommon server v ∧ ∀ m ∈ minimum, m ≤ v) ∧
    ((∃ version message, result = .upgradeRequired version message) ↔
      ¬ ∃ v ∈ clientVersions, v ∈ server ∧ ∀ m ∈ minimum, m ≤ v)

/-! ### What is negotiated -/

theorem toString_nat_injective : Function.Injective (toString : ℕ → String) :=
  fun _ _ h => Int.ofNat.inj (toString_int_injective h)

theorem toString_nat_ne_empty (n : ℕ) : toString n ≠ "" := by
  intro h
  have hnil : (toString n).toList = [] := by rw [h]; rfl
  rw [show (toString n).toList = Nat.toDigits 10 n from Nat.toList_repr] at hnil
  exact Nat.toDigits_ne_nil hnil

theorem trimText_toString (n : ℕ) : trimText (toString n) = toString n := by
  have htext : (toString n).toList = Nat.toDigits 10 n := Nat.toList_repr
  rw [trimText, trim_eq_self, String.ofList_toList]
  rw [htext]
  exact fun c hc => isTrimmed_of_isDigit
    (Nat.isDigit_of_mem_toDigits (b := 10) (n := n) (by decide) (by decide) hc)

theorem toString_mem_supportedApiVersions {n : ℕ} :
    toString n ∈ supportedApiVersions ↔ n ∈ clientVersions := by
  have hversions : supportedApiVersions = clientVersions.map toString := rfl
  rw [hversions, List.mem_map_of_injective toString_nat_injective]

variable {advertisement : ServerVersionAdvertisement} {version : VersionField} {server : List ℕ}
  {minimum : Option ℕ} {m n : ℕ}

/-- The versions of the server. -/
theorem mem_normaliseVersionList (h : Stand version.texts server) {v : String} :
    v ∈ normaliseVersionList version ↔ ∃ n ∈ server, toString n = v := by
  have hfirst : ∀ l : List String, v ∈ firstSeen id [] l ↔ v ∈ l := by
    refine fun l => ⟨fun hv => firstSeen_sublist.subset hv, fun hv => ?_⟩
    obtain ⟨w, hw, rfl⟩ := exists_mem_firstSeen_nil id hv
    exact hw
  rw [normaliseVersionList, hfirst, List.mem_filter, h, List.mem_map]
  constructor
  · exact fun hv => hv.1
  · rintro ⟨n, hn, rfl⟩
    exact ⟨⟨n, hn, rfl⟩, decide_eq_true (toString_nat_ne_empty n)⟩

theorem contains_normaliseVersionList (h : Stand version.texts server) :
    (normaliseVersionList version).contains (toString n) = decide (n ∈ server) := by
  rw [List.contains_eq_mem]
  refine decide_eq_decide.2 ((mem_normaliseVersionList h).trans ?_)
  constructor
  · rintro ⟨k, hk, heq⟩
    exact toString_nat_injective heq ▸ hk
  · exact fun hn => ⟨n, hn, rfl⟩

/-- The minimum is compared with the versions of the client only. -/
theorem unsupportedMinimum_eq (h : Advertises advertisement server minimum) :
    unsupportedMinimum advertisement.minVersion =
      (minimum.filter fun m => m ∉ clientVersions).map toString := by
  rw [unsupportedMinimum, h.minVersion]
  cases minimum with
  | none => rfl
  | some m =>
    have hne := toString_nat_ne_empty m
    have hclient : clientSupports (toString m) = decide (m ∈ clientVersions) := by
      rw [clientSupports, List.contains_eq_mem]
      exact decide_eq_decide.2 toString_mem_supportedApiVersions
    rw [Option.map_some, Option.filter_some, Option.filter_some, decide_eq_true hne,
      Bool.true_and, hclient, ← decide_not]
    split_ifs <;> rfl

theorem normaliseVersionList_ne_nil (h : Stand version.texts server) (hserver : server ≠ []) :
    ∃ highest others, normaliseVersionList version = highest :: others := by
  obtain ⟨n, hn⟩ := List.exists_mem_of_ne_nil server hserver
  exact List.exists_cons_of_ne_nil
    (List.ne_nil_of_mem ((mem_normaliseVersionList h).2 ⟨n, hn, rfl⟩))

/-- With a minimum that is no version of the client, an upgrade is demanded. -/
theorem negotiateVersion_of_notMem (h : Advertises advertisement server (some m))
    (hserver : server ≠ []) (hm : m ∉ clientVersions) :
    ∃ version message, negotiateVersion advertisement = .upgradeRequired version message := by
  obtain ⟨highest, others, hlist⟩ := normaliseVersionList_ne_nil h.version hserver
  have hmin : unsupportedMinimum advertisement.minVersion = some (toString m) := by
    rw [unsupportedMinimum_eq h, Option.filter_some, if_pos (by simpa using hm)]
    rfl
  rw [negotiateVersion, hlist]
  simp only [hmin]
  exact ⟨_, _, rfl⟩

/-- Otherwise the first version of the client is taken that the server has. -/
theorem negotiateVersion_of_mem (h : Advertises advertisement server minimum)
    (hserver : server ≠ []) (hm : ∀ m ∈ minimum, m ∈ clientVersions) :
    (2 ∈ server ∧ negotiateVersion advertisement = .compatible "2" false) ∨
      (2 ∉ server ∧ 1 ∈ server ∧ negotiateVersion advertisement = .compatible "1" true) ∨
      (2 ∉ server ∧ 1 ∉ server ∧ ∃ version message,
        negotiateVersion advertisement = .upgradeRequired version message) := by
  obtain ⟨highest, others, hlist⟩ := normaliseVersionList_ne_nil h.version hserver
  have hmin : unsupportedMinimum advertisement.minVersion = none := by
    rw [unsupportedMinimum_eq h]
    cases minimum with
    | none => rfl
    | some m => rw [Option.filter_some, if_neg (by simpa using hm m rfl), Option.map_none]
  have htwo : (highest :: others).contains "2" = decide (2 ∈ server) := by
    rw [← hlist]
    exact contains_normaliseVersionList (n := 2) h.version
  have hone : (highest :: others).contains "1" = decide (1 ∈ server) := by
    rw [← hlist]
    exact contains_normaliseVersionList (n := 1) h.version
  rw [negotiateVersion, hlist]
  simp only [hmin, supportedApiVersions, List.find?_cons, htwo, hone, List.find?_nil]
  by_cases h2 : 2 ∈ server
  · exact .inl ⟨h2, by simp [h2, preferredApiVersion]⟩
  · by_cases h1 : 1 ∈ server
    · exact .inr (.inl ⟨h2, h1, by simp [h2, h1, preferredApiVersion]⟩)
    · exact .inr (.inr ⟨h2, h1, _, _, by simp [h2, h1]; exact ⟨rfl, rfl⟩⟩)

/-! ### When the negotiation is right -/

theorem negotiatedRight_upgradeRequired {text message : String} :
    NegotiatedRight (.upgradeRequired text message) server minimum ↔
      ¬ ∃ v ∈ clientVersions, v ∈ server ∧ ∀ m ∈ minimum, m ≤ v := by
  constructor
  · exact fun h => h.2.1 ⟨_, _, rfl⟩
  · refine fun hnone => ⟨fun v => ?_, fun _ => hnone, fun _ => ⟨_, _, rfl⟩⟩
    constructor
    · rintro ⟨_, heq⟩
      cases heq
    · exact fun ⟨⟨hv, hserver, _⟩, hmin⟩ => absurd ⟨v, hv, hserver, hmin⟩ hnone

theorem negotiatedRight_compatible {v : ℕ} {isDowngraded : Bool} (hv : HighestCommon server v) :
    NegotiatedRight (.compatible (toString v) isDowngraded) server minimum ↔
      ∀ m ∈ minimum, m ≤ v := by
  constructor
  · exact fun h => ((h.1 v).1 ⟨_, rfl⟩).2
  · refine fun hmin => ⟨fun w => ?_, ?_⟩
    · constructor
      · rintro ⟨_, heq⟩
        obtain rfl := toString_nat_injective (NegotiationResult.compatible.inj heq).1
        exact ⟨hv, hmin⟩
      · rintro ⟨hw, -⟩
        obtain rfl := Nat.le_antisymm (hw.2.2 v hv.1 hv.2.1) (hv.2.2 w hw.1 hw.2.1)
        exact ⟨_, rfl⟩
    · constructor
      · rintro ⟨_, _, heq⟩
        cases heq
      · exact fun hnone => absurd ⟨v, hv.1, hv.2.1, hmin⟩ hnone

theorem highestCommon_two (h : 2 ∈ server) : HighestCommon server 2 :=
  ⟨by decide, h, by simp [clientVersions]⟩

theorem highestCommon_one (h2 : 2 ∉ server) (h1 : 1 ∈ server) : HighestCommon server 1 :=
  ⟨by decide, h1, by simp [clientVersions, h2]⟩

/-- **One advertisement.** -/
theorem negotiatedRight_iff (h : Advertises advertisement server minimum) (hserver : server ≠ []) :
    NegotiatedRight (negotiateVersion advertisement) server minimum ↔
      ¬ (minimum = some 0 ∧ (1 ∈ server ∨ 2 ∈ server)) ∧
        ¬ (minimum = some 2 ∧ 2 ∉ server ∧ 1 ∈ server) := by
  by_cases hm : ∀ m ∈ minimum, m ∈ clientVersions
  · rcases negotiateVersion_of_mem h hserver hm with
      ⟨h2, heq⟩ | ⟨h2, h1, heq⟩ | ⟨h2, h1, text, message, heq⟩
    · rw [heq, show "2" = toString 2 by decide, negotiatedRight_compatible (highestCommon_two h2)]
      cases minimum with
      | none => simp
      | some m =>
        have hclient : m ∈ clientVersions := hm m rfl
        simp only [clientVersions, List.mem_cons, List.not_mem_nil, or_false] at hclient
        simp [h2]
        omega
    · rw [heq, show "1" = toString 1 by decide,
        negotiatedRight_compatible (highestCommon_one h2 h1)]
      cases minimum with
      | none => simp
      | some m =>
        have hclient : m ∈ clientVersions := hm m rfl
        simp only [clientVersions, List.mem_cons, List.not_mem_nil, or_false] at hclient
        simp [h2, h1]
        omega
    · rw [heq, negotiatedRight_upgradeRequired]
      simp [clientVersions, h2, h1]
  · obtain ⟨m, hmin, hclient⟩ : ∃ m ∈ minimum, m ∉ clientVersions := by simpa using hm
    obtain rfl : minimum = some m := hmin
    obtain ⟨text, message, heq⟩ := negotiateVersion_of_notMem h hserver hclient
    rw [heq, negotiatedRight_upgradeRequired]
    simp only [clientVersions, List.mem_cons, List.not_mem_nil, or_false, not_or] at hclient
    simp only [clientVersions, List.mem_cons, List.not_mem_nil, or_false, exists_eq_or_imp,
      exists_eq_left, Option.mem_def, Option.some.injEq, forall_eq', hclient.1, false_and,
      not_false_eq_true, and_true]
    have hlow : m = 0 ∨ 2 < m := by omega
    rcases hlow with rfl | hlow
    · simp [or_comm]
    · have hne : ¬ (m ≤ 2) ∧ ¬ (m ≤ 1) ∧ m ≠ 0 := by omega
      simp [hne.1, hne.2.1, hne.2.2]

/-! ### The header -/

variable {texts : List String}

theorem mem_of_mem_trim {cs : List Char} {c : Char} (h : c ∈ trim cs) : c ∈ cs :=
  (List.dropWhile_suffix _).subset
    (List.mem_reverse.1 ((List.dropWhile_suffix _).subset (List.mem_reverse.1 h)))

theorem mem_intercalate_of_mem {sep l : List Char} {ls : List (List Char)} {c : Char} (hl : l ∈ ls)
    (hc : c ∈ l) : c ∈ sep.intercalate ls := by
  induction ls with
  | nil => cases hl
  | cons l' ls ih =>
    rcases List.mem_cons.1 hl with rfl | hl
    · cases ls with
      | nil => rwa [List.intercalate_singleton]
      | cons l' ls =>
        rw [List.intercalate_cons_cons, List.append_assoc]
        exact List.mem_append_left _ hc
    · rw [List.intercalate_cons_of_ne_nil (List.ne_nil_of_mem hl)]
      exact List.mem_append_right _ (ih hl)

/-- A version in the list is a digit in the text. -/
theorem exists_digit_mem (h : Stand texts server) (hserver : server ≠ []) :
    ∃ text ∈ texts, ∃ c ∈ text.toList, isTrimmed c = false := by
  obtain ⟨n, hn⟩ := List.exists_mem_of_ne_nil server hserver
  have hmem : toString n ∈ texts.map trimText := h ▸ List.mem_map_of_mem hn
  obtain ⟨text, htext, heq⟩ := List.mem_map.1 hmem
  have htrim : trim text.toList = Nat.toDigits 10 n := by
    rw [← Nat.toList_repr, show n.repr = toString n from rfl, ← heq, trimText, String.toList_ofList]
  obtain ⟨c, hc⟩ := List.exists_mem_of_ne_nil _ (Nat.toDigits_ne_nil (n := n) (b := 10))
  refine ⟨text, htext, c, mem_of_mem_trim (htrim ▸ hc), isTrimmed_of_isDigit ?_⟩
  exact Nat.isDigit_of_mem_toDigits (b := 10) (n := n) (by decide) (by decide) hc

/-- No version has a comma, which is no blank and no digit. -/
theorem comma_notMem (h : Stand texts server) {text : String} (htext : text ∈ texts) :
    ',' ∉ text.toList := by
  intro hcomma
  have hmem : trimText text ∈ server.map toString := h ▸ List.mem_map_of_mem htext
  obtain ⟨n, -, heq⟩ := List.mem_map.1 hmem
  have htrim : Nat.toDigits 10 n = trim text.toList := by
    rw [← Nat.toList_repr, show n.repr = toString n from rfl, heq, trimText, String.toList_ofList]
  have hdigit : ',' ∈ Nat.toDigits 10 n := htrim ▸ mem_trim hcomma (by decide)
  exact absurd (Nat.isDigit_of_mem_toDigits (by decide) (by decide) hdigit) (by decide)

theorem splitOn_intercalate_comma (h : Stand texts server) (hserver : server ≠ []) :
    (",".intercalate texts).toList.splitOn ',' = texts.map String.toList := by
  have hne : texts.map String.toList ≠ [] := by
    intro hnil
    have htexts : texts = [] := List.map_eq_nil_iff.1 hnil
    rw [Stand, htexts, List.map_nil] at h
    exact hserver (List.map_eq_nil_iff.1 h.symm)
  rw [String.toList_intercalate]
  refine List.splitOn_intercalate ',' (fun cs hcs => ?_) hne
  obtain ⟨text, htext, rfl⟩ := List.mem_map.1 hcs
  exact comma_notMem h htext

/-- The header is read as the list. -/
theorem negotiateFromHeader_intercalate (h : Stand texts server) (hserver : server ≠ []) :
    negotiateFromHeader (some (",".intercalate texts)) =
      negotiateVersion ⟨.many texts, none, none⟩ := by
  have hheader : trimText (",".intercalate texts) ≠ "" := by
    obtain ⟨text, htext, c, hc, hblank⟩ := exists_digit_mem h hserver
    intro hempty
    have hmem : c ∈ (",".intercalate texts).toList := by
      rw [String.toList_intercalate]
      exact mem_intercalate_of_mem (List.mem_map_of_mem htext) hc
    have hnil : trim (",".intercalate texts).toList = [] := by
      rw [← String.toList_ofList (l := trim _), ← trimText, hempty]
      rfl
    exact List.not_mem_nil (hnil ▸ mem_trim hmem hblank)
  have hversions : (((",".intercalate texts).toList.splitOn ',').map fun cs =>
      trimText (String.ofList cs)).filter (· ≠ "") = server.map toString := by
    rw [splitOn_intercalate_comma h hserver, List.map_map,
      show (fun cs => trimText (String.ofList cs)) ∘ String.toList = trimText from
        funext fun text => congrArg trimText String.ofList_toList, h, List.filter_eq_self]
    intro v hv
    obtain ⟨n, -, rfl⟩ := List.mem_map.1 hv
    exact decide_eq_true (toString_nat_ne_empty n)
  have hlist : normaliseVersionList (.many (server.map toString)) =
      normaliseVersionList (.many texts) := by
    have htrim : trimText ∘ (toString : ℕ → String) = toString := funext trimText_toString
    rw [normaliseVersionList, normaliseVersionList]
    simp only [VersionField.texts]
    rw [List.map_map, htrim, h]
  rw [negotiateFromHeader, Option.getD_some, if_neg hheader]
  simp only [hversions]
  rw [if_neg (by simpa using hserver), negotiateVersion, negotiateVersion, hlist]

/-! ### The negotiation as a whole -/

/-- **The negotiation.** With versions that are natural numbers, with blanks around them, the
negotiation is right unless the minimum is 0 and there is a common version, or the minimum is 2
and the server has 1 but not 2. The header is read as the list. -/
theorem negotiation_iff (advertisement : ServerVersionAdvertisement) (server : List ℕ)
    (minimum : Option ℕ) (h : Advertises advertisement server minimum) (hserver : server ≠ []) :
    (NegotiatedRight (negotiateVersion advertisement) server minimum ↔
      ¬ (minimum = some 0 ∧ (1 ∈ server ∨ 2 ∈ server)) ∧
        ¬ (minimum = some 2 ∧ 2 ∉ server ∧ 1 ∈ server)) ∧
      negotiateFromHeader (some (",".intercalate advertisement.version.texts)) =
        negotiateVersion ⟨.many advertisement.version.texts, none, none⟩ :=
  ⟨negotiatedRight_iff h hserver, negotiateFromHeader_intercalate h.version hserver⟩

/-- The server of the version 1 that demands at least 2. -/
def firstOfTwo : ServerVersionAdvertisement := ⟨.many ["1"], some "2", none⟩

theorem advertises_firstOfTwo : Advertises firstOfTwo [1] (some 2) :=
  ⟨(by decide : ["1"].map trimText = [1].map toString), by decide⟩

theorem negotiation_iff_sample :
    NegotiatedRight (negotiateVersion ⟨.many [" 2", "1"], some "1", none⟩) [2, 1] (some 1) ∧
      negotiateFromHeader (some " 2,1") = .compatible "2" false :=
  have h := negotiation_iff ⟨.many [" 2", "1"], some "1", none⟩ [2, 1] (some 1)
    ⟨(by decide : [" 2", "1"].map trimText = [2, 1].map toString), by decide⟩ (by decide)
  ⟨h.1.2 ⟨by decide, by decide⟩, h.2.trans (by decide)⟩

/-- A server of the version 1 that demands at least 2 is taken for compatible. -/
theorem not_negotiatedRight_sample :
    Advertises firstOfTwo [1] (some 2) ∧
      negotiateVersion firstOfTwo = .compatible "1" true ∧
      ¬ NegotiatedRight (negotiateVersion firstOfTwo) [1] (some 2) := by
  have heq : negotiateVersion firstOfTwo = .compatible (toString 1) true := by decide
  refine ⟨advertises_firstOfTwo, heq, fun h => ?_⟩
  have hle := ((h.1 1).1 ⟨true, heq⟩).2 2 rfl
  exact absurd hle (by decide)

end SorobanPay.ApiVersion
