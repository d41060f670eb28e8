import SorobanPay.Contract.Spec
import SorobanPay.Foundation.Doubles
import SorobanPay.Frontend.BatchSubmission

/-!
# The subscription form and the invocation that it submits

`validateSubscriptionForm` of `lib/validation.ts` checks the texts of the form,
`confirmAndSubmit` of `SubscriptionForm.tsx` converts those of the amount and of the interval with
`Number`, and `buildSignAndSubmitSubscribe` of `lib/transaction_builder.ts` converts the numbers
with `BigInt`. A number has 53 significant bits, and the form accepts amounts with more. The form
also does not give its own key to `validateSubscriptionForm`, which then accepts it as the merchant.

`StrKey` is what the frontend relies on in the Stellar SDK. `Number` is only taken of texts of
integers, as the form accepts no others.

## Main definitions

* `StrKey`: the keys of the SDK.
* `validateSubscriptionForm`, `isFormValid`: the validation.
* `buildSignAndSubmitSubscribe`, `confirmAndSubmit`: what is submitted.
* `subscribeChecks`: the checks of the arguments of `subscribe`.
* `Delivers`: the invocation has what is typed, and its arguments pass.

## Main results

* `accepted_of_isFormValid`: what the form accepts.
* `delivers_iff`: what the form accepts is delivered for amounts that are numbers, to others.
-/

set_option autoImplicit false

namespace SorobanPay.Frontend

open Foundation WebhookNotifier

/-! ### Keys -/

/-- `normalizeAddress`. -/
def normalizeAddress (addr : String) : String := String.ofList (trim addr.toList)

/-- A text with the form of a key: a first character, and 55 letters and digits in base 32. -/
def IsStrKey (first : Char) (text : String) : Prop :=
  ∃ cs : List Char, text.toList = first :: cs ∧ cs.length = 55 ∧
    (cs.all fun c => ('A' ≤ c && c ≤ 'Z') || ('2' ≤ c && c ≤ '7')) = true

/-- What the frontend relies on in the keys of the SDK: a valid key has its form, `new Address`
takes it, and no two keys have the same address. -/
structure StrKey (Address : Type) where
  isValidEd25519PublicKey : String → Bool
  isValidContract : String → Bool
  newAddress : String → Option Address
  isStrKey_account : ∀ text, isValidEd25519PublicKey text = true → IsStrKey 'G' text
  isStrKey_contract : ∀ text, isValidContract text = true → IsStrKey 'C' text
  isSome_newAddress : ∀ text,
    isValidEd25519PublicKey text = true ∨ isValidContract text = true → (newAddress text).isSome
  newAddress_injective : ∀ text text' a,
    newAddress text = some a → newAddress text' = some a → text = text'

theorem isTrimmed_of_base32 {c : Char}
    (h : (('A' ≤ c && c ≤ 'Z') || ('2' ≤ c && c ≤ '7')) = true) : isTrimmed c = false := by
  simp only [Bool.or_eq_true, Bool.and_eq_true, decide_eq_true_eq, Char.le_def,
    UInt32.le_iff_toNat_le] at h
  have hrange : 50 ≤ c.toNat ∧ c.toNat ≤ 90 := by
    rcases h with ⟨hlow, hhigh⟩ | ⟨hlow, hhigh⟩
    · exact ⟨Nat.le_trans (by decide) hlow, hhigh⟩
    · exact ⟨hlow, Nat.le_trans hhigh (by decide)⟩
  simp [isTrimmed]
  omega

theorem IsStrKey.trim_eq {first : Char} {text : String} (h : IsStrKey first text)
    (hfirst : isTrimmed first = false) : trim text.toList = text.toList := by
  obtain ⟨cs, htext, -, hall⟩ := h
  refine trim_eq_self fun c hc => ?_
  rw [htext] at hc
  rcases List.mem_cons.1 hc with rfl | hc
  · exact hfirst
  · exact isTrimmed_of_base32 (List.all_eq_true.1 hall c hc)

theorem IsStrKey.isValidAddress {first : Char} {text : String} (h : IsStrKey first text)
    (hfirst : isTrimmed first = false) : isValidAddress first text = true := by
  have htrim := h.trim_eq hfirst
  obtain ⟨cs, htext, hlength, hall⟩ := h
  rw [Frontend.isValidAddress, htrim, htext]
  simp only [hlength, decide_true, hall, Bool.and_self]

theorem assertValidGAddress_of_isStrKey {addr : String} (h : IsStrKey 'G' addr) (label : String) :
    assertValidGAddress addr label = .ok addr := by
  have hvalid := h.isValidAddress (by decide)
  rw [assertValidGAddress, h.trim_eq (by decide), String.ofList_toList]
  exact if_pos hvalid

theorem assertValidCAddress_of_isStrKey {addr : String} (h : IsStrKey 'C' addr) (label : String) :
    assertValidCAddress addr label = .ok addr := by
  have hvalid := h.isValidAddress (by decide)
  rw [assertValidCAddress, h.trim_eq (by decide), String.ofList_toList]
  exact if_pos hvalid

theorem normalizeAddress_normalizeAddress (addr : String) :
    normalizeAddress (normalizeAddress addr) = normalizeAddress addr := by
  rw [normalizeAddress, normalizeAddress, String.toList_ofList, trim_trim]

theorem bigIntOfText_normalizeAddress (text : String) :
    bigIntOfText (normalizeAddress text) = bigIntOfText text := by
  rw [bigIntOfText, normalizeAddress, String.toList_ofList, trim_trim, bigIntOfText]

/-! ### The form -/

/-- `MIN_INTERVAL_SECONDS`. -/
def minIntervalSeconds : ℤ := 86400

/-- `MAX_INTERVAL_SECONDS`. -/
def maxIntervalSeconds : ℤ := 31536000

/-- `MAX_AMOUNT` of the form. -/
def formMaxAmount : ℤ := 1000000000000000000

/-- `SubscriptionFormValues`. -/
structure SubscriptionFormValues where
  merchantAddress : String
  tokenAddress : String
  amount : String
  interval : String
  subscriberAddress : Option String
  deriving DecidableEq, Repr

/-- `FieldErrors`. -/
structure FieldErrors where
  merchantAddress : Option String
  tokenAddress : Option String
  amount : Option String
  interval : Option String
  deriving DecidableEq, Repr

/-- The texts `/^-?\d+$/`. -/
def isIntegerText (text : String) : Bool :=
  match text.toList with
  | '-' :: cs | cs => cs ≠ [] && cs.all Char.isDigit

/-- `Number` of the text of an integer. -/
def numberOfText (text : String) : Option Double := (bigIntOfText text).map .ofInt

/-- The message of the first check that does not pass. -/
def firstFailing (checks : List (Bool × String)) : Option String :=
  (checks.find? fun check => !check.1).map Prod.snd

/-- The checks of an address. -/
def addressError (emptyMessage message : String) (isValid : String → Bool) (addr : String) :
    Option String :=
  firstFailing [(addr ≠ "", emptyMessage), (isValid (normalizeAddress addr), message)]

/-- The checks of the amount. -/
def amountError (value : String) : Option String :=
  firstFailing
    [(value ≠ "", "Amount is required."),
      (isIntegerText value, "Amount must be a whole number."),
      (!isIntegerText value || (bigIntOfText value).any (0 < ·), "Amount must be greater than 0"),
      (!isIntegerText value || (bigIntOfText value).any (· ≤ formMaxAmount),
        "Amount exceeds maximum allowed value")]

/-- The checks of the interval. -/
def intervalError (value : String) : Option String :=
  firstFailing
    [(value ≠ "", "Interval is required."),
      (isIntegerText value, "Interval must be a whole number of seconds."),
      (!isIntegerText value || (numberOfText value).any (·.atLeast minIntervalSeconds),
        "Interval must be at least 1 day (86400 seconds)"),
      (!isIntegerText value || (numberOfText value).any (·.atMost maxIntervalSeconds),
        "Interval must not exceed 31536000 seconds")]

/-- The check of all the values: the merchant is not the subscriber, if that one is given. -/
def selfSubscriptionError (merchantAddress : String) (subscriberAddress : Option String) :
    Option String :=
  if subscriberAddress.any fun addr => addr ≠ "" && merchantAddress = normalizeAddress addr then
    some ("Merchant address cannot be the same as your subscriber address. " ++
      "A subscription to yourself is not allowed.")
  else none

section Validation

variable {Address : Type} (sk : StrKey Address)

/-- `validateSubscriptionForm`. -/
def validateSubscriptionForm (values : SubscriptionFormValues) : FieldErrors :=
  let merchantAddress := normalizeAddress values.merchantAddress
  { merchantAddress :=
      (addressError "Merchant address is required."
        "Enter a valid Stellar address (starts with G)" sk.isValidEd25519PublicKey
        merchantAddress).or (selfSubscriptionError merchantAddress values.subscriberAddress)
    tokenAddress :=
      addressError "Token contract address is required."
        "Enter a valid Stellar contract address (starts with C)" sk.isValidContract
        (normalizeAddress values.tokenAddress)
    amount := amountError (normalizeAddress values.amount)
    interval := intervalError (normalizeAddress values.interval) }

/-- `isFormValid`. -/
def isFormValid (errors : FieldErrors) : Bool :=
  errors.merchantAddress.isNone && errors.tokenAddress.isNone && errors.amount.isNone &&
    errors.interval.isNone

theorem firstFailing_eq_none_iff {checks : List (Bool × String)} :
    firstFailing checks = none ↔ ∀ check ∈ checks, check.1 = true := by
  simp [firstFailing]

theorem isValid_of_addressError {emptyMessage message : String} {isValid : String → Bool}
    {addr : String} (h : addressError emptyMessage message isValid addr = none) :
    isValid (normalizeAddress addr) = true :=
  firstFailing_eq_none_iff.1 h (_, message) (by simp)

theorem exists_of_amountError {value : String} (h : amountError value = none) :
    ∃ n, bigIntOfText value = some n ∧ 0 < n ∧ n ≤ formMaxAmount := by
  have hchecks := firstFailing_eq_none_iff.1 h
  simp only [List.forall_mem_cons, Bool.or_eq_true, Bool.not_eq_true', Option.any_eq_true,
    decide_eq_true_eq] at hchecks
  obtain ⟨-, hinteger, hpos, hle, -⟩ := hchecks
  rw [hinteger] at hpos hle
  obtain ⟨n, hn, hpos⟩ := hpos.resolve_left Bool.noConfusion
  obtain ⟨n', hn', hle⟩ := hle.resolve_left Bool.noConfusion
  obtain rfl := Option.some.inj (hn.symm.trans hn')
  exact ⟨n, hn, hpos, hle⟩

theorem exists_of_intervalError {value : String} (h : intervalError value = none) :
    ∃ n, bigIntOfText value = some n ∧ minIntervalSeconds ≤ n ∧ n ≤ maxIntervalSeconds := by
  have hchecks := firstFailing_eq_none_iff.1 h
  simp only [List.forall_mem_cons, Bool.or_eq_true, Bool.not_eq_true', Option.any_eq_true,
    numberOfText, Option.map_eq_some_iff] at hchecks
  obtain ⟨-, hinteger, hmin, hmax, -⟩ := hchecks
  rw [hinteger] at hmin hmax
  obtain ⟨_, ⟨n, hn, rfl⟩, hmin⟩ := hmin.resolve_left Bool.noConfusion
  obtain ⟨_, ⟨n', hn', rfl⟩, hmax⟩ := hmax.resolve_left Bool.noConfusion
  obtain rfl := Option.some.inj (hn.symm.trans hn')
  rw [Double.atLeast_ofInt (by decide), decide_eq_true_eq] at hmin
  rw [Double.atMost_ofInt (by decide), decide_eq_true_eq] at hmax
  exact ⟨n, hn, hmin, hmax⟩

/-- What the form accepts: valid keys, and integers in their ranges. -/
structure Accepted (values : SubscriptionFormValues) (amount interval : ℤ) : Prop where
  merchant : sk.isValidEd25519PublicKey (normalizeAddress values.merchantAddress) = true
  token : sk.isValidContract (normalizeAddress values.tokenAddress) = true
  amount_typed : bigIntOfText values.amount = some amount
  amount_pos : 0 < amount
  amount_le : amount ≤ formMaxAmount
  interval_typed : bigIntOfText values.interval = some interval
  le_interval : minIntervalSeconds ≤ interval
  interval_le : interval ≤ maxIntervalSeconds
  ne_subscriber : ∀ addr, values.subscriberAddress = some addr → addr ≠ "" →
    normalizeAddress values.merchantAddress ≠ normalizeAddress addr

variable {sk}

theorem accepted_of_isFormValid {values : SubscriptionFormValues}
    (h : isFormValid (validateSubscriptionForm sk values) = true) :
    ∃ amount interval, Accepted sk values amount interval := by
  simp only [isFormValid, validateSubscriptionForm, Bool.and_eq_true, Option.isNone_iff_eq_none,
    Option.or_eq_none_iff] at h
  obtain ⟨⟨⟨⟨hmerchant, hself⟩, htoken⟩, hamount⟩, hinterval⟩ := h
  obtain ⟨amount, hamount, hpos, hle⟩ := exists_of_amountError hamount
  obtain ⟨interval, hinterval, hmin, hmax⟩ := exists_of_intervalError hinterval
  have hmerchant := isValid_of_addressError hmerchant
  have htoken := isValid_of_addressError htoken
  rw [normalizeAddress_normalizeAddress] at hmerchant htoken
  rw [bigIntOfText_normalizeAddress] at hamount hinterval
  refine ⟨amount, interval, hmerchant, htoken, hamount, hpos, hle, hinterval, hmin, hmax, ?_⟩
  intro addr haddr hne heq
  rw [selfSubscriptionError, haddr, Option.any_some, if_pos (by simp [hne, heq])] at hself
  cases hself

end Validation

/-! ### The invocation -/

/-- `SubscribeParams`, with the numbers that texts of integers become. -/
structure SubscribeParams where
  subscriber : String
  merchant : String
  token : String
  amount : Option Double
  interval : Option Double
  deriving DecidableEq, Repr

/-- The arguments of the call of `subscribe` in the transaction. -/
structure SubscribeInvocation (Address : Type) where
  subscriber : Address
  merchant : Address
  token : Address
  amount : ℤ
  interval : ℕ
  deriving DecidableEq, Repr

/-- What is thrown: an error of the function itself, or one of the language or of the SDK. -/
inductive Thrown
  | message (text : String)
  | other
  deriving DecidableEq, Repr

/-- `BigInt` of a number. -/
def bigIntOfNumber (n : Option Double) : Except Thrown ℤ :=
  match n.bind Double.toInt with
  | some n => .ok n
  | none => .error .other

/-- `nativeToScVal` with the type `i128`. -/
def nativeToI128 (n : ℤ) : Except Thrown ℤ :=
  if -2 ^ 127 ≤ n ∧ n < 2 ^ 127 then .ok n else .error .other

/-- `nativeToScVal` with the type `u64`. -/
def nativeToU64 (n : ℤ) : Except Thrown ℕ :=
  if 0 ≤ n ∧ n < 2 ^ 64 then .ok n.toNat else .error .other

section Submission

variable {Address : Type} (sk : StrKey Address)

/-- `new Address`. -/
def StrKey.address (addr : String) : Except Thrown Address :=
  match sk.newAddress addr with
  | some a => .ok a
  | none => .error .other

/-- The call in the transaction of `buildSignAndSubmitSubscribe`, where the account is found. -/
def buildSignAndSubmitSubscribe (params : SubscribeParams) :
    Except Thrown (SubscribeInvocation Address) := do
  let subscriber ← (assertValidGAddress params.subscriber "subscriber").mapError .message
  let merchant ← (assertValidGAddress params.merchant "merchant").mapError .message
  let token ← (assertValidCAddress params.token "token").mapError .message
  let subscriber ← sk.address subscriber
  let merchant ← sk.address merchant
  let token ← sk.address token
  let amount ← bigIntOfNumber params.amount
  let amount ← nativeToI128 amount
  let interval ← bigIntOfNumber params.interval
  let interval ← nativeToU64 interval
  return { subscriber, merchant, token, amount, interval }

/-- `confirmAndSubmit`, for the key of the wallet. -/
def confirmAndSubmit (publicKey : String) (values : SubscriptionFormValues) :
    Except Thrown (SubscribeInvocation Address) :=
  buildSignAndSubmitSubscribe sk
    { subscriber := publicKey
      merchant := normalizeAddress values.merchantAddress
      token := normalizeAddress values.tokenAddress
      amount := numberOfText values.amount
      interval := numberOfText values.interval }

variable {sk}

theorem bigIntOfNumber_eq_ok_iff {number : Option Double} {n : ℤ} :
    bigIntOfNumber number = .ok n ↔ number.bind Double.toInt = some n := by
  unfold bigIntOfNumber
  rcases number.bind Double.toInt with _ | n' <;> simp

theorem nativeToI128_eq_ok_iff {n n' : ℤ} : nativeToI128 n = .ok n' ↔ IsI128 n ∧ n = n' := by
  rw [nativeToI128, IsI128]
  by_cases h : -2 ^ 127 ≤ n ∧ n < 2 ^ 127
  · rw [if_pos h, Except.ok.injEq, and_iff_right h]
  · rw [if_neg h]
    exact iff_of_false nofun fun hn => h hn.1

theorem nativeToU64_eq_ok_iff {n : ℤ} {n' : ℕ} :
    nativeToU64 n = .ok n' ↔ n < 2 ^ 64 ∧ n = n' := by
  rw [nativeToU64]
  by_cases h : 0 ≤ n ∧ n < 2 ^ 64
  · rw [if_pos h, Except.ok.injEq]
    omega
  · rw [if_neg h]
    exact iff_of_false nofun (by omega)

theorem bind_eq_ok_iff {α β : Type} {x : Except Thrown α} {f : α → Except Thrown β} {b : β} :
    (x >>= f) = .ok b ↔ ∃ a, x = .ok a ∧ f a = .ok b := by
  cases x with
  | error e => exact iff_of_false nofun nofun
  | ok a => exact ⟨fun h => ⟨a, rfl, h⟩, fun ⟨_, ha, h⟩ => Except.ok.inj ha ▸ h⟩

theorem StrKey.address_eq_ok_iff {addr : String} {a : Address} :
    sk.address addr = .ok a ↔ sk.newAddress addr = some a := by
  unfold StrKey.address
  rcases sk.newAddress addr with _ | a' <;> simp

/-- What is submitted for values that the form accepts. -/
theorem confirmAndSubmit_eq_ok_iff {values : SubscriptionFormValues} {publicKey : String}
    {amount interval : ℤ} {inv : SubscribeInvocation Address}
    (hvalues : Accepted sk values amount interval)
    (hkey : sk.isValidEd25519PublicKey publicKey = true) :
    confirmAndSubmit sk publicKey values = .ok inv ↔
      sk.newAddress publicKey = some inv.subscriber ∧
        sk.newAddress (normalizeAddress values.merchantAddress) = some inv.merchant ∧
        sk.newAddress (normalizeAddress values.tokenAddress) = some inv.token ∧
        ((Double.ofInt amount).toInt = some inv.amount ∧ IsI128 inv.amount) ∧
        inv.interval = interval := by
  have hmin := hvalues.le_interval
  have hmax := hvalues.interval_le
  rw [minIntervalSeconds] at hmin
  rw [maxIntervalSeconds] at hmax
  have hinterval : (Double.ofInt interval).toInt = some interval := by
    rw [Double.ofInt_of_lt (by omega), Double.toInt]
  have hsubscriber := assertValidGAddress_of_isStrKey (sk.isStrKey_account _ hkey) "subscriber"
  have hmerchant := assertValidGAddress_of_isStrKey (sk.isStrKey_account _ hvalues.merchant)
    "merchant"
  have htoken := assertValidCAddress_of_isStrKey (sk.isStrKey_contract _ hvalues.token) "token"
  rw [confirmAndSubmit, buildSignAndSubmitSubscribe, hsubscriber, hmerchant, htoken]
  simp only [Except.mapError, bind_eq_ok_iff, Except.ok.injEq, exists_eq_left',
    StrKey.address_eq_ok_iff, bigIntOfNumber_eq_ok_iff, nativeToI128_eq_ok_iff,
    nativeToU64_eq_ok_iff, numberOfText, hvalues.amount_typed, hvalues.interval_typed,
    Option.map_some, Option.bind_some, hinterval, Option.some.injEq]
  constructor
  · rintro ⟨s, hs, m, hm, token, ht, n, hn, n', ⟨hi128, rfl⟩, i, ⟨hi, hi'⟩, hinv⟩
    obtain rfl := Except.ok.inj hinv
    exact ⟨hs, hm, ht, ⟨hn, hi128⟩, hi'.symm⟩
  · rintro ⟨hs, hm, ht, ⟨hn, hi128⟩, hi⟩
    exact ⟨_, hs, _, hm, _, ht, _, hn, _, ⟨hi128, rfl⟩, _, ⟨by omega, hi.symm⟩, rfl⟩

end Submission

/-! ### What the contract is sent -/

section Delivery

variable {Address Hash World Op : Type} [DecidableEq Address]

/-- The checks of its arguments that `subscribe` makes. -/
def subscribeChecks (subscriber merchant : Address) (amount : ℤ) (interval : ℕ) :
    Contract Address Hash World Unit := do
  Tx.failIf (subscriber = merchant) (.error .selfSubscription)
  checkAmount amount
  checkLimit amount
  checkInterval interval

variable {σ σ' : State Address Hash World} {s m : Address} {amount : ℤ} {interval : ℕ}

theorem returns_subscribeChecks {u : Unit} :
    (subscribeChecks s m amount interval).Returns σ u σ' ↔
      s ≠ m ∧ (0 < amount ∧ amount ≤ maxAmount) ∧
        (∀ config, σ.adminConfig = some config → amount ≤ config.maxAmount) ∧
        (minInterval ≤ interval ∧ interval ≤ maxInterval) ∧ σ = σ' := by
  simp [subscribeChecks, and_assoc]

/-- `subscribe` fails where they do. -/
theorem fails_subscribe [DecidableEq Hash] {H : Host Address Hash World Op} {env : Env Address}
    {token : Address} {strict : Bool} {gracePeriod : Option ℕ} {e : Fault}
    (hauth : H.authorizes env s = true) (h : (subscribeChecks s m amount interval).Fails σ e) :
    (subscribe H env s m token amount interval strict gracePeriod).Fails σ e := by
  simp only [subscribeChecks, Tx.fails_bind] at h
  simp only [subscribe, Tx.fails_bind, returns_requireAuth]
  refine .inr ⟨(), σ, ⟨hauth, rfl⟩, ?_⟩
  rcases h with h | ⟨u, t, hself, h⟩
  · exact .inl h
  refine .inr ⟨u, t, hself, ?_⟩
  rcases h with h | ⟨u, t, hamount, h⟩
  · exact .inl h
  refine .inr ⟨u, t, hamount, ?_⟩
  rcases h with h | ⟨u, t, hlimit, h⟩
  · exact .inl h
  · exact .inr ⟨u, t, hlimit, .inl h⟩

variable (sk : StrKey Address)

/-- The amount and the interval that are submitted are those that are typed, and the arguments pass
the checks of the contract in a state. -/
def Delivers (publicKey : String) (values : SubscriptionFormValues)
    (σ : State Address Hash World) : Prop :=
  ∃ inv, confirmAndSubmit sk publicKey values = .ok inv ∧
    bigIntOfText values.amount = some inv.amount ∧
    bigIntOfText values.interval = some (inv.interval : ℤ) ∧
    (subscribeChecks inv.subscriber inv.merchant inv.amount inv.interval).Returns σ () σ

variable {sk} {values : SubscriptionFormValues} {publicKey : String}

theorem representable_of_delivers {amount interval : ℤ}
    (hvalues : Accepted sk values amount interval)
    (hkey : sk.isValidEd25519PublicKey publicKey = true) (h : Delivers sk publicKey values σ) :
    Representable 53 amount.natAbs := by
  obtain ⟨inv, hinv, hamount, -, -⟩ := h
  obtain rfl := Option.some.inj (hvalues.amount_typed.symm.trans hamount)
  obtain ⟨-, -, -, ⟨htoInt, hrange⟩, -⟩ := (confirmAndSubmit_eq_ok_iff hvalues hkey).1 hinv
  have hlt : inv.amount.natAbs < 2 ^ 128 := by
    obtain ⟨hlow, hhigh⟩ := hrange
    omega
  exact (Double.toInt_ofInt_iff (lt_pow_of_lt_pow hlt (by decide))).1 htoInt

/-- The form accepts other keys than that of the wallet, where the contract does. -/
theorem ne_publicKey_of_delivers {amount interval : ℤ}
    (hvalues : Accepted sk values amount interval)
    (hkey : sk.isValidEd25519PublicKey publicKey = true) (h : Delivers sk publicKey values σ) :
    normalizeAddress values.merchantAddress ≠ publicKey := by
  obtain ⟨inv, hinv, -, -, hchecks⟩ := h
  obtain ⟨hs, hm, -⟩ := (confirmAndSubmit_eq_ok_iff hvalues hkey).1 hinv
  have hne := (returns_subscribeChecks.1 hchecks).1
  intro heq
  rw [heq, hs] at hm
  exact hne (Option.some.inj hm)

theorem delivers_of_representable {amount interval : ℤ}
    (hvalues : Accepted sk values amount interval)
    (hkey : sk.isValidEd25519PublicKey publicKey = true)
    (hlimit : ∀ config, σ.adminConfig = some config → amount ≤ config.maxAmount)
    (hrep : Representable 53 amount.natAbs)
    (hne : normalizeAddress values.merchantAddress ≠ publicKey) :
    Delivers sk publicKey values σ := by
  have hpos := hvalues.amount_pos
  have hle := hvalues.amount_le
  have hmin := hvalues.le_interval
  have hmax := hvalues.interval_le
  rw [formMaxAmount] at hle
  rw [minIntervalSeconds] at hmin
  rw [maxIntervalSeconds] at hmax
  obtain ⟨s, hs⟩ := Option.isSome_iff_exists.1 (sk.isSome_newAddress _ (.inl hkey))
  obtain ⟨m, hm⟩ := Option.isSome_iff_exists.1 (sk.isSome_newAddress _ (.inl hvalues.merchant))
  obtain ⟨token, ht⟩ := Option.isSome_iff_exists.1 (sk.isSome_newAddress _ (.inr hvalues.token))
  have hinterval : ((interval.toNat : ℕ) : ℤ) = interval := by omega
  have hnumber : (Double.ofInt amount).toInt = some amount := by
    have hlt : amount.natAbs < 2 ^ 60 := by omega
    exact (Double.toInt_ofInt_iff (lt_pow_of_lt_pow hlt (by decide))).2 hrep
  have hi128 : IsI128 amount := ⟨by omega, by omega⟩
  have hself : s ≠ m := by
    rintro rfl
    exact hne (sk.newAddress_injective _ _ _ hm hs)
  have hbounds : minInterval ≤ interval.toNat ∧ interval.toNat ≤ maxInterval := by
    rw [minInterval, maxInterval]
    omega
  refine ⟨⟨s, m, token, amount, interval.toNat⟩, ?_, hvalues.amount_typed, ?_, ?_⟩
  · exact (confirmAndSubmit_eq_ok_iff hvalues hkey).2 ⟨hs, hm, ht, ⟨hnumber, hi128⟩, hinterval⟩
  · rw [hinterval]
    exact hvalues.interval_typed
  · exact returns_subscribeChecks.2 ⟨hself, ⟨hpos, hle⟩, hlimit, hbounds, rfl⟩

/-- **What the form accepts is what the chain receives** exactly for amounts with 53 significant
bits, and for merchants that are not the key of the wallet. -/
theorem delivers_iff
    (hform : isFormValid (validateSubscriptionForm sk values) = true)
    (hkey : sk.isValidEd25519PublicKey publicKey = true)
    (hlimit : ∀ amount config, bigIntOfText values.amount = some amount →
      σ.adminConfig = some config → amount ≤ config.maxAmount) :
    Delivers sk publicKey values σ ↔
      (∃ amount, bigIntOfText values.amount = some amount ∧ Representable 53 amount.natAbs) ∧
        normalizeAddress values.merchantAddress ≠ publicKey := by
  obtain ⟨amount, interval, hvalues⟩ := accepted_of_isFormValid hform
  have htyped := hvalues.amount_typed
  constructor
  · intro h
    exact ⟨⟨amount, htyped, representable_of_delivers hvalues hkey h⟩,
      ne_publicKey_of_delivers hvalues hkey h⟩
  · rintro ⟨⟨amount', htyped', hrep⟩, hne⟩
    obtain rfl := Option.some.inj (htyped.symm.trans htyped')
    exact delivers_of_representable hvalues hkey (fun config => hlimit amount config htyped) hrep
      hne

/-! ### A sample -/

/-- Two keys of accounts. -/
def sampleAccounts : List String :=
  ["GAAQCAIBAEAQCAIBAEAQCAIBAEAQCAIBAEAQCAIBAEAQCAIBAEAQDZ7H",
    "GABAEAQCAIBAEAQCAIBAEAQCAIBAEAQCAIBAEAQCAIBAEAQCAIBAEJXA"]

/-- The key of a contract. -/
def sampleContract : String := "CAAAAAAAAAAAAAAAAAAAAAAAAAAAAAAAAAAAAAAAAAAAAAAAAAAABSC4"

/-- The SDK, for these keys. -/
def sampleKeys : StrKey String where
  isValidEd25519PublicKey text := text ∈ sampleAccounts
  isValidContract text := text = sampleContract
  newAddress text := if text ∈ sampleAccounts ∨ text = sampleContract then some text else none
  isStrKey_account text h := by
    simp only [sampleAccounts, List.mem_cons, List.not_mem_nil, or_false, decide_eq_true_eq] at h
    rcases h with rfl | rfl <;> exact ⟨_, rfl, by decide, by decide⟩
  isStrKey_contract text h := by
    obtain rfl := of_decide_eq_true h
    exact ⟨_, rfl, by decide, by decide⟩
  isSome_newAddress text h := by
    have h : text ∈ sampleAccounts ∨ text = sampleContract := by simpa using h
    rw [if_pos h]
    rfl
  newAddress_injective text text' a h h' := by
    split_ifs at h h'
    exact (Option.some.inj h).trans (Option.some.inj h').symm

/-- A form with an amount. -/
def sampleValues (amount : String) : SubscriptionFormValues where
  merchantAddress := "GABAEAQCAIBAEAQCAIBAEAQCAIBAEAQCAIBAEAQCAIBAEAQCAIBAEJXA"
  tokenAddress := " CAAAAAAAAAAAAAAAAAAAAAAAAAAAAAAAAAAAAAAAAAAAAAAAAAAABSC4 "
  amount := amount
  interval := "2592000"
  subscriberAddress := none

/-- The wallet of the sample. -/
def samplePublicKey : String := "GAAQCAIBAEAQCAIBAEAQCAIBAEAQCAIBAEAQCAIBAEAQCAIBAEAQDZ7H"

theorem isFormValid_sampleValues (amount : String)
    (h : amountError (normalizeAddress amount) = none) :
    isFormValid (validateSubscriptionForm sampleKeys (sampleValues amount)) = true := by
  have hnumber : numberOfText (normalizeAddress "2592000") = some (.finite 2592000) := by
    have htyped : bigIntOfText (normalizeAddress "2592000") = some 2592000 := by decide
    rw [numberOfText, htyped, Option.map_some, Double.ofInt_of_lt (by decide)]
  have hinterval : intervalError (normalizeAddress "2592000") = none := by
    rw [intervalError, hnumber]
    decide
  simp only [isFormValid, validateSubscriptionForm, sampleValues, h, hinterval]
  decide

/-- An amount that is a number. -/
theorem delivers_sample :
    Delivers sampleKeys samplePublicKey (sampleValues "1000000")
      (State.deployed String Unit ()) := by
  have hform := isFormValid_sampleValues "1000000" (by decide)
  have hlimit : ∀ config, (State.deployed String Unit ()).adminConfig ≠ some config :=
    fun _ => Option.some_ne_none _ ∘ Eq.symm
  refine (delivers_iff hform (by decide) fun _ config _ h => (hlimit config h).elim).2 ⟨?_, ?_⟩
  · exact ⟨1000000, by decide, representable_of_lt (by decide)⟩
  · decide

/-- An amount with 54 significant bits is accepted, and another one is sent. -/
theorem not_delivers_sample :
    isFormValid (validateSubscriptionForm sampleKeys (sampleValues "9007199254740993")) = true ∧
      sampleKeys.isValidEd25519PublicKey samplePublicKey = true ∧
      (confirmAndSubmit sampleKeys samplePublicKey (sampleValues "9007199254740993")).map
        (fun inv => inv.amount) = .ok 9007199254740992 ∧
      ¬ Delivers sampleKeys samplePublicKey (sampleValues "9007199254740993")
        (State.deployed String Unit ()) := by
  have hform := isFormValid_sampleValues "9007199254740993" (by decide)
  obtain ⟨amount, interval, hvalues⟩ := accepted_of_isFormValid hform
  have hamount : some amount = some 9007199254740993 :=
    hvalues.amount_typed.symm.trans (by decide)
  have hinterval : some interval = some 2592000 := hvalues.interval_typed.symm.trans (by decide)
  obtain rfl := Option.some.inj hamount
  obtain rfl := Option.some.inj hinterval
  refine ⟨hform, by decide, ?_, fun h => ?_⟩
  · have hround : roundBits 53 (9007199254740993 : ℤ).natAbs = 9007199254740992 := by decide
    have hlt : 9007199254740992 < 2 ^ 1024 :=
      lt_pow_of_lt_pow (show 9007199254740992 < 2 ^ 54 by decide) (by decide)
    have hnumber : (Double.ofInt 9007199254740993).toInt = some 9007199254740992 := by
      rw [Double.ofInt, hround, if_pos hlt, Double.toInt]
      rfl
    have hkey : sampleKeys.isValidEd25519PublicKey samplePublicKey = true := by decide
    have hi128 : IsI128 9007199254740992 := ⟨by decide, by decide⟩
    have hsubmitted : confirmAndSubmit sampleKeys samplePublicKey
        (sampleValues "9007199254740993") = .ok
          { subscriber := samplePublicKey
            merchant := "GABAEAQCAIBAEAQCAIBAEAQCAIBAEAQCAIBAEAQCAIBAEAQCAIBAEJXA"
            token := sampleContract
            amount := 9007199254740992
            interval := 2592000 } :=
      (confirmAndSubmit_eq_ok_iff hvalues hkey).2
        ⟨by decide, by decide, by decide, ⟨hnumber, hi128⟩, rfl⟩
    rw [hsubmitted]
    rfl
  · exact not_representable_of_odd (by decide) (by decide)
      (representable_of_delivers hvalues (by decide) h)

end Delivery

end SorobanPay.Frontend
