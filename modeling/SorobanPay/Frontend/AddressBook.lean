import Mathlib.Data.Countable.Basic
import Mathlib.Data.Finmap
import Mathlib.Logic.Equiv.List
import SorobanPay.Backend.WebhookNotifier
import SorobanPay.Foundation.Run

/-!
# The address book of a wallet

`useAddressBook` keeps the entries of the connected wallet in a state of React, and in
`localStorage` under a key of the wallet. One effect loads the entries when the wallet changes, the
other one saves them when they or the wallet have changed. So when another wallet is connected, its
book is read, the entries that are still shown are written over it, and when React renders next, the
entries that have been read are shown and written back. A change of the wallet in between leaves the
wrong entries behind.

Updates of the state are queued until React renders; effects run when it has. The texts of the
storage are read and written by a parameter, and it may refuse to store. A name that every object
has counts as an entry that is there.

## Main definitions

* `addEntry`, `updateEntry`, `deleteEntry`, `importBook`: the updates.
* `Hook`, `hookStep`: the hook, step by step.
* `Books`, `booksStep`: one book for each wallet.

## Main results

* `Refines.step`: the hook follows the books.
* `addressBook_refines`: runs in which wallets change between renders, and what happens otherwise.
-/

set_option autoImplicit false

namespace SorobanPay.AddressBook

open Foundation

/-! ### Books -/

/-- An entry. One that has been made of a name that every object has lacks two of its fields. -/
structure AddressBookEntry where
  address : Option String
  label : String
  createdAt : Option String
  updatedAt : String
  deriving DecidableEq, Repr

/-- `AddressBookMap`. -/
abbrev Book := Finmap fun _ : String => AddressBookEntry

/-- `{}`. -/
def emptyBook : Book := ∅

/-- The names of `Object.prototype`. -/
def inheritedNames : List String :=
  ["constructor", "__defineGetter__", "__defineSetter__", "hasOwnProperty", "__lookupGetter__",
    "__lookupSetter__", "isPrototypeOf", "propertyIsEnumerable", "toString", "valueOf", "__proto__",
    "toLocaleString"]

/-- `prev[address]` is truthy. -/
def hasEntry (book : Book) (address : String) : Bool :=
  (book.lookup address).isSome || inheritedNames.contains address

def trimText (text : String) : String := String.ofList (WebhookNotifier.trim text.toList)

/-- An update of the state; there is none if the state stays the same object. -/
abbrev Update := Book → Option Book

/-- `addEntry`, called at `now`. -/
def addEntry (address label now : String) : Option Update :=
  let trimmedAddress := trimText address
  let trimmedLabel := trimText label
  if trimmedAddress = "" ∨ trimmedLabel = "" then none
  else some fun prev =>
    if hasEntry prev trimmedAddress then none
    else some (prev.insert trimmedAddress
      ⟨some trimmedAddress, trimmedLabel, some now, now⟩)

/-- `updateEntry`, called at `now`. -/
def updateEntry (address label now : String) : Option Update :=
  let trimmedLabel := trimText label
  if address = "" ∨ trimmedLabel = "" then none
  else some fun prev =>
    if hasEntry prev address then
      some (prev.insert address
        { address := (prev.lookup address).bind AddressBookEntry.address
          label := trimmedLabel
          createdAt := (prev.lookup address).bind AddressBookEntry.createdAt
          updatedAt := now })
    else none

/-- `deleteEntry`. -/
def deleteEntry (address : String) : Option Update :=
  some fun prev => some (prev.erase address)

/-- `importBook`. -/
def importBook (book : Book) : Option Update := some fun _ => some book

/-- `getLabel`. -/
def getLabel (entries : Book) (address : String) : Option String :=
  (entries.lookup address).map AddressBookEntry.label

/-- A call of one of the functions that the hook returns. -/
inductive Edit
  | addEntry (address label now : String)
  | updateEntry (address label now : String)
  | deleteEntry (address : String)
  | importBook (book : Book)

/-- The update that is queued, if any. -/
def Edit.update : Edit → Option Update
  | .addEntry address label now => AddressBook.addEntry address label now
  | .updateEntry address label now => AddressBook.updateEntry address label now
  | .deleteEntry address => AddressBook.deleteEntry address
  | .importBook book => AddressBook.importBook book

/-- What updates make of a book, one after the other. -/
def applyUpdates (book : Book) (updates : List Update) : Book :=
  updates.foldl (fun prev update => (update prev).getD prev) book

/-- Some update makes another object of the state. -/
def changes : Book → List Update → Bool
  | _, [] => false
  | book, update :: updates => (update book).isSome || changes book updates

/-! ### The hook -/

/-- The texts of the storage: `read` gives the entries if the text is not empty and is JSON of an
object, and what has been written is read back. -/
structure Codec (Raw : Type) where
  read : Raw → Option Book
  write : Book → Raw
  read_write : ∀ book, read (write book) = some book

/-- The texts of JavaScript are enough. -/
theorem nonempty_codec : Nonempty (Codec String) := by
  have hchar : Countable Char := Function.Injective.countable fun _ _ => Char.toNat_inj.1
  have hstring : Countable String := Function.Injective.countable fun _ _ => String.toList_injective
  have hentry : Countable AddressBookEntry := by
    have hfields : Function.Injective fun entry : AddressBookEntry =>
        (entry.address, entry.label, entry.createdAt, entry.updatedAt) := by
      rintro ⟨⟩ ⟨⟩ h
      simpa using h
    exact hfields.countable
  have hbook : Countable Book := Function.Injective.countable fun _ _ => Finmap.ext
  obtain ⟨number, hnumber⟩ := exists_injective_nat Book
  have hwrite : Function.Injective fun book =>
      String.ofList (List.replicate (number book) '0') := by
    intro book book' h
    have hlength := congrArg List.length (String.ofList_injective h)
    rw [List.length_replicate, List.length_replicate] at hlength
    exact hnumber hlength
  exact ⟨Function.partialInv _, _, Function.partialInv_left hwrite⟩

/-- The key of a wallet in the storage. -/
def storageKey (walletKey : String) : String := "sorobanpay_address_book_" ++ walletKey

/-- The wallet, unless its text is empty. -/
def walletOf (walletPublicKey : Option String) : Option String := walletPublicKey.filter (· ≠ "")

variable {Raw : Type}

/-- The storage, what was rendered last, and the updates since. Before the first time, no wallet has
been rendered. -/
structure Hook (Raw : Type) where
  storage : String → Option Raw
  rendered : Option (Option String)
  entries : Book
  queue : List Update

/-- Nothing has been rendered. -/
def Hook.start (storage : String → Option Raw) : Hook Raw := ⟨storage, none, emptyBook, []⟩

section Steps

variable (codec : Codec Raw)

/-- `loadFromStorage`. -/
def loadFromStorage (storage : String → Option Raw) (walletKey : String) : Book :=
  ((storage (storageKey walletKey)).bind codec.read).getD emptyBook

/-- `saveToStorage`; the storage may refuse. -/
def saveToStorage (storage : String → Option Raw) (walletKey : String) (book : Book)
    (accepted : Bool) : String → Option Raw :=
  if accepted then Function.update storage (storageKey walletKey) (some (codec.write book))
  else storage

/-- React renders with a wallet, and the effects run: the first one reads the storage before the
second one writes to it. -/
def render (σ : Hook Raw) (walletPublicKey : Option String) (accepted : Bool) : Hook Raw :=
  let entries := applyUpdates σ.entries σ.queue
  let walletChanged : Bool := σ.rendered ≠ some walletPublicKey
  let loaded :=
    if walletChanged then
      [fun _ => some ((walletOf walletPublicKey).elim emptyBook (loadFromStorage codec σ.storage))]
    else []
  let storage :=
    if walletChanged || changes σ.entries σ.queue then
      (walletOf walletPublicKey).elim σ.storage fun walletKey =>
        saveToStorage codec σ.storage walletKey entries accepted
    else σ.storage
  ⟨storage, some walletPublicKey, entries, loaded⟩

inductive HookInput
  | edit (edit : Edit)
  | render (walletPublicKey : Option String) (accepted : Bool)

def hookStep (σ : Hook Raw) : HookInput → Hook Raw
  | .edit edit => { σ with queue := σ.queue ++ edit.update.toList }
  | .render walletPublicKey accepted => render codec σ walletPublicKey accepted

end Steps

/-- What is shown when React renders next. -/
def Hook.view (σ : Hook Raw) : Book := applyUpdates σ.entries σ.queue

/-- The wallet that is connected. -/
def Hook.wallet (σ : Hook Raw) : Option String := σ.rendered.bind walletOf

/-! ### One book for each wallet -/

/-- The book of each wallet, and the entries without a wallet, which are nobody's. -/
structure Books where
  rendered : Option (Option String)
  books : String → Book
  unsaved : Book

/-- The wallet whose book is open. -/
def Books.wallet (b : Books) : Option String := b.rendered.bind walletOf

/-- The book that is open. -/
def Books.current (b : Books) : Book := b.wallet.elim b.unsaved b.books

theorem Books.current_of_some {b : Books} {walletKey : String} (h : b.wallet = some walletKey) :
    b.current = b.books walletKey := by
  rw [current, h, Option.elim_some]

theorem Books.current_of_none {b : Books} (h : b.wallet = none) : b.current = b.unsaved := by
  rw [current, h, Option.elim_none]

/-- Edits go to the book that is open. -/
def booksStep (b : Books) : HookInput → Books
  | .edit edit =>
    let edited := applyUpdates b.current edit.update.toList
    match b.wallet with
    | some walletKey => { b with books := Function.update b.books walletKey edited }
    | none => { b with unsaved := edited }
  | .render walletPublicKey _ =>
    if b.rendered = some walletPublicKey then b
    else { b with rendered := some walletPublicKey, unsaved := emptyBook }

/-- The books that are in the storage. -/
def Books.start (codec : Codec Raw) (storage : String → Option Raw) : Books :=
  ⟨none, loadFromStorage codec storage, emptyBook⟩

/-! ### The hook follows the books -/

/-- What is shown next is the book that is open, the other books are in the storage, and so is this
one if no update is pending. -/
structure Refines (codec : Codec Raw) (σ : Hook Raw) (b : Books) : Prop where
  rendered : σ.rendered = b.rendered
  current : σ.view = b.current
  others : ∀ walletKey, σ.wallet ≠ some walletKey →
    loadFromStorage codec σ.storage walletKey = b.books walletKey
  saved : changes σ.entries σ.queue = false → ∀ walletKey, σ.wallet = some walletKey →
    loadFromStorage codec σ.storage walletKey = σ.entries

/-- The wallet changes when no update is pending, and the storage accepts what is saved otherwise.
-/
def Calm (σ : Hook Raw) : HookInput → Prop
  | .edit _ => True
  | .render walletPublicKey accepted =>
    (σ.rendered ≠ some walletPublicKey → changes σ.entries σ.queue = false) ∧
      (σ.rendered = some walletPublicKey → accepted = true)

section Updates

variable {book : Book} {updates updates' : List Update}

theorem applyUpdates_append : applyUpdates book (updates ++ updates') =
    applyUpdates (applyUpdates book updates) updates' := List.foldl_append

/-- Updates that make no new object leave the book as it is. -/
theorem applyUpdates_of_not_changes (h : changes book updates = false) :
    applyUpdates book updates = book := by
  induction updates with
  | nil => rfl
  | cons update updates ih =>
    rw [changes, Bool.or_eq_false_iff] at h
    have hnone : update book = none := Option.not_isSome_iff_eq_none.1 (by simp [h.1])
    change applyUpdates ((update book).getD book) updates = book
    rw [hnone]
    exact ih h.2

theorem not_changes_of_append (h : changes book (updates ++ updates') = false) :
    changes book updates = false := by
  induction updates with
  | nil => rfl
  | cons update updates ih =>
    rw [List.cons_append, changes, Bool.or_eq_false_iff] at h
    rw [changes, h.1, ih h.2, Bool.or_self]

end Updates

section Storage

variable {codec : Codec Raw} {storage : String → Option Raw} {walletKey key : String} {book : Book}

theorem load_save_self :
    loadFromStorage codec (saveToStorage codec storage walletKey book true) walletKey = book := by
  simp [loadFromStorage, saveToStorage, codec.read_write]

theorem storageKey_injective : Function.Injective storageKey := fun _ _ h =>
  (String.append_right_inj _).1 h

/-- The books of other wallets are not written to. -/
theorem load_save_of_ne (accepted : Bool) (h : key ≠ walletKey) :
    loadFromStorage codec (saveToStorage codec storage walletKey book accepted) key =
      loadFromStorage codec storage key := by
  cases accepted with
  | false => rfl
  | true =>
    have hne : storageKey key ≠ storageKey walletKey := storageKey_injective.ne h
    simp [loadFromStorage, saveToStorage, Function.update_of_ne hne]

/-- What React renders leaves the books of the other wallets alone. -/
theorem load_render_of_ne (σ : Hook Raw) {walletPublicKey : Option String} (accepted : Bool)
    (h : walletOf walletPublicKey ≠ some key) :
    loadFromStorage codec (render codec σ walletPublicKey accepted).storage key =
      loadFromStorage codec σ.storage key := by
  rw [render]
  dsimp only
  split_ifs
  · cases hwallet : walletOf walletPublicKey with
    | none => rfl
    | some walletKey => exact load_save_of_ne accepted fun heq => h (heq ▸ hwallet)
  · rfl

theorem walletOf_eq_some {walletPublicKey : Option String} :
    walletOf walletPublicKey = some key → walletPublicKey = some key := fun h =>
  (Option.filter_eq_some_iff.1 h).1

end Storage

namespace Refines

variable {codec : Codec Raw} {σ : Hook Raw} {b : Books}

theorem wallet_eq (h : Refines codec σ b) : σ.wallet = b.wallet :=
  congrArg (Option.bind · walletOf) h.rendered

/-- What a wallet has in the storage when no update is pending. -/
theorem stored (h : Refines codec σ b) (hcalm : changes σ.entries σ.queue = false)
    (walletKey : String) : loadFromStorage codec σ.storage walletKey = b.books walletKey := by
  by_cases hwallet : σ.wallet = some walletKey
  · have hview : σ.view = σ.entries := applyUpdates_of_not_changes hcalm
    rw [h.saved hcalm walletKey hwallet, ← hview, h.current]
    exact Books.current_of_some (h.wallet_eq.symm.trans hwallet)
  · exact h.others walletKey hwallet

theorem edit (h : Refines codec σ b) (edit : Edit) :
    Refines codec (hookStep codec σ (.edit edit)) (booksStep b (.edit edit)) := by
  have hview : (hookStep codec σ (.edit edit)).view =
      applyUpdates b.current edit.update.toList := by
    rw [← h.current]
    exact applyUpdates_append
  have hsaved : changes σ.entries (σ.queue ++ edit.update.toList) = false →
      ∀ walletKey, σ.wallet = some walletKey →
        loadFromStorage codec σ.storage walletKey = σ.entries :=
    fun hcalm => h.saved (not_changes_of_append hcalm)
  cases hwallet : b.wallet with
  | none =>
    have hopen : booksStep b (.edit edit) =
        ⟨b.rendered, b.books, applyUpdates b.current edit.update.toList⟩ := by
      simp only [booksStep, hwallet]
    rw [hopen]
    have hnone : Books.wallet ⟨b.rendered, b.books,
        applyUpdates b.current edit.update.toList⟩ = none := hwallet
    exact ⟨h.rendered, hview.trans (Books.current_of_none hnone).symm, h.others, hsaved⟩
  | some walletKey =>
    have hopen : booksStep b (.edit edit) = ⟨b.rendered,
        Function.update b.books walletKey (applyUpdates b.current edit.update.toList),
        b.unsaved⟩ := by
      simp only [booksStep, hwallet]
    rw [hopen]
    have hsome : Books.wallet ⟨b.rendered, Function.update b.books walletKey
        (applyUpdates b.current edit.update.toList), b.unsaved⟩ = some walletKey := hwallet
    refine ⟨h.rendered, hview.trans ?_, fun key hkey => ?_, hsaved⟩
    · exact ((Books.current_of_some hsome).trans (Function.update_self walletKey _ b.books)).symm
    · have hne : key ≠ walletKey := by
        rintro rfl
        exact hkey (h.wallet_eq.trans hwallet)
      exact (h.others key hkey).trans (Function.update_of_ne hne _ b.books).symm

/-- React renders again with the same wallet: what is pending is shown, and saved. -/
theorem render_same (h : Refines codec σ b) {walletPublicKey : Option String}
    (hsame : σ.rendered = some walletPublicKey) :
    Refines codec (render codec σ walletPublicKey true) b := by
  have hunchanged : decide (σ.rendered ≠ some walletPublicKey) = false := by simp [hsame]
  have hwallet : (render codec σ walletPublicKey true).wallet = σ.wallet := by
    simp [Hook.wallet, render, hsame]
  refine ⟨hsame.symm.trans h.rendered, ?_, fun key hkey => ?_, fun _ key hkey => ?_⟩
  · rw [← h.current]
    simp [Hook.view, render, hsame, applyUpdates]
  · rw [hwallet] at hkey
    rw [← h.others key hkey]
    exact load_render_of_ne σ true fun hother =>
      hkey (by rw [Hook.wallet, hsame, Option.bind_some, hother])
  · rw [hwallet] at hkey
    have hwalletOf : walletOf walletPublicKey = some key := by
      rwa [Hook.wallet, hsame, Option.bind_some] at hkey
    simp only [render, hunchanged, Bool.false_or, hwalletOf, Option.elim_some]
    split_ifs with hchanges
    · exact load_save_self
    · have hcalm := Bool.eq_false_of_not_eq_true hchanges
      rw [applyUpdates_of_not_changes hcalm]
      exact h.saved hcalm key hkey

/-- React renders with another wallet: its book is read, and it is what will be shown. -/
theorem render_changed (h : Refines codec σ b) {walletPublicKey : Option String}
    (hchanged : σ.rendered ≠ some walletPublicKey) (hcalm : changes σ.entries σ.queue = false)
    (accepted : Bool) : Refines codec (render codec σ walletPublicKey accepted)
      ⟨some walletPublicKey, b.books, emptyBook⟩ := by
  have hwallet : (render codec σ walletPublicKey accepted).wallet = walletOf walletPublicKey := rfl
  refine ⟨rfl, ?_, fun key hkey => ?_, fun hnone => ?_⟩
  · have hview : (render codec σ walletPublicKey accepted).view =
        (walletOf walletPublicKey).elim emptyBook (loadFromStorage codec σ.storage) := by
      simp [Hook.view, render, hchanged, applyUpdates]
    rw [hview]
    cases hwalletOf : walletOf walletPublicKey with
    | none =>
      have hnone : Books.wallet ⟨some walletPublicKey, b.books, emptyBook⟩ = none := hwalletOf
      exact (Books.current_of_none hnone).symm
    | some walletKey =>
      have hsome : Books.wallet ⟨some walletPublicKey, b.books, emptyBook⟩ = some walletKey :=
        hwalletOf
      exact (h.stored hcalm walletKey).trans (Books.current_of_some hsome).symm
  · rw [hwallet] at hkey
    rw [← h.stored hcalm key]
    exact load_render_of_ne σ accepted hkey
  · simp [render, hchanged, changes] at hnone

theorem step (h : Refines codec σ b) (input : HookInput) (hcalm : Calm σ input) :
    Refines codec (hookStep codec σ input) (booksStep b input) := by
  cases input with
  | edit edit => exact h.edit edit
  | render walletPublicKey accepted =>
    by_cases hsame : σ.rendered = some walletPublicKey
    · obtain rfl := hcalm.2 hsame
      rw [booksStep, if_pos (h.rendered ▸ hsame)]
      exact h.render_same hsame
    · rw [booksStep, if_neg (h.rendered ▸ hsame)]
      exact h.render_changed hsame (hcalm.1 hsame) accepted

end Refines

theorem refines_start (codec : Codec Raw) (storage : String → Option Raw) :
    Refines codec (.start storage) (.start codec storage) :=
  ⟨rfl, rfl, fun _ _ => rfl, fun _ _ h => by cases h⟩

/-- **One book for each wallet.** Let the wallet change only when no update is pending, and let the
storage accept what is saved. Then what is shown next is the book of the connected wallet, with the
edits that were made while it was connected and no others; the books of all other wallets are in the
storage, and so is this one when no update is pending. If the wallet changes twice in a row, before
React renders what it has read for the first of them, this one is left with the book that was shown
before. -/
theorem addressBook_refines (codec : Codec Raw) (storage : String → Option Raw)
    (inputs : List HookInput) (h : Along (hookStep codec) Calm (.start storage) inputs) :
    let σ := after (hookStep codec) (.start storage) inputs
    let b := after booksStep (.start codec storage) inputs
    σ.view = b.current ∧
      (∀ walletKey, σ.wallet ≠ some walletKey →
        loadFromStorage codec σ.storage walletKey = b.books walletKey) ∧
      (changes σ.entries σ.queue = false → σ.entries = b.current ∧
        ∀ walletKey, loadFromStorage codec σ.storage walletKey = b.books walletKey) ∧
      ∀ walletPublicKey next walletKey accepted, changes σ.entries σ.queue = false →
        σ.rendered ≠ some walletPublicKey → walletOf walletPublicKey = some walletKey →
        next ≠ walletPublicKey →
          loadFromStorage codec (after (hookStep codec) σ
            [.render walletPublicKey true, .render next accepted]).storage walletKey =
              b.current := by
  intro σ b
  have hrefines : Refines codec σ b := by
    have hrun : ∀ (τ : Hook Raw) (c : Books) (inputs : List HookInput), Refines codec τ c →
        Along (hookStep codec) Calm τ inputs →
          Refines codec (after (hookStep codec) τ inputs) (after booksStep c inputs) := by
      intro τ c inputs hτ hcalm
      induction inputs generalizing τ c with
      | nil => exact hτ
      | cons input inputs ih => exact ih _ _ (hτ.step input hcalm.1) hcalm.2
    exact hrun _ _ inputs (refines_start codec storage) h
  refine ⟨hrefines.current, hrefines.others, fun hcalm => ⟨?_, hrefines.stored hcalm⟩,
    fun walletPublicKey next walletKey accepted hcalm hchanged hwallet hnext => ?_⟩
  · rw [← hrefines.current]
    exact (applyUpdates_of_not_changes hcalm).symm
  · have hshown : applyUpdates σ.entries σ.queue = b.current := hrefines.current
    have hother : walletOf next ≠ some walletKey := fun heq =>
      hnext ((walletOf_eq_some heq).trans (walletOf_eq_some hwallet).symm)
    refine (load_render_of_ne (render codec σ walletPublicKey true) accepted hother).trans ?_
    simp only [render, hwallet, Option.elim_some, hchanged, ne_eq, not_false_eq_true, decide_true,
      Bool.true_or, if_true]
    rw [load_save_self, hshown]

/-- A storage whose texts are the books. -/
def sampleCodec : Codec Book := ⟨some, id, fun _ => rfl⟩

/-- A wallet is connected, its book is shown, an entry is added and shown, and another wallet is
connected. -/
def sampleInputs : List HookInput :=
  [.render (some "GA") true, .render (some "GA") true, .edit (.addEntry " GB " "Merchant" "now"),
    .render (some "GA") true, .render (some "GC") true]

theorem addressBook_refines_sample :
    (loadFromStorage sampleCodec (after (hookStep sampleCodec) (.start fun _ => none)
      sampleInputs).storage "GA").lookup "GB" =
        some ⟨some "GB", "Merchant", some "now", "now"⟩ := by
  have hcalm : Along (hookStep sampleCodec) Calm (.start fun _ => none) sampleInputs := by
    refine ⟨⟨fun _ => rfl, fun _ => rfl⟩, ⟨fun h => ?_, fun _ => rfl⟩, trivial,
      ⟨fun h => ?_, fun _ => rfl⟩, ⟨fun _ => rfl, fun _ => rfl⟩, trivial⟩
    · exact absurd rfl h
    · exact absurd rfl h
  have hstored := (addressBook_refines sampleCodec (fun _ => none) sampleInputs hcalm).2.1 "GA"
    (by decide +kernel)
  rw [hstored]
  decide +kernel

end SorobanPay.AddressBook
