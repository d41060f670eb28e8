import Mathlib.Data.List.Basic
import Mathlib.Tactic.Common

/-!
# CSV

Text that is a table: the cells of a row are separated by commas, and the rows by ends of lines. A
cell may stand within quotation marks, and then a pair of quotation marks is one of the cell. Lines
end with a line feed or with a carriage return and a line feed; the last may have no end. This is
RFC 4180, whose reader takes a quotation mark within a cell that does not start with one as an
error.

Writers differ in the cells that they write within quotation marks, in the end of their lines, and
in whether the last line has one. What they write is read back if quotation marks, commas and line
feeds are never left bare, and if no line that ends with a line feed has a carriage return before it
that belongs to a cell.

## Main definitions

* `CsvMode`, `readFrom`, `readCsv`: the reader.
* `CsvDialect`, `writeCell`, `writeRow`: a writer of rows.
* `EndsWell`: a cell that may end a line.

## Main results

* `readCsv_terminated`: a table whose lines all have their end.
* `readCsv_joined`: a table whose last line has none.
-/

set_option autoImplicit false

namespace Foundation

/-! ### The reader -/

/-- Where the reader is: before a cell, within a bare one, within a quoted one, or after a quotation
mark of a quoted one. -/
inductive CsvMode
  | atStart
  | plain
  | quoted
  | quoteSeen
  deriving DecidableEq, Repr

/-- The end of the text, with the cell and the row so far. -/
def readEnd (mode : CsvMode) (cell : List Char) (row : List (List Char)) :
    Option (List (List (List Char))) :=
  if mode = .quoted then none
  else if mode = .atStart ∧ row = [] then some []
  else some [row ++ [cell]]

/-- The reader, with the cell and the row so far. -/
def readFrom (mode : CsvMode) (cell : List Char) (row : List (List Char)) :
    List Char → Option (List (List (List Char)))
  | [] => readEnd mode cell row
  | c :: rest =>
    if mode = .quoted then
      if c = '\x22' then readFrom .quoteSeen cell row rest
      else readFrom .quoted (cell ++ [c]) row rest
    else if c = ',' then readFrom .atStart [] (row ++ [cell]) rest
    else if c = '\n' then (readFrom .atStart [] [] rest).map ((row ++ [cell]) :: ·)
    else if c = '\r' ∧ rest.head? = some '\n' then readFrom mode cell row rest
    else if mode = .quoteSeen then
      if c = '\x22' then readFrom .quoted (cell ++ [c]) row rest else none
    else if c = '\x22' then
      if mode = .atStart then readFrom .quoted cell row rest else none
    else readFrom .plain (cell ++ [c]) row rest

/-- The rows of a text. -/
def readCsv (text : List Char) : Option (List (List (List Char))) := readFrom .atStart [] [] text

variable {mode : CsvMode} {cell rest : List Char} {row : List (List Char)}

theorem readFrom_comma (hmode : mode ≠ .quoted) :
    readFrom mode cell row (',' :: rest) = readFrom .atStart [] (row ++ [cell]) rest := by
  rw [readFrom, if_neg hmode, if_pos rfl]

theorem readFrom_newline (hmode : mode ≠ .quoted) : readFrom mode cell row ('\n' :: rest) =
    (readFrom .atStart [] [] rest).map ((row ++ [cell]) :: ·) := by
  rw [readFrom, if_neg hmode]
  rfl

theorem readFrom_return (hmode : mode ≠ .quoted) :
    readFrom mode cell row ('\r' :: '\n' :: rest) = readFrom mode cell row ('\n' :: rest) := by
  rw [readFrom, if_neg hmode]
  rfl

theorem readFrom_nil (hmode : mode ≠ .quoted) (h : mode = .atStart → row ≠ []) :
    readFrom mode cell row [] = some [row ++ [cell]] := by
  rw [readFrom, readEnd, if_neg hmode, if_neg fun hstart => h hstart.1 hstart.2]

/-- A character of a bare cell. -/
theorem readFrom_bare {c : Char} (hmode : mode = .atStart ∨ mode = .plain)
    (hc : c ≠ '\x22' ∧ c ≠ ',' ∧ c ≠ '\n') (hend : c = '\r' → rest.head? ≠ some '\n') :
    readFrom mode cell row (c :: rest) = readFrom .plain (cell ++ [c]) row rest := by
  obtain ⟨hquote, hcomma, hnewline⟩ := hc
  have hreturn : ¬(c = '\r' ∧ rest.head? = some '\n') := fun h => hend h.1 h.2
  rcases hmode with rfl | rfl <;>
    rw [readFrom, if_neg nofun, if_neg hcomma, if_neg hnewline, if_neg hreturn, if_neg nofun,
      if_neg hquote]

/-- **A bare cell** is read as it is. -/
theorem readFrom_plain {cs : List Char} (hmode : mode = .atStart ∨ mode = .plain)
    (hcs : ∀ c ∈ cs, c ≠ '\x22' ∧ c ≠ ',' ∧ c ≠ '\n')
    (hend : cs.getLast? = some '\r' → rest.head? ≠ some '\n') :
    readFrom mode cell row (cs ++ rest) =
      readFrom (if cs = [] then mode else .plain) (cell ++ cs) row rest := by
  induction cs generalizing mode cell with
  | nil => rw [List.nil_append, List.append_nil, if_pos rfl]
  | cons c cs ih =>
    have hbare : readFrom mode cell row (c :: (cs ++ rest)) =
        readFrom .plain (cell ++ [c]) row (cs ++ rest) := by
      refine readFrom_bare hmode (hcs c List.mem_cons_self) fun hc => ?_
      cases cs with
      | nil => exact hend (by rw [hc]; rfl)
      | cons d ds =>
        have hd := (hcs d (List.mem_cons_of_mem _ List.mem_cons_self)).2.2
        exact fun h => hd (Option.some.inj h)
    have hlast : cs.getLast? = some '\r' → rest.head? ≠ some '\n' := fun h => hend (by
      rw [List.getLast?_cons, h]
      rfl)
    rw [List.cons_append, hbare, ih (.inr rfl) (fun d hd => hcs d (List.mem_cons_of_mem _ hd))
      hlast, if_neg (List.cons_ne_nil c cs), ite_self, List.append_assoc, List.singleton_append]

/-- A character within quotation marks, where a mark is doubled. -/
def doubled (c : Char) : List Char := if c = '\x22' then ['\x22', '\x22'] else [c]

theorem readFrom_doubled (c : Char) : readFrom .quoted cell row (doubled c ++ rest) =
    readFrom .quoted (cell ++ [c]) row rest := by
  rw [doubled]
  split_ifs with hc
  · rw [hc]
    rfl
  · rw [List.singleton_append, readFrom, if_pos rfl, if_neg hc]

/-- **Within quotation marks** every character of a cell is read. -/
theorem readFrom_quoted (cs : List Char) :
    readFrom .quoted cell row (cs.flatMap doubled ++ '\x22' :: rest) =
      readFrom .quoteSeen (cell ++ cs) row rest := by
  induction cs generalizing cell with
  | nil =>
    rw [List.flatMap_nil, List.nil_append, List.append_nil, readFrom, if_pos rfl, if_pos rfl]
  | cons c cs ih =>
    rw [List.flatMap_cons, List.append_assoc, readFrom_doubled, ih, List.append_assoc,
      List.singleton_append]

/-! ### Writers -/

/-- How a writer writes: the characters for which a cell stands within quotation marks, and the end
of a line. -/
structure CsvDialect where
  isSpecial : Char → Bool
  eol : List Char
  isSpecial_quote : isSpecial '\x22' = true
  isSpecial_comma : isSpecial ',' = true
  isSpecial_newline : isSpecial '\n' = true
  eol_cases : eol = ['\n'] ∨ eol = ['\r', '\n']

namespace CsvDialect

variable (D : CsvDialect)

def writeCell (cell : List Char) : List Char :=
  if cell.any D.isSpecial then '\x22' :: (cell.flatMap doubled ++ ['\x22']) else cell

/-- A row without the end of its line. -/
def writeRow (row : List (List Char)) : List Char := [','].intercalate (row.map D.writeCell)

/-- A cell may end a line: no carriage return of it is taken for one of the line. -/
def EndsWell (cell : List Char) : Prop :=
  D.eol = ['\n'] → D.isSpecial '\r' = true ∨ cell.getLast? ≠ some '\r'

variable {D}

theorem not_isSpecial {c : Char} (h : D.isSpecial c = false) :
    c ≠ '\x22' ∧ c ≠ ',' ∧ c ≠ '\n' := by
  have hne : ∀ d, D.isSpecial d = true → c ≠ d := fun d hd hcd => by
    rw [hcd, hd] at h
    exact Bool.noConfusion h
  exact ⟨hne _ D.isSpecial_quote, hne _ D.isSpecial_comma, hne _ D.isSpecial_newline⟩

/-- **A cell that is written** is read, up to where the reader does not go on with it. -/
theorem readFrom_writeCell
    (h : D.isSpecial '\r' = true ∨ cell.getLast? ≠ some '\r' ∨ rest.head? ≠ some '\n') :
    ∃ mode, mode ≠ .quoted ∧ (mode = .atStart → cell = []) ∧
      readFrom .atStart [] row (D.writeCell cell ++ rest) = readFrom mode cell row rest := by
  rw [writeCell]
  split_ifs with hspecial
  · refine ⟨.quoteSeen, nofun, nofun, ?_⟩
    rw [List.cons_append, List.append_assoc, List.singleton_append]
    exact (readFrom_quoted cell).trans (by rw [List.nil_append])
  · have hcell : ∀ c ∈ cell, D.isSpecial c = false := fun c hc =>
      Bool.eq_false_iff.2 fun hs => hspecial (List.any_eq_true.2 ⟨c, hc, hs⟩)
    have hend : cell.getLast? = some '\r' → rest.head? ≠ some '\n' := by
      intro hlast
      rcases h with hs | hne | hne
      · exact absurd hs (Bool.eq_false_iff.1 (hcell _ (List.mem_of_getLast? hlast)))
      · exact absurd hlast hne
      · exact hne
    refine ⟨if cell = [] then .atStart else .plain, ?_, ?_, ?_⟩
    · split_ifs <;> nofun
    · split_ifs with hnil
      · exact fun _ => hnil
      · nofun
    · exact readFrom_plain (.inl rfl) (fun c hc => not_isSpecial (hcell c hc)) hend

theorem readFrom_cell_comma : readFrom .atStart [] row (D.writeCell cell ++ ',' :: rest) =
    readFrom .atStart [] (row ++ [cell]) rest := by
  have hhead : (',' :: rest).head? ≠ some '\n' := by simp
  obtain ⟨mode, hmode, -, hread⟩ := readFrom_writeCell (D := D) (.inr (.inr hhead))
  rw [hread, readFrom_comma hmode]

theorem readFrom_cell_eol (h : D.EndsWell cell) :
    readFrom .atStart [] row (D.writeCell cell ++ (D.eol ++ rest)) =
      (readFrom .atStart [] [] rest).map ((row ++ [cell]) :: ·) := by
  rcases D.eol_cases with heol | heol
  · have hcell := (h heol).imp_right (Or.inl (b := (D.eol ++ rest).head? ≠ some '\n'))
    obtain ⟨mode, hmode, -, hread⟩ := readFrom_writeCell hcell
    rw [hread, heol, List.singleton_append, readFrom_newline hmode]
  · have hhead : (D.eol ++ rest).head? ≠ some '\n' := by
      rw [heol]
      simp
    obtain ⟨mode, hmode, -, hread⟩ := readFrom_writeCell (D := D) (.inr (.inr hhead))
    rw [hread, heol, List.cons_append, List.singleton_append, readFrom_return hmode,
      readFrom_newline hmode]

theorem readFrom_cell_nil (h : row ≠ [] ∨ cell ≠ []) :
    readFrom .atStart [] row (D.writeCell cell) = some [row ++ [cell]] := by
  have hhead : ([] : List Char).head? ≠ some '\n' := nofun
  obtain ⟨mode, hmode, hstart, hread⟩ := readFrom_writeCell (D := D) (.inr (.inr hhead))
  rw [List.append_nil] at hread
  rw [hread, readFrom_nil hmode fun hm => h.resolve_right fun hne => hne (hstart hm)]

theorem writeRow_singleton (cell : List Char) : D.writeRow [cell] = D.writeCell cell := by
  simp [writeRow, List.intercalate]

theorem writeRow_cons (cell : List Char) {cells : List (List Char)} (h : cells ≠ []) :
    D.writeRow (cell :: cells) = D.writeCell cell ++ ',' :: D.writeRow cells := by
  obtain ⟨next, others, rfl⟩ := List.exists_cons_of_ne_nil h
  simp [writeRow, List.intercalate]

/-! ### Tables -/

variable (D) in
/-- A row that can be written as a line. -/
structure IsLine (cells : List (List Char)) : Prop where
  ne_nil : cells ≠ []
  endsWell : ∀ cell ∈ cells.getLast?, D.EndsWell cell

variable {cells : List (List Char)} {rows : List (List (List Char))}

theorem IsLine.tail (h : D.IsLine (cell :: cells)) (hcells : cells ≠ []) : D.IsLine cells :=
  ⟨hcells, fun last hlast => h.endsWell last (by rwa [List.getLast?_cons_of_ne_nil hcells])⟩

/-- **A line** is read, with its end. -/
theorem readFrom_writeRow (h : D.IsLine cells) :
    readFrom .atStart [] row (D.writeRow cells ++ (D.eol ++ rest)) =
      (readFrom .atStart [] [] rest).map ((row ++ cells) :: ·) := by
  induction cells generalizing row with
  | nil => exact absurd rfl h.ne_nil
  | cons cell cells ih =>
    by_cases hcells : cells = []
    · subst hcells
      rw [writeRow_singleton, readFrom_cell_eol (h.endsWell cell rfl)]
    · rw [writeRow_cons cell hcells, List.append_assoc, List.cons_append, readFrom_cell_comma,
        ih (h.tail hcells), List.append_assoc, List.singleton_append]

/-- A last line without an end is read, unless nothing is written for it. -/
theorem readFrom_writeRow_nil (hcells : cells ≠ []) (h : row ++ cells ≠ [[]]) :
    readFrom .atStart [] row (D.writeRow cells) = some [row ++ cells] := by
  induction cells generalizing row with
  | nil => exact absurd rfl hcells
  | cons cell cells ih =>
    by_cases hnil : cells = []
    · subst hnil
      rw [writeRow_singleton, readFrom_cell_nil]
      by_contra! hempty
      exact h (by rw [hempty.1, hempty.2, List.nil_append])
    · rw [writeRow_cons cell hnil, readFrom_cell_comma, ih hnil (by rwa [List.append_assoc]),
        List.append_assoc, List.singleton_append]

/-- **A table** whose lines all have their end is read back. -/
theorem readCsv_terminated (h : ∀ row ∈ rows, D.IsLine row) :
    readCsv (rows.flatMap fun row => D.writeRow row ++ D.eol) = some rows := by
  rw [readCsv]
  induction rows with
  | nil => rfl
  | cons row rows ih =>
    obtain ⟨hrow, hrows⟩ := List.forall_mem_cons.1 h
    rw [List.flatMap_cons, List.append_assoc, readFrom_writeRow hrow, ih hrows, List.nil_append,
      Option.map_some]

/-- **A table** whose last line has no end is read back, unless nothing is written for its last row.
-/
theorem readCsv_joined (h : ∀ row ∈ rows, D.IsLine row) (hlast : rows.getLast? ≠ some [[]]) :
    readCsv (D.eol.intercalate (rows.map D.writeRow)) = some rows := by
  rw [readCsv]
  induction rows with
  | nil => rfl
  | cons row rows ih =>
    obtain ⟨hrow, hrows⟩ := List.forall_mem_cons.1 h
    rcases rows with _ | ⟨next, others⟩
    · rw [List.map_singleton, List.intercalate, List.intersperse_singleton, List.flatten_singleton]
      exact readFrom_writeRow_nil hrow.ne_nil fun heq => hlast (congrArg some heq)
    · have hjoin : D.eol.intercalate ((row :: next :: others).map D.writeRow) = D.writeRow row ++
          (D.eol ++ D.eol.intercalate ((next :: others).map D.writeRow)) := by
        simp [List.intercalate]
      rw [hjoin, readFrom_writeRow hrow, ih hrows (by rwa [List.getLast?_cons_cons] at hlast),
        List.nil_append, Option.map_some]

end CsvDialect

end Foundation
