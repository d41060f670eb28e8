import SorobanPay.Backend.ReportExport
import SorobanPay.Foundation.InsertionMap

/-!
# CSV that is written and read

`routes/reports.ts` writes CSV and `parseCsv` of `services/dataImportService.ts` reads it. The
reader splits the text into lines before it looks at quotation marks, and it trims the text, the
lines and the values. So a cell with a line feed is torn apart, and blanks around a cell are lost;
everything else comes back.

## Main definitions

* `splitLines`, `splitCsvLine`, `parseCsv`: the reader.
* `csvText`: a table as it is written.

## Main results

* `splitCsvLine_csvRow`: the cells of a row are read back from its line.
* `exists_trim_csvRow`: a line that is trimmed is the line of cells that are trimmed.
* `parseCsv_csvText`: what is read of a table.
-/

set_option autoImplicit false

namespace SorobanPay.CsvImport

open Foundation WebhookNotifier Reports

/-! ### The reader -/

/-- `split(/\r?\n/)`, from the parts between line feeds. The last part is not followed by one. -/
def dropReturns : List (List Char) → List (List Char)
  | [] => []
  | [last] => [last]
  | line :: next :: lines =>
    (if line.getLast? = some '\r' then line.dropLast else line) :: dropReturns (next :: lines)

def splitLines (content : List Char) : List (List Char) := dropReturns (content.splitOn '\n')

/-- The loop of `splitCsvLine`: the characters that are left, the value so far, and whether it is
within quotation marks. -/
def splitFrom : List Char → List Char → Bool → List (List Char)
  | [], current, _ => [current]
  | '\x22' :: '\x22' :: rest, current, true => splitFrom rest (current ++ ['\x22']) true
  | '\x22' :: rest, current, inQuotes => splitFrom rest current (!inQuotes)
  | ',' :: rest, current, false => current :: splitFrom rest [] false
  | char :: rest, current, inQuotes => splitFrom rest (current ++ [char]) inQuotes

/-- `splitCsvLine`. -/
def splitCsvLine (line : List Char) : List (List Char) := splitFrom line [] false

/-- `ImportRow`, with `none` for `null`. -/
abbrev ImportRow := InsertionMap String (Option String)

/-- A field is written. What is written to `__proto__` is no field. -/
def setField (row : ImportRow) (key : String) (value : Option String) : ImportRow :=
  if key = "__proto__" then row else row.set key value

/-- The text without blanks around it. -/
def trimmed (cs : List Char) : String := String.ofList (trim cs)

/-- The loop over the headers, with the values from the current one on. -/
def fillRow : ImportRow → List (List Char) → List (List Char) → ImportRow
  | row, [], _ => row
  | row, header :: headers, values =>
    fillRow (setField row (trimmed header) (values.head?.map trimmed)) headers values.tail

/-- `parseCsv`. -/
def parseCsv (content : String) : List ImportRow :=
  match splitLines (trim content.toList) with
  | [] | [_] => []
  | first :: lines =>
    let headers := splitCsvLine first
    ((lines.map trim).filter (· ≠ [])).map fun line => fillRow .empty headers (splitCsvLine line)

/-- A table as it is written. -/
def csvText (headers : List String) (rows : List (List String)) : String :=
  String.ofList ((headers :: rows).flatMap fun cells => (toCsvRow cells).toList)

/-! ### One row -/

/-- `escapeCsvCell`, on the characters of a cell. -/
def escapeChars (cell : List Char) : List Char :=
  if cell.any fun c => c = quoteMark ∨ c = ',' ∨ c = '\r' ∨ c = '\n' then
    quoteMark :: (cell.flatMap fun c => if c = quoteMark then [quoteMark, quoteMark] else [c]) ++
      [quoteMark]
  else cell

/-- The characters of a row, without the end of the line. -/
def csvRow (cells : List (List Char)) : List Char := [','].intercalate (cells.map escapeChars)

theorem toList_escapeCsvCell (cell : String) :
    (escapeCsvCell cell).toList = escapeChars cell.toList := by
  rw [escapeCsvCell, escapeChars]
  split_ifs
  · exact String.toList_ofList
  · rfl

theorem toList_toCsvRow (cells : List String) :
    (toCsvRow cells).toList = csvRow (cells.map String.toList) ++ ['\r', '\n'] := by
  rw [toCsvRow, String.toList_ofList, csvRow, List.map_map]
  simp only [toList_escapeCsvCell]
  rfl

theorem csvRow_singleton (cell : List Char) : csvRow [cell] = escapeChars cell := by
  simp [csvRow, List.intercalate]

theorem csvRow_cons (cell : List Char) {cells : List (List Char)} (h : cells ≠ []) :
    csvRow (cell :: cells) = escapeChars cell ++ ',' :: csvRow cells := by
  obtain ⟨next, rest, rfl⟩ := List.exists_cons_of_ne_nil h
  simp [csvRow, List.intercalate]

/-- A cell is written as it is, or with quotation marks around it. -/
theorem escapeChars_cases (cell : List Char) :
    (escapeChars cell = cell ∧ ∀ c ∈ cell, c ≠ quoteMark ∧ c ≠ ',' ∧ c ≠ '\r' ∧ c ≠ '\n') ∨
      escapeChars cell = quoteMark :: (cell.flatMap fun c =>
        if c = quoteMark then [quoteMark, quoteMark] else [c]) ++ [quoteMark] := by
  rw [escapeChars]
  split_ifs with hspecial
  · exact .inr rfl
  · refine .inl ⟨rfl, fun c hc => ?_⟩
    rw [List.any_eq_true] at hspecial
    simp only [not_exists, not_and, decide_eq_true_eq, not_or] at hspecial
    exact hspecial c hc

/-- The character is kept. -/
theorem splitFrom_cons {c : Char} {rest current : List Char} {inQuotes : Bool}
    (hquote : c ≠ quoteMark) (hcomma : inQuotes = false → c ≠ ',') :
    splitFrom (c :: rest) current inQuotes = splitFrom rest (current ++ [c]) inQuotes :=
  splitFrom.eq_5 current inQuotes c rest hquote (fun _ _ hc _ => hquote hc) hcomma

theorem splitFrom_plain {cs rest current : List Char}
    (h : ∀ c ∈ cs, c ≠ quoteMark ∧ c ≠ ',') :
    splitFrom (cs ++ rest) current false = splitFrom rest (current ++ cs) false := by
  induction cs generalizing current with
  | nil => rw [List.nil_append, List.append_nil]
  | cons c cs ih =>
    obtain ⟨hquote, hcomma⟩ := h c List.mem_cons_self
    rw [List.cons_append, splitFrom_cons hquote fun _ => hcomma,
      ih fun d hd => h d (List.mem_cons_of_mem c hd), List.append_assoc, List.singleton_append]

/-- Within quotation marks all characters are kept, and a pair of marks is one of them. -/
theorem splitFrom_quoted {rest : List Char} (hrest : rest.head? ≠ some quoteMark)
    (cell current : List Char) :
    splitFrom ((cell.flatMap fun c => if c = quoteMark then [quoteMark, quoteMark] else [c]) ++
        quoteMark :: rest) current true = splitFrom rest (current ++ cell) false := by
  induction cell generalizing current with
  | nil =>
    rw [List.flatMap_nil, List.nil_append, List.append_nil]
    refine splitFrom.eq_3 current true rest fun next _ hnext => hrest ?_
    rw [hnext]
    rfl
  | cons c cell ih =>
    rw [List.flatMap_cons, List.append_assoc]
    by_cases hquote : c = quoteMark
    · subst hquote
      rw [if_pos rfl, List.cons_append, List.singleton_append]
      refine (splitFrom.eq_2 current _).trans ?_
      rw [ih, List.append_assoc]
      rfl
    · rw [if_neg hquote, List.singleton_append, splitFrom_cons hquote (by simp), ih,
        List.append_assoc, List.singleton_append]

/-- A cell is read back from the line, whatever follows it. -/
theorem splitFrom_escapeChars {rest : List Char} (hrest : rest.head? ≠ some quoteMark)
    (cell : List Char) :
    splitFrom (escapeChars cell ++ rest) [] false = splitFrom rest cell false := by
  rcases escapeChars_cases cell with ⟨heq, hplain⟩ | heq
  · rw [heq, splitFrom_plain fun c hc => ⟨(hplain c hc).1, (hplain c hc).2.1⟩, List.nil_append]
  · rw [heq, List.append_assoc, List.cons_append, List.singleton_append]
    refine (splitFrom.eq_3 [] false _ fun _ h => absurd h (by decide)).trans ?_
    exact splitFrom_quoted hrest cell []

/-- The cells of a row are read back from its line. -/
theorem splitCsvLine_csvRow {cells : List (List Char)} (h : cells ≠ []) :
    splitCsvLine (csvRow cells) = cells := by
  rw [splitCsvLine]
  induction cells with
  | nil => exact absurd rfl h
  | cons cell cells ih =>
    rcases eq_or_ne cells [] with rfl | hcells
    · rw [csvRow_singleton, ← List.append_nil (escapeChars cell),
        splitFrom_escapeChars (by simp) cell, splitFrom.eq_1]
    · rw [csvRow_cons cell hcells, splitFrom_escapeChars (by simp [quoteMark]) cell,
        splitFrom.eq_4, ih hcells]

/-! ### One row that is trimmed -/

theorem trim_eq_nil_iff {cs : List Char} : trim cs = [] ↔ ∀ c ∈ cs, isTrimmed c = true := by
  have htrim : trim cs = (cs.dropWhile isTrimmed).rdropWhile isTrimmed := rfl
  rw [htrim, List.rdropWhile_eq_nil_iff]
  constructor
  · intro h c hc
    rw [← List.takeWhile_append_dropWhile (p := isTrimmed) (l := cs), List.mem_append] at hc
    exact hc.elim List.mem_takeWhile_imp (h c)
  · intro h c hc
    exact h c ((List.dropWhile_sublist _).subset hc)

/-- A text that is trimmed already starts with no blank. -/
theorem dropWhile_eq_self_of_trim_eq_self {cs : List Char} (h : trim cs = cs) :
    cs.dropWhile isTrimmed = cs := by
  refine (List.dropWhile_suffix isTrimmed).eq_of_length_le ?_
  have hprefix := (List.rdropWhile_prefix isTrimmed (cs.dropWhile isTrimmed)).length_le
  exact (congrArg List.length h).symm.le.trans hprefix

/-- Blanks at the end do not change what is left when a text is trimmed. -/
theorem trim_append_blanks {cs blanks : List Char} (h : ∀ c ∈ blanks, isTrimmed c = true) :
    trim (cs ++ blanks) = trim cs := by
  have hrev : ∀ ds : List Char, (ds ++ blanks).rdropWhile isTrimmed = ds.rdropWhile isTrimmed := by
    intro ds
    rw [List.rdropWhile, List.reverse_append,
      List.dropWhile_append_of_pos fun c hc => h c (List.mem_reverse.1 hc), List.rdropWhile]
  change ((cs ++ blanks).dropWhile isTrimmed).rdropWhile isTrimmed =
    (cs.dropWhile isTrimmed).rdropWhile isTrimmed
  rw [List.dropWhile_append]
  split_ifs with hempty
  · rw [List.isEmpty_iff.1 hempty, List.dropWhile_eq_nil_iff.2 h]
  · exact hrev _

theorem trim_dropWhile (cs : List Char) : trim (cs.dropWhile isTrimmed) = trim cs := by
  rw [trim, List.dropWhile_idempotent, trim]

theorem trim_rdropWhile (cs : List Char) : trim (cs.rdropWhile isTrimmed) = trim cs := by
  conv_rhs => rw [← List.rdropWhile_append_rtakeWhile (p := isTrimmed) (l := cs)]
  exact (trim_append_blanks fun c hc => List.mem_rtakeWhile_imp hc).symm

theorem dropWhile_append_cons {xs ys : List Char} {c : Char} (h : isTrimmed c = false) :
    (xs ++ c :: ys).dropWhile isTrimmed = xs.dropWhile isTrimmed ++ c :: ys := by
  rw [List.dropWhile_append]
  split_ifs with hempty
  · rw [List.isEmpty_iff.1 hempty, List.nil_append, List.dropWhile_cons_of_neg (by simp [h])]
  · rfl

theorem rdropWhile_append_cons {xs ys : List Char} {c : Char} (h : isTrimmed c = false) :
    (xs ++ c :: ys).rdropWhile isTrimmed = xs ++ c :: ys.rdropWhile isTrimmed := by
  have hrev : (xs ++ c :: ys).reverse = ys.reverse ++ c :: xs.reverse := by simp
  rw [List.rdropWhile, hrev, dropWhile_append_cons h, List.reverse_append, List.reverse_cons,
    List.reverse_reverse, List.append_assoc, List.singleton_append, List.rdropWhile]

theorem isTrimmed_quoteMark : isTrimmed quoteMark = false := by decide

theorem isTrimmed_comma : isTrimmed ',' = false := by decide

theorem isTrimmed_lineEnd : ∀ c ∈ ['\r', '\n'], isTrimmed c = true :=
  List.forall_mem_cons.2 ⟨rfl, List.forall_mem_singleton.2 rfl⟩

theorem escapeChars_of_plain {cell : List Char}
    (h : ∀ c ∈ cell, c ≠ quoteMark ∧ c ≠ ',' ∧ c ≠ '\r' ∧ c ≠ '\n') : escapeChars cell = cell := by
  refine if_neg fun hspecial => ?_
  obtain ⟨c, hc, hany⟩ := List.any_eq_true.1 hspecial
  have hplain := h c hc
  simp only [decide_eq_true_eq] at hany
  tauto

/-- Blanks at the start of a written cell are blanks at the start of the cell. -/
theorem exists_dropWhile_escapeChars (cell : List Char) :
    ∃ cell', (escapeChars cell).dropWhile isTrimmed = escapeChars cell' ∧
      trim cell' = trim cell := by
  rcases escapeChars_cases cell with ⟨heq, hplain⟩ | heq
  · refine ⟨cell.dropWhile isTrimmed, ?_, trim_dropWhile cell⟩
    rw [heq, escapeChars_of_plain fun c hc => hplain c ((List.dropWhile_sublist _).subset hc)]
  · refine ⟨cell, ?_, rfl⟩
    rw [heq]
    exact List.dropWhile_cons_of_neg (by simp [isTrimmed_quoteMark])

theorem dropWhile_csvRow_cons {cell : List Char} (hne : cell ≠ [])
    (h : cell.dropWhile isTrimmed = cell) (cells : List (List Char)) :
    (csvRow (cell :: cells)).dropWhile isTrimmed = csvRow (cell :: cells) := by
  have hcell : ∀ rest, (escapeChars cell ++ rest).dropWhile isTrimmed =
      escapeChars cell ++ rest := by
    intro rest
    rcases escapeChars_cases cell with ⟨heq, -⟩ | heq
    · rw [heq, List.dropWhile_append, h, if_neg (by simpa using hne)]
    · rw [heq]
      exact List.dropWhile_cons_of_neg (by simp [isTrimmed_quoteMark])
  rcases eq_or_ne cells [] with rfl | hcells
  · simpa [csvRow_singleton] using hcell []
  · rw [csvRow_cons cell hcells, hcell]

theorem exists_rdropWhile_escapeChars (cell : List Char) :
    ∃ cell', (escapeChars cell).rdropWhile isTrimmed = escapeChars cell' ∧
      trim cell' = trim cell := by
  rcases escapeChars_cases cell with ⟨heq, hplain⟩ | heq
  · refine ⟨cell.rdropWhile isTrimmed, ?_, trim_rdropWhile cell⟩
    rw [heq, escapeChars_of_plain fun c hc => hplain c ((List.rdropWhile_prefix _ _).subset hc)]
  · refine ⟨cell, ?_, rfl⟩
    rw [heq, List.rdropWhile_concat_neg _ _ _ (by simp [isTrimmed_quoteMark])]

theorem exists_dropWhile_csvRow {cells : List (List Char)} (h : cells ≠ []) :
    ∃ cells', (csvRow cells).dropWhile isTrimmed = csvRow cells' ∧
      cells'.map trim = cells.map trim := by
  obtain ⟨cell, cells, rfl⟩ := List.exists_cons_of_ne_nil h
  obtain ⟨cell', hdrop, htrim⟩ := exists_dropWhile_escapeChars cell
  refine ⟨cell' :: cells, ?_, by rw [List.map_cons, List.map_cons, htrim]⟩
  rcases eq_or_ne cells [] with rfl | hcells
  · rw [csvRow_singleton, csvRow_singleton, hdrop]
  · rw [csvRow_cons cell hcells, csvRow_cons cell' hcells, dropWhile_append_cons isTrimmed_comma,
      hdrop]

theorem exists_rdropWhile_csvRow {cells : List (List Char)} (h : cells ≠ []) :
    ∃ cells', (csvRow cells).rdropWhile isTrimmed = csvRow cells' ∧
      cells'.map trim = cells.map trim := by
  induction cells with
  | nil => exact absurd rfl h
  | cons cell cells ih =>
    rcases eq_or_ne cells [] with rfl | hcells
    · obtain ⟨cell', hdrop, htrim⟩ := exists_rdropWhile_escapeChars cell
      exact ⟨[cell'], by rw [csvRow_singleton, csvRow_singleton, hdrop], by simp [htrim]⟩
    · obtain ⟨cells', hdrop, htrim⟩ := ih hcells
      have hcells' : cells' ≠ [] := fun hnil => hcells (by simpa [hnil] using htrim)
      refine ⟨cell :: cells', ?_, by rw [List.map_cons, List.map_cons, htrim]⟩
      rw [csvRow_cons cell hcells, csvRow_cons cell hcells', rdropWhile_append_cons isTrimmed_comma,
        hdrop]

/-- A line that is trimmed is the line of cells that are the same but for blanks around them. -/
theorem exists_trim_csvRow {cells : List (List Char)} (h : cells ≠ []) :
    ∃ cells', cells' ≠ [] ∧ trim (csvRow cells) = csvRow cells' ∧
      cells'.map trim = cells.map trim := by
  obtain ⟨front, hfront, htrim⟩ := exists_dropWhile_csvRow h
  have hne : front ≠ [] := fun hnil => h (by simpa [hnil] using htrim)
  obtain ⟨cells', hback, htrim'⟩ := exists_rdropWhile_csvRow hne
  refine ⟨cells', fun hnil => hne (by simpa [hnil] using htrim'), ?_, htrim'.trans htrim⟩
  rw [← hback, ← hfront]
  rfl

/-- What is read of a line, after the values are trimmed. -/
theorem splitCsvLine_trim_csvRow {cells : List (List Char)} (h : cells ≠ []) :
    (splitCsvLine (trim (csvRow cells))).map trimmed = cells.map trimmed := by
  obtain ⟨cells', hne, hline, htrim⟩ := exists_trim_csvRow h
  have hmap : ∀ l : List (List Char), l.map trimmed = (l.map trim).map String.ofList := by
    intro l
    rw [List.map_map]
    rfl
  rw [hline, splitCsvLine_csvRow hne, hmap, htrim, hmap]

/-! ### The lines of a table -/

theorem mem_escapeChars {cell : List Char} {c : Char} (h : c ∈ escapeChars cell) :
    c ∈ cell ∨ c = quoteMark := by
  rcases escapeChars_cases cell with ⟨heq, _⟩ | heq
  · exact .inl (heq ▸ h)
  · simp only [heq, List.mem_append, List.mem_cons, List.mem_flatMap, List.not_mem_nil,
      or_false] at h
    rcases h with (rfl | ⟨d, hd, hc⟩) | rfl
    · exact .inr rfl
    · split_ifs at hc with hquote
      · exact .inr (by simpa using hc)
      · exact .inl (List.mem_singleton.1 hc ▸ hd)
    · exact .inr rfl

theorem mem_escapeChars_of_mem {cell : List Char} {c : Char} (h : c ∈ cell) :
    c ∈ escapeChars cell := by
  rcases escapeChars_cases cell with ⟨heq, _⟩ | heq
  · exact heq.symm ▸ h
  · rw [heq]
    refine List.mem_append_left _ (List.mem_cons_of_mem _ (List.mem_flatMap.2 ⟨c, h, ?_⟩))
    split_ifs with hquote
    · exact hquote ▸ List.mem_cons_self
    · exact List.mem_singleton.2 rfl

/-- The cells of a row are all written, and nothing else is but quotation marks and commas. -/
theorem mem_csvRow {cells : List (List Char)} {c : Char} (h : c ∈ csvRow cells) :
    c = quoteMark ∨ c = ',' ∨ ∃ cell ∈ cells, c ∈ cell := by
  induction cells with
  | nil => simp [csvRow, List.intercalate] at h
  | cons cell cells ih =>
    have hcell : c ∈ escapeChars cell →
        c = quoteMark ∨ c = ',' ∨ ∃ cell' ∈ cell :: cells, c ∈ cell' := by
      intro hc
      rcases mem_escapeChars hc with hmem | hquote
      · exact .inr (.inr ⟨cell, List.mem_cons_self, hmem⟩)
      · exact .inl hquote
    rcases eq_or_ne cells [] with rfl | hcells
    · exact hcell (csvRow_singleton cell ▸ h)
    · rw [csvRow_cons cell hcells, List.mem_append, List.mem_cons] at h
      rcases h with hc | hc | hc
      · exact hcell hc
      · exact .inr (.inl hc)
      · refine (ih hc).imp_right (Or.imp_right fun hmem => ?_)
        obtain ⟨cell', hcell', hc⟩ := hmem
        exact ⟨cell', List.mem_cons_of_mem _ hcell', hc⟩

theorem mem_csvRow_of_mem {cells : List (List Char)} {cell : List Char} {c : Char}
    (hcell : cell ∈ cells) (h : c ∈ cell) : c ∈ csvRow cells := by
  induction cells with
  | nil => exact absurd hcell List.not_mem_nil
  | cons first cells ih =>
    rcases eq_or_ne cells [] with rfl | hcells
    · rw [csvRow_singleton, ← List.mem_singleton.1 hcell]
      exact mem_escapeChars_of_mem h
    · rw [csvRow_cons first hcells]
      rcases List.mem_cons.1 hcell with rfl | hrest
      · exact List.mem_append_left _ (mem_escapeChars_of_mem h)
      · exact List.mem_append_right _ (List.mem_cons_of_mem _ (ih hrest))

/-- A row without line feeds is one line. -/
theorem notMem_csvRow {cells : List (List Char)} (h : ∀ cell ∈ cells, '\n' ∉ cell) :
    '\n' ∉ csvRow cells := by
  intro hmem
  rcases mem_csvRow hmem with hquote | hcomma | ⟨cell, hcell, hc⟩
  · exact absurd hquote (by decide)
  · exact absurd hcomma (by decide)
  · exact h cell hcell hc

/-- The end of a line, as it is written. -/
theorem splitLines_append_cons {line : List Char} (h : '\n' ∉ line) (rest : List Char) :
    splitLines (line ++ '\r' :: '\n' :: rest) = line :: splitLines rest := by
  obtain ⟨next, lines, hrest⟩ := List.exists_cons_of_ne_nil (List.splitOn_ne_nil '\n' rest)
  have hline : '\n' ∉ line ++ ['\r'] := by simpa using h
  have hsplit : (line ++ '\r' :: '\n' :: rest).splitOn '\n' =
      (line ++ ['\r']) :: next :: lines := by
    rw [← hrest, ← List.splitOn_append_cons_self_of_not_mem hline, List.append_assoc,
      List.singleton_append]
  rw [splitLines, hsplit, dropReturns, if_pos (by simp), List.dropLast_concat, splitLines, hrest]

/-- The lines of a text in which all lines but the last are ended. -/
theorem splitLines_flatMap {last : List Char} (lines : List (List Char))
    (h : ∀ line ∈ lines, '\n' ∉ line) (hlast : '\n' ∉ last) :
    splitLines ((lines.flatMap fun line => line ++ ['\r', '\n']) ++ last) = lines ++ [last] := by
  induction lines with
  | nil => rw [List.flatMap_nil, List.nil_append, splitLines, List.splitOn_eq_singleton hlast]; rfl
  | cons line lines ih =>
    have hsplit : (((line :: lines).flatMap fun line => line ++ ['\r', '\n']) ++ last) =
        line ++ '\r' :: '\n' :: ((lines.flatMap fun line => line ++ ['\r', '\n']) ++ last) := by
      simp
    rw [hsplit, splitLines_append_cons (h line List.mem_cons_self),
      ih fun l hl => h l (List.mem_cons_of_mem _ hl), List.cons_append]

/-- Only the last line of a text is trimmed at its end, when it is not blank. -/
theorem rdropWhile_append {xs ys : List Char} (h : ∃ c ∈ ys, isTrimmed c = false) :
    (xs ++ ys).rdropWhile isTrimmed = xs ++ ys.rdropWhile isTrimmed := by
  obtain ⟨c, hc, hblank⟩ := h
  obtain ⟨front, back, rfl⟩ := List.append_of_mem hc
  rw [← List.append_assoc, rdropWhile_append_cons hblank, rdropWhile_append_cons hblank,
    List.append_assoc]

/-- The text of a table, trimmed: its lines, with blanks lost at the end of the last one only. -/
theorem trim_csvText {header last : List String} {rows : List (List String)}
    (hstart : (csvRow (header.map String.toList)).dropWhile isTrimmed =
      csvRow (header.map String.toList))
    (hheader : csvRow (header.map String.toList) ≠ [])
    (hlast : ∃ c ∈ csvRow (last.map String.toList), isTrimmed c = false) :
    trim (csvText header (rows ++ [last])).toList =
      ((header :: rows).flatMap fun cells => csvRow (cells.map String.toList) ++ ['\r', '\n']) ++
        (csvRow (last.map String.toList)).rdropWhile isTrimmed := by
  have htext : (csvText header (rows ++ [last])).toList =
      ((header :: rows).flatMap fun cells => csvRow (cells.map String.toList) ++ ['\r', '\n']) ++
        (csvRow (last.map String.toList) ++ ['\r', '\n']) := by
    rw [csvText, String.toList_ofList, ← List.cons_append, List.flatMap_append]
    simp only [toList_toCsvRow, List.flatMap_singleton]
  have hdrop : ∀ rest, (((header :: rows).flatMap fun cells =>
      csvRow (cells.map String.toList) ++ ['\r', '\n']) ++ rest).dropWhile isTrimmed =
      ((header :: rows).flatMap fun cells => csvRow (cells.map String.toList) ++ ['\r', '\n']) ++
        rest := by
    intro rest
    rw [List.flatMap_cons, List.append_assoc, List.append_assoc, List.dropWhile_append, hstart,
      if_neg (by simpa using hheader)]
  obtain ⟨c, hc, hblank⟩ := hlast
  change ((csvText header (rows ++ [last])).toList.dropWhile isTrimmed).rdropWhile isTrimmed = _
  rw [htext, hdrop, rdropWhile_append ⟨c, List.mem_append_left _ hc, hblank⟩, List.rdropWhile,
    List.reverse_append,
    List.dropWhile_append_of_pos fun c hc => isTrimmed_lineEnd c (List.mem_reverse.1 hc),
    List.rdropWhile]

/-! ### Tables -/

/-- The fields of a row, one for each header, with the values in their order. -/
theorem entries_fillRow {headers values : List (List Char)} {row : ImportRow}
    (hlen : values.length = headers.length)
    (hnodup : (row.entries.map Prod.fst ++ headers.map trimmed).Nodup)
    (hproto : "__proto__" ∉ headers.map trimmed) :
    (fillRow row headers values).entries =
      row.entries ++ (headers.map trimmed).zip ((values.map trimmed).map some) := by
  induction headers generalizing row values with
  | nil => rw [fillRow, List.map_nil, List.zip_nil_left, List.append_nil]
  | cons header headers ih =>
    obtain ⟨value, values, rfl⟩ := List.exists_cons_of_length_eq_add_one hlen
    rw [List.map_cons, List.mem_cons, not_or] at hproto
    have hnew : trimmed header ∉ row.entries.map Prod.fst := by
      rw [List.map_cons] at hnodup
      exact fun hmem => (List.disjoint_of_nodup_append hnodup) hmem List.mem_cons_self
    have hset : (row.set (trimmed header) (some (trimmed value))).entries =
        row.entries ++ [(trimmed header, some (trimmed value))] := by
      rw [InsertionMap.set, dif_neg hnew]
    rw [fillRow, setField, if_neg (Ne.symm hproto.1), List.head?_cons, Option.map_some,
      List.tail_cons, ih (by simpa using hlen) ?_ hproto.2, hset]
    · simp
    · rw [hset]
      simpa [List.append_assoc] using hnodup

/-- A table with distinct headers that are not empty and have no blanks around them, and with rows
that are not blank. -/
structure IsTable (headers : List String) (rows : List (List String)) : Prop where
  nodup : headers.Nodup
  ne_empty : ∀ header ∈ headers, header ≠ ""
  trimmed_eq : ∀ header ∈ headers, trimmed header.toList = header
  rows_ne_nil : rows ≠ []
  length_eq : ∀ row ∈ rows, row.length = headers.length
  not_blank : ∀ row ∈ rows, ∃ cell ∈ row, trimmed cell.toList ≠ ""

/-- A table is read with these values: a row for each of its rows, in their order, with one field
for each header. The order of the fields is not looked at. -/
def ReadsAs (headers : List String) (rows values : List (List String)) : Prop :=
  List.Forall₂ (fun cells row => row.entries.Perm (headers.zip (cells.map some))) values
    (parseCsv (csvText headers rows))

instance (headers : List String) (rows values : List (List String)) :
    Decidable (ReadsAs headers rows values) :=
  inferInstanceAs (Decidable (List.Forall₂ _ _ _))

section

variable {headers : List String} {rows : List (List String)}

/-- The line of a row is not blank. -/
theorem IsTable.exists_mem_csvRow (h : IsTable headers rows) {row : List String}
    (hrow : row ∈ rows) : ∃ c ∈ csvRow (row.map String.toList), isTrimmed c = false := by
  obtain ⟨cell, hcell, hne⟩ := h.not_blank row hrow
  have htrim : ¬∀ c ∈ cell.toList, isTrimmed c = true := fun hall =>
    hne (by rw [trimmed, trim_eq_nil_iff.2 hall, String.ofList_nil])
  push Not at htrim
  obtain ⟨c, hc, hblank⟩ := htrim
  exact ⟨c, mem_csvRow_of_mem (List.mem_map_of_mem hcell) hc, Bool.eq_false_iff.2 hblank⟩

theorem IsTable.headers_ne_nil (h : IsTable headers rows) : headers ≠ [] := by
  rintro rfl
  obtain ⟨row, hrow⟩ := List.exists_mem_of_ne_nil rows h.rows_ne_nil
  obtain ⟨cell, hcell, -⟩ := h.not_blank row hrow
  rw [List.length_eq_zero_iff.1 (h.length_eq row hrow)] at hcell
  exact List.not_mem_nil hcell

/-- The line of the headers starts with no blank. -/
theorem IsTable.dropWhile_csvRow (h : IsTable headers rows) :
    csvRow (headers.map String.toList) ≠ [] ∧
      (csvRow (headers.map String.toList)).dropWhile isTrimmed =
        csvRow (headers.map String.toList) := by
  obtain ⟨header, rest, rfl⟩ := List.exists_cons_of_ne_nil h.headers_ne_nil
  have hne : header.toList ≠ [] := fun hnil =>
    h.ne_empty header List.mem_cons_self (String.toList_eq_nil_iff.1 hnil)
  refine ⟨?_, dropWhile_csvRow_cons hne (dropWhile_eq_self_of_trim_eq_self ?_) _⟩
  · obtain ⟨c, hc⟩ := List.exists_mem_of_ne_nil _ hne
    exact List.ne_nil_of_mem (mem_csvRow_of_mem List.mem_cons_self hc)
  · rw [← String.toList_ofList (l := trim header.toList)]
    exact congrArg String.toList (h.trimmed_eq header List.mem_cons_self)

theorem parseCsv_of_splitLines {content : String} {first : List Char} {lines : List (List Char)}
    (h : splitLines (trim content.toList) = first :: lines) (hlines : lines ≠ []) :
    parseCsv content = ((lines.map trim).filter (· ≠ [])).map fun line =>
      fillRow .empty (splitCsvLine first) (splitCsvLine line) := by
  obtain ⟨next, lines, rfl⟩ := List.exists_cons_of_ne_nil hlines
  rw [parseCsv, h]

/-- The lines that are read of a table. -/
theorem IsTable.splitLines_csvText (h : IsTable headers rows)
    (hfeed : ∀ row ∈ headers :: rows, ∀ cell ∈ row, '\n' ∉ cell.toList) :
    ∃ lines, splitLines (trim (csvText headers rows).toList) =
        csvRow (headers.map String.toList) :: lines ∧
      lines.map trim = rows.map fun row => trim (csvRow (row.map String.toList)) := by
  have hline : ∀ row ∈ headers :: rows, '\n' ∉ csvRow (row.map String.toList) := by
    intro row hrow
    refine notMem_csvRow fun cell hcell => ?_
    obtain ⟨text, htext, rfl⟩ := List.mem_map.1 hcell
    exact hfeed row hrow text htext
  obtain ⟨front, last, rfl⟩ := (List.eq_nil_or_concat' rows).resolve_left h.rows_ne_nil
  obtain ⟨hheader, hstart⟩ := h.dropWhile_csvRow
  have hfeedLast : '\n' ∉ (csvRow (last.map String.toList)).rdropWhile isTrimmed := fun hmem =>
    hline last (by simp) ((List.rdropWhile_prefix _ _).subset hmem)
  rw [trim_csvText hstart hheader (h.exists_mem_csvRow (by simp))]
  refine ⟨(front.map fun row => csvRow (row.map String.toList)) ++
    [(csvRow (last.map String.toList)).rdropWhile isTrimmed], ?_, ?_⟩
  · have hsplit := splitLines_flatMap
      ((headers :: front).map fun row => csvRow (row.map String.toList)) ?_ hfeedLast
    · rwa [List.flatMap_map] at hsplit
    · simp only [List.mem_map]
      rintro _ ⟨row, hrow, rfl⟩
      exact hline row (by simp at hrow ⊢; tauto)
  · simp only [List.map_append, List.map_map, List.map_singleton, trim_rdropWhile]
    rfl

/-- **What is read of a table**: the values without the blanks around them, if there is no line feed
in it and no field is `__proto__`. -/
theorem parseCsv_csvText (h : IsTable headers rows)
    (hfeed : ∀ row ∈ headers :: rows, ∀ cell ∈ row, '\n' ∉ cell.toList)
    (hproto : "__proto__" ∉ headers) :
    ReadsAs headers rows (rows.map fun row => row.map fun cell => trimmed cell.toList) := by
  have htrimmed : (headers.map String.toList).map trimmed = headers := by
    rw [List.map_map]
    exact (List.map_congr_left h.trimmed_eq).trans (List.map_id' headers)
  obtain ⟨lines, hlines, htrim⟩ := h.splitLines_csvText hfeed
  have hne : lines ≠ [] := fun hnil => h.rows_ne_nil (by simpa [hnil] using htrim)
  have hkept : (lines.map trim).filter (· ≠ []) =
      rows.map fun row => trim (csvRow (row.map String.toList)) := by
    rw [htrim, List.filter_eq_self]
    simp only [List.mem_map]
    rintro _ ⟨row, hrow, rfl⟩
    obtain ⟨c, hc, hblank⟩ := h.exists_mem_csvRow hrow
    simpa [trim_eq_nil_iff] using ⟨c, hc, hblank⟩
  rw [ReadsAs, parseCsv_of_splitLines hlines hne, hkept, List.map_map, List.forall₂_map_left_iff,
    List.forall₂_map_right_iff, List.forall₂_same]
  intro row hrow
  have hcells : (row.map String.toList) ≠ [] := by
    have hlen := h.length_eq row hrow
    have hpos := List.length_pos_of_ne_nil h.headers_ne_nil
    exact List.ne_nil_of_length_pos (by rw [List.length_map]; omega)
  have hvalues := splitCsvLine_trim_csvRow hcells
  refine List.Perm.of_eq ?_
  rw [Function.comp_apply, splitCsvLine_csvRow (by simpa using h.headers_ne_nil),
    entries_fillRow ?_ (by rw [htrimmed]; exact h.nodup) (by rwa [htrimmed]), htrimmed, hvalues]
  · simp only [List.map_map]
    rfl
  · have hlen := congrArg List.length hvalues
    simpa [h.length_eq row hrow] using hlen

end

theorem parseCsv_csvText_sample :
    ReadsAs ["id", "memo"] [["7", " a, \x22b\x22 "], [" ", "c\r"]]
      [["7", "a, \x22b\x22"], ["", "c"]] :=
  parseCsv_csvText
    ⟨by decide, by decide, by decide, by decide, by decide, by decide⟩ (by decide) (by decide)

/-- Blanks around a value are lost, a line feed ends a row, and a field `__proto__` is not set. -/
theorem not_readsAs :
    (IsTable ["a"] [[" x"]] ∧ ¬ReadsAs ["a"] [[" x"]] [[" x"]]) ∧
      (IsTable ["a"] [["x\ny"]] ∧ ¬ReadsAs ["a"] [["x\ny"]] [["x\ny"]]) ∧
      (IsTable ["__proto__"] [["x"]] ∧ ¬ReadsAs ["__proto__"] [["x"]] [["x"]]) :=
  ⟨⟨⟨by decide, by decide, by decide, by decide, by decide, by decide⟩, by decide⟩,
    ⟨⟨by decide, by decide, by decide, by decide, by decide, by decide⟩, by decide⟩,
    ⟨⟨by decide, by decide, by decide, by decide, by decide, by decide⟩, by decide⟩⟩

end SorobanPay.CsvImport
