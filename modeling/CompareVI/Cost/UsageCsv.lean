import CompareVI.Framework.Csv
import CompareVI.Framework.JsString

/-!
# Reading a usage export

`parseCsv` goes over the text of an export once. It collects the characters of a cell, the
cells of a row and the rows, and knows whether it is inside quotes. In both modes it looks
one character ahead: a quote inside quotes may be the first of two, and a carriage return may
be the first half of a line end. What is collected when the text ends is flushed, and rows
that hold one blank cell are dropped.

The proof follows the text: a cell (`parseFrom_cell`), a row (`parseFrom_row`), a line end
(`parseFrom_lineEnd`), the table (`parseFrom_table`). Each part says which state the loop is in
behind it, for whatever comes next, as far as what comes next does not look like a
continuation. `parseCsv_of_encodesTable` is the result: no text of a table with two columns or
more is read as another table.
-/

open Framework Framework.Csv

namespace CompareVI.Cost

/-! ### The reader -/

/-- What the loop of `parseCsv` has collected. -/
structure CsvState where
  rows : List (List String)
  row : List String
  cell : List Char
  inQuotes : Bool

namespace CsvState

/-- `row.push(cell)`, and the cell begins anew. -/
def pushCell (s : CsvState) : CsvState :=
  { s with row := s.row ++ [String.ofList s.cell], cell := [] }

/-- `rows.push(row)` behind it, and the row begins anew. -/
def pushRow (s : CsvState) : CsvState :=
  { s with rows := s.rows ++ [s.pushCell.row], row := [], cell := [] }

/-- `cell += char`. -/
def pushChar (s : CsvState) (char : Char) : CsvState := { s with cell := s.cell ++ [char] }

end CsvState

/-- The body of the loop of `parseCsv` at a character, with the one behind it, and whether
that one is taken as well (`index += 1`). -/
def csvStep (s : CsvState) (char : Char) (next : Option Char) : CsvState × Bool :=
  if s.inQuotes then
    if char = '"' then
      if next = some '"' then (s.pushChar '"', true)
      else ({ s with inQuotes := false }, false)
    else (s.pushChar char, false)
  else if char = '"' then ({ s with inQuotes := true }, false)
  else if char = ',' then (s.pushCell, false)
  else if char = '\r' ∨ char = '\n' then
    (s.pushRow, decide (char = '\r') && decide (next = some '\n'))
  else (s.pushChar char, false)

/-- The loop of `parseCsv` from a character on. -/
def parseFrom (s : CsvState) : List Char → CsvState
  | [] => s
  | [char] => (csvStep s char none).1
  | char :: next :: rest =>
    let step := csvStep s char (some next)
    if step.2 then parseFrom step.1 rest else parseFrom step.1 (next :: rest)

def CsvState.flush (s : CsvState) : List (List String) :=
  if s.cell.length > 0 ∨ s.row.length > 0 then s.pushRow.rows else s.rows

def isBlankRow (row : List String) : Bool :=
  match row with
  | [cell] => JsString.trim cell = ""
  | _ => false

def parseCsv (text : String) : List (List String) :=
  (parseFrom ⟨[], [], [], false⟩ text.toList).flush.filter fun row => !isBlankRow row

/-! ### The loop over the parts of a text -/

section Parts

variable {rows : List (List String)} {row : List String} {cell : List Char} {char : Char}
  {s : CsvState} {rest : List Char}

theorem parseFrom_cons (h : (csvStep s char rest.head?).2 = false) :
    parseFrom s (char :: rest) = parseFrom (csvStep s char rest.head?).1 rest := by
  cases rest with
  | nil => rfl
  | cons next rest =>
    rw [parseFrom]
    rw [List.head?_cons] at h ⊢
    rw [h, if_neg Bool.false_ne_true]

theorem parseFrom_cons_cons {next : Char} (h : (csvStep s char (some next)).2 = true) :
    parseFrom s (char :: next :: rest) = parseFrom (csvStep s char (some next)).1 rest := by
  rw [parseFrom, h, if_pos rfl]

theorem parseFrom_plain {t : List Char} (ht : ∀ c ∈ t, ¬ IsSpecial c) :
    parseFrom ⟨rows, row, cell, false⟩ (t ++ rest) =
      parseFrom ⟨rows, row, cell ++ t, false⟩ rest := by
  induction t generalizing cell with
  | nil => rw [List.append_nil]; rfl
  | cons c t ih =>
    have hc : ¬ (c = ',' ∨ c = '"' ∨ c = '\r' ∨ c = '\n') := ht c List.mem_cons_self
    simp only [not_or] at hc
    obtain ⟨hcomma, hquote, hcr, hlf⟩ := hc
    have hstep : csvStep ⟨rows, row, cell, false⟩ c (t ++ rest).head? =
        (⟨rows, row, cell ++ [c], false⟩, false) := by
      simp [csvStep, hquote, hcomma, hcr, hlf, CsvState.pushChar]
    rw [List.cons_append, parseFrom_cons (by rw [hstep]), hstep,
      ih fun d hd => ht d (List.mem_cons_of_mem _ hd), List.append_assoc]
    rfl

theorem parseFrom_escape {t : List Char} (hrest : Separated rest) :
    parseFrom ⟨rows, row, cell, true⟩ (escape t ++ '"' :: rest) =
      parseFrom ⟨rows, row, cell ++ t, false⟩ rest := by
  induction t generalizing cell with
  | nil =>
    have hnext : rest.head? ≠ some '"' := by
      intro hhead
      rcases hrest '"' hhead with h | h | h <;> exact absurd h (by decide)
    have hstep : csvStep ⟨rows, row, cell, true⟩ '"' rest.head? =
        (⟨rows, row, cell, false⟩, false) := by
      simp [csvStep, hnext]
    rw [escape, List.nil_append, parseFrom_cons (by rw [hstep]), hstep, List.append_nil]
  | cons c t ih =>
    rw [escape]
    split
    · next hc =>
      subst hc
      have hstep : csvStep ⟨rows, row, cell, true⟩ '"' (some '"') =
          (⟨rows, row, cell ++ ['"'], true⟩, true) := rfl
      rw [List.cons_append, List.cons_append, parseFrom_cons_cons (by rw [hstep]), hstep, ih,
        List.append_assoc]
      rfl
    · next hc =>
      have hstep : csvStep ⟨rows, row, cell, true⟩ c (escape t ++ '"' :: rest).head? =
          (⟨rows, row, cell ++ [c], true⟩, false) := by
        simp [csvStep, hc, CsvState.pushChar]
      rw [List.cons_append, parseFrom_cons (by rw [hstep]), hstep, ih, List.append_assoc]
      rfl

theorem parseFrom_cell {value : String} {t : List Char} (h : EncodesCell value t)
    (hrest : Separated rest) :
    parseFrom ⟨rows, row, [], false⟩ (t ++ rest) =
      parseFrom ⟨rows, row, value.toList, false⟩ rest := by
  cases h with
  | plain hplain => exact parseFrom_plain hplain
  | quoted =>
    rw [List.cons_append, List.append_assoc, List.singleton_append]
    have hquote : csvStep ⟨rows, row, [], false⟩ '"'
        (escape value.toList ++ '"' :: rest).head? = (⟨rows, row, [], true⟩, false) := rfl
    rw [parseFrom_cons (by rw [hquote]), hquote, parseFrom_escape hrest]
    rfl

/-- The loop has read a row, up to its last cell. -/
structure RowRead (s : CsvState) (rows : List (List String)) (row : List String) : Prop where
  rows : s.rows = rows
  row : s.row ++ [String.ofList s.cell] = row
  outside : s.inQuotes = false

theorem RowRead.pushRow (h : RowRead s rows row) :
    s.pushRow = ⟨rows ++ [row], [], [], false⟩ := by
  obtain ⟨rfl, rfl, houtside⟩ := h
  rw [← houtside]
  rfl

theorem parseFrom_row {value : List String} {t : List Char} (h : EncodesRow value t)
    (hrest : Separated rest) :
    ∃ s, parseFrom ⟨rows, row, [], false⟩ (t ++ rest) = parseFrom s rest ∧
      RowRead s rows (row ++ value) := by
  induction h generalizing row with
  | @last value t h =>
    refine ⟨⟨rows, row, value.toList, false⟩, parseFrom_cell h hrest, rfl, ?_, rfl⟩
    rw [String.ofList_toList]
  | @cons value values t u h hrow ih =>
    obtain ⟨s, hs, hread⟩ := @ih (row ++ [value])
    refine ⟨s, ?_, by rwa [List.append_assoc] at hread⟩
    have hcomma : csvStep ⟨rows, row, value.toList, false⟩ ',' (u ++ rest).head? =
        (⟨rows, row ++ [value], [], false⟩, false) := by
      simp [csvStep, CsvState.pushCell, String.ofList_toList]
    rw [List.append_assoc, List.cons_append, parseFrom_cell h (separated_comma _),
      parseFrom_cons (by rw [hcomma]), hcomma, hs]

theorem parseFrom_lineEnd {e : List Char} (he : LineEnd e) (hs : RowRead s rows row)
    (hrest : rest.head? ≠ some '\n') :
    parseFrom s (e ++ rest) = parseFrom ⟨rows ++ [row], [], [], false⟩ rest := by
  have houtside := hs.outside
  have hpush := hs.pushRow
  cases he with
  | lf =>
    have hstep : csvStep s '\n' rest.head? = (⟨rows ++ [row], [], [], false⟩, false) := by
      simp [csvStep, houtside, hpush]
    rw [List.singleton_append, parseFrom_cons (by rw [hstep]), hstep]
  | cr =>
    have hstep : csvStep s '\r' rest.head? = (⟨rows ++ [row], [], [], false⟩, false) := by
      simp [csvStep, houtside, hpush, hrest]
    rw [List.singleton_append, parseFrom_cons (by rw [hstep]), hstep]
  | crlf =>
    have hstep : csvStep s '\r' (some '\n') = (⟨rows ++ [row], [], [], false⟩, true) := by
      simp [csvStep, houtside, hpush]
    rw [List.cons_append, List.singleton_append, parseFrom_cons_cons (by rw [hstep]), hstep]

theorem head_ne_lf_of_encodesTable {table : List (List String)} {t : List Char}
    (h : EncodesTable table t) (hcolumns : ∀ row ∈ table, 2 ≤ row.length) :
    t.head? ≠ some '\n' := by
  cases h with
  | nil => exact nofun
  | last h =>
    have hhead := h.head_ne_lf (hcolumns _ List.mem_cons_self) []
    rwa [List.append_nil] at hhead
  | cons h he hrows => exact h.head_ne_lf (hcolumns _ List.mem_cons_self) _

theorem flush_parseFrom_table {table : List (List String)} {t : List Char}
    (h : EncodesTable table t) (hcolumns : ∀ row ∈ table, 2 ≤ row.length) :
    (parseFrom ⟨rows, [], [], false⟩ t).flush = rows ++ table := by
  induction h generalizing rows with
  | nil => exact (List.append_nil rows).symm
  | @last row t h =>
    obtain ⟨s, hs, hread⟩ := @parseFrom_row rows [] [] row t h separated_nil
    rw [List.append_nil] at hs
    rw [List.nil_append] at hread
    have hlength : s.row.length + 1 = row.length := by
      rw [← hread.row, List.length_append, List.length_singleton]
    have hrow : s.row.length > 0 := by
      have := hcolumns row List.mem_cons_self
      omega
    rw [hs, parseFrom, CsvState.flush, if_pos (.inr hrow), hread.pushRow]
  | @cons row table t e u h he hrows ih =>
    have hcolumns' : ∀ row ∈ table, 2 ≤ row.length := fun row' h' =>
      hcolumns row' (List.mem_cons_of_mem _ h')
    obtain ⟨s, hs, hread⟩ := @parseFrom_row rows [] (e ++ u) row t h (he.separated u)
    rw [List.nil_append] at hread
    rw [hs, parseFrom_lineEnd he hread (head_ne_lf_of_encodesTable hrows hcolumns'),
      ih hcolumns', List.append_assoc]
    rfl

end Parts

/-- **A usage export is read as the table it encodes.** -/
theorem parseCsv_of_encodesTable (table : List (List String)) (text : String)
    (hcolumns : ∀ row ∈ table, 2 ≤ row.length) (h : EncodesTable table text.toList) :
    parseCsv text = table := by
  rw [parseCsv, flush_parseFrom_table h hcolumns, List.nil_append, List.filter_eq_self]
  intro row hrow
  have hlength := hcolumns row hrow
  match row, hlength with
  | _ :: _ :: _, _ => rfl

def quotedTable : List (List String) := [["a", "b,\"c\""], ["", "d\r\ne"]]

def quotedText : String := "a,\"b,\"\"c\"\"\"\r,\"d\r\ne\""

/-- The text is read as the table. -/
theorem parseCsv_of_encodesTable_quotedText : parseCsv quotedText = quotedTable := by
  refine parseCsv_of_encodesTable quotedTable quotedText (by decide) ?_
  have hfirst : EncodesRow ["a", "b,\"c\""] "a,\"b,\"\"c\"\"\"".toList :=
    .cons (.plain (by simp [IsSpecial])) (.last .quoted)
  have hsecond : EncodesRow ["", "d\r\ne"] ",\"d\r\ne\"".toList :=
    .cons (.plain (by simp [IsSpecial])) (.last .quoted)
  exact .cons hfirst .cr (.last hsecond)

end CompareVI.Cost
