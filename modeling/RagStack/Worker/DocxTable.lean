import RagStack.Worker.Normalizer

/-!
# Tables of a DOCX file

`app/services/parsers/docx_parser.py`, lines 96–124: row text for the rows of a
table. The cells keep the number of their column, so that it can be said which
header stands over a value; the texts do not depend on it.

* `infix_renderRow`: a cell that is not empty occurs in the block of its row.
* `columnsKept_iff`: a value is rendered under the header of its own column if and
  only if the rows with as many filled cells as the header row have them in its
  columns.
-/

namespace RagStack.Worker

open RagStack.Common

/-- A cell of a table: its column, counted from zero, and its stripped text. -/
structure TableCell where
  column : ℕ
  text : Text
deriving DecidableEq, Repr

/-- The block of a row; `parser` is `python-docx`, `structure_source` is `docx_table`. -/
structure TableBlock where
  text : Text
  kind : BlockKind
  columnCount : ℕ
  headers : List Text
deriving DecidableEq, Repr

/-- The cells of a row that are not empty: `[cell for cell in row if cell]`. -/
def filledCells (row : List Text) : List TableCell :=
  ((List.range row.length).zip row).filterMap fun cell =>
    if stripText cell.2 = [] then none else some { column := cell.1, text := stripText cell.2 }

/-- `rows` (lines 97–98): the rows that have a cell. -/
def filledRows (table : List (List Text)) : List (List TableCell) :=
  (table.map filledCells).filter fun row => row ≠ []

/-- `headers` (line 102): the first row, if the second has as many cells. -/
def tableHeaders (rows : List (List TableCell)) : List TableCell :=
  match rows with
  | first :: second :: _ => if first.length = second.length then first else []
  | _ => []

/-- `data_rows` (line 103). -/
def dataRows (rows : List (List TableCell)) : List (List TableCell) :=
  if tableHeaders rows = [] then rows else rows.tail

/-- The pairs `zip(headers, row)`, if the row is rendered with the headers. -/
def rowPairs (headers row : List TableCell) : Option (List (TableCell × TableCell)) :=
  if headers ≠ [] ∧ row.length = headers.length then some (headers.zip row) else none

/-- `f"{header}: {value}"`. -/
def renderPair (p : TableCell × TableCell) : Text := p.1.text ++ ": ".toList ++ p.2.text

/-- `rendered` (lines 106–109). -/
def renderRow (headers row : List TableCell) : Text :=
  match rowPairs headers row with
  | some pairs =>
    join " | ".toList ((pairs.filter fun p => p.2.text ≠ []).map renderPair)
  | none => join " | ".toList (row.map TableCell.text)

/-- `_parse_table` (lines 96–124). -/
def parseTable (table : List (List Text)) : List TableBlock :=
  let rows := filledRows table
  let headers := tableHeaders rows
  (dataRows rows).filterMap fun row =>
    if renderRow headers row = [] then none
    else
      some { text := renderRow headers row, kind := .tableRow, columnCount := row.length,
             headers := headers.map TableCell.text }

/-! ## The cells of a row occur in its block -/

theorem text_of_mem_filledCells {row : List Text} {cell : TableCell} (h : cell ∈ filledCells row) :
    cell.text ≠ [] := by
  obtain ⟨⟨column, raw⟩, -, hcell⟩ := List.mem_filterMap.mp h
  split_ifs at hcell with hempty
  cases hcell
  exact hempty

theorem infix_renderPair (p : TableCell × TableCell) : p.2.text <:+: renderPair p :=
  (List.suffix_append _ _).isInfix

/-- A cell that is not empty occurs in the text of its row. -/
theorem infix_renderRow {headers row : List TableCell} (hrow : ∀ cell ∈ row, cell.text ≠ [])
    {cell : TableCell} (hcell : cell ∈ row) : cell.text <:+: renderRow headers row := by
  unfold renderRow rowPairs
  by_cases hpairs : headers ≠ [] ∧ row.length = headers.length
  · rw [if_pos hpairs]
    obtain ⟨i, hi, rfl⟩ := List.mem_iff_getElem.mp hcell
    have hheader : i < headers.length := hpairs.2 ▸ hi
    have hmem : (headers[i], row[i]) ∈ headers.zip row := by
      apply List.mem_iff_getElem.mpr
      exact ⟨i, by rw [List.length_zip]; omega, List.getElem_zip⟩
    apply (infix_renderPair (headers[i], row[i])).trans
    apply infix_join
    apply List.mem_map_of_mem
    exact List.mem_filter.mpr ⟨hmem, by simpa using hrow _ hcell⟩
  · rw [if_neg hpairs]
    exact infix_join (List.mem_map_of_mem hcell)

/-! ## Columns -/

/-- The columns of the cells of a row. -/
def columnsOf (row : List TableCell) : List ℕ := row.map TableCell.column

/-- Every pair that is rendered has a value and the header of its column, and every cell that
    is not empty occurs in the block of its row. -/
structure ColumnsKept (table : List (List Text)) : Prop where
  pairs : ∀ row ∈ dataRows (filledRows table),
    ∀ pairs ∈ rowPairs (tableHeaders (filledRows table)) row, ∀ p ∈ pairs, p.1.column = p.2.column
  cells : ∀ row ∈ dataRows (filledRows table), ∃ block ∈ parseTable table,
    block.text = renderRow (tableHeaders (filledRows table)) row ∧
      ∀ cell ∈ row, cell.text <:+: block.text

/-- Pairs with equal columns are lists with equal columns. -/
theorem columns_zip_iff {headers : List TableCell} :
    ∀ {row : List TableCell}, row.length = headers.length →
      ((∀ p ∈ headers.zip row, p.1.column = p.2.column) ↔ columnsOf row = columnsOf headers) := by
  induction headers with
  | nil => intro row h; simp [columnsOf, List.length_eq_zero_iff.mp h]
  | cons header headers ih =>
    intro row h
    cases row with
    | nil => cases h
    | cons cell row =>
      have htail := ih (Nat.succ_injective h)
      rw [List.zip_cons_cons, List.forall_mem_cons, htail]
      simp [columnsOf, eq_comm]

theorem mem_filledRows {table : List (List Text)} {row : List TableCell}
    (h : row ∈ filledRows table) : row ≠ [] ∧ ∀ cell ∈ row, cell.text ≠ [] := by
  obtain ⟨hmem, hne⟩ := List.mem_filter.mp h
  obtain ⟨raw, -, rfl⟩ := List.mem_map.mp hmem
  exact ⟨by simpa using hne, fun cell => text_of_mem_filledCells⟩

theorem mem_of_mem_dataRows {rows : List (List TableCell)} {row : List TableCell}
    (h : row ∈ dataRows rows) : row ∈ rows := by
  unfold dataRows at h
  split_ifs at h
  · exact h
  · exact List.mem_of_mem_tail h

/-- A data row has a block, with all its cells. -/
theorem exists_block (table : List (List Text)) {row : List TableCell}
    (hrow : row ∈ dataRows (filledRows table)) : ∃ block ∈ parseTable table,
      block.text = renderRow (tableHeaders (filledRows table)) row ∧
        ∀ cell ∈ row, cell.text <:+: block.text := by
  obtain ⟨hne, htexts⟩ := mem_filledRows (mem_of_mem_dataRows hrow)
  have hcells (cell : TableCell) (hcell : cell ∈ row) :
      cell.text <:+: renderRow (tableHeaders (filledRows table)) row := infix_renderRow htexts hcell
  have hrendered : renderRow (tableHeaders (filledRows table)) row ≠ [] := by
    intro hnil
    obtain ⟨cell, hcell⟩ := List.exists_mem_of_ne_nil row hne
    have hwithin := hcells cell hcell
    rw [hnil] at hwithin
    exact htexts cell hcell (List.infix_nil.mp hwithin)
  refine ⟨_, List.mem_filterMap.mpr ⟨row, hrow, if_neg hrendered⟩, rfl, hcells⟩

/-! ## The columns in the table -/

/-- The columns of a row whose cells are not blank. -/
def filledColumns (row : List Text) : List ℕ :=
  (List.range row.length).filter fun column => ∃ raw ∈ row[column]?, stripText raw ≠ []

theorem columnsOf_filledCells (row : List Text) :
    columnsOf (filledCells row) = filledColumns row := by
  induction row using List.reverseRecOn with
  | nil => rfl
  | append_singleton row raw ih =>
    have hbefore : (List.range row.length).filter
        (fun column => ∃ raw' ∈ (row ++ [raw])[column]?, stripText raw' ≠ []) = filledColumns row := by
      apply List.filter_congr
      intro column hcolumn
      rw [List.getElem?_append_left (List.mem_range.mp hcolumn)]
    have hlast : (row ++ [raw])[row.length]? = some raw := by simp
    rw [filledColumns, List.length_append, List.length_singleton, List.range_succ,
      List.filter_append, hbefore, ← ih, filledCells, List.length_append, List.length_singleton,
      List.range_succ, List.zip_append (by simp), List.filterMap_append, columnsOf, List.map_append]
    congr 1
    by_cases hempty : stripText raw = []
    · simp [hempty]
    · simp [hempty]

/-- If the second row with text has as many filled cells as the first, so that the first is
    the header row, the rows with that many filled cells have them in the same columns. -/
def HeaderColumnsMatch (table : List (List Text)) : Prop :=
  ∀ header second rest, table.filter (fun row => filledColumns row ≠ []) = header :: second :: rest →
    (filledColumns header).length = (filledColumns second).length →
    ∀ row ∈ second :: rest, (filledColumns row).length = (filledColumns header).length →
      filledColumns row = filledColumns header

theorem filledRows_eq (table : List (List Text)) :
    filledRows table = (table.filter fun row => filledColumns row ≠ []).map filledCells := by
  rw [filledRows, List.filter_map]
  congr 1
  apply List.filter_congr
  intro row _
  simp [← columnsOf_filledCells, columnsOf]

theorem length_filledCells (row : List Text) :
    (filledCells row).length = (filledColumns row).length := by
  rw [← columnsOf_filledCells, columnsOf, List.length_map]

/-- The headers are the first row, and the data rows are the others, if the first two rows
    have as many cells. -/
theorem tableHeaders_of_eq {first second : List TableCell} {rest : List (List TableCell)}
    (h : first.length = second.length) : tableHeaders (first :: second :: rest) = first := by
  rw [tableHeaders, if_pos h]

theorem exists_of_tableHeaders_ne_nil {rows : List (List TableCell)} (h : tableHeaders rows ≠ []) :
    ∃ first second rest, rows = first :: second :: rest ∧ first.length = second.length := by
  unfold tableHeaders at h
  split at h
  · rename_i first second rest
    split_ifs at h with hlength
    · exact ⟨first, second, rest, rfl, hlength⟩
    · exact absurd rfl h
  · exact absurd rfl h

/-- Every value is rendered under the header of its own column if and only if the filled
    columns of the rows that are rendered with headers are those of the header row; a cell
    that is not empty always occurs in the block of its row. -/
theorem columnsKept_iff (table : List (List Text)) :
    ColumnsKept table ↔ HeaderColumnsMatch table := by
  constructor
  · intro h header second rest hrows hlength row hrow hsame
    have hfilled : filledRows table =
        filledCells header :: filledCells second :: rest.map filledCells := by
      rw [filledRows_eq, hrows]
      rfl
    have hheader : filledCells header ≠ [] :=
      (mem_filledRows (hfilled ▸ List.mem_cons_self)).1
    have hheaders : tableHeaders (filledRows table) = filledCells header := by
      rw [hfilled]
      exact tableHeaders_of_eq (by rw [length_filledCells, length_filledCells, hlength])
    have hdata : filledCells row ∈ dataRows (filledRows table) := by
      rw [dataRows, hheaders, if_neg hheader, hfilled]
      exact List.mem_map_of_mem (f := filledCells) hrow
    have hcells : (filledCells row).length = (filledCells header).length := by
      rw [length_filledCells, length_filledCells, hsame]
    have hpairs := h.pairs (filledCells row) hdata ((filledCells header).zip (filledCells row)) (by
      rw [rowPairs, hheaders, if_pos ⟨hheader, hcells⟩]
      rfl)
    rw [← columnsOf_filledCells, ← columnsOf_filledCells]
    exact (columns_zip_iff hcells).mp hpairs
  · intro h
    refine ⟨fun row hrow pairs hpairs => ?_, fun row hrow => exists_block table hrow⟩
    by_cases hused : tableHeaders (filledRows table) ≠ [] ∧
        row.length = (tableHeaders (filledRows table)).length
    swap
    · rw [rowPairs, if_neg hused] at hpairs
      cases hpairs
    rw [rowPairs, if_pos hused] at hpairs
    obtain rfl := Option.some_injective _ hpairs
    obtain ⟨first, second, rest, hfilled, hlength⟩ := exists_of_tableHeaders_ne_nil hused.1
    have hheaders : tableHeaders (filledRows table) = first := by
      rw [hfilled]
      exact tableHeaders_of_eq hlength
    have hmap := filledRows_eq table
    rw [hfilled] at hmap
    obtain ⟨header, tail, hrows, rfl, htail⟩ := List.map_eq_cons_iff.mp hmap.symm
    obtain ⟨second, rest, rfl, rfl, rfl⟩ := List.map_eq_cons_iff.mp htail
    rw [dataRows, if_neg hused.1, hfilled, List.tail_cons] at hrow
    obtain ⟨raw, hraw, rfl⟩ := List.mem_map.mp (show row ∈ (second :: rest).map filledCells from hrow)
    rw [hheaders] at hused ⊢
    rw [columns_zip_iff hused.2, columnsOf_filledCells, columnsOf_filledCells]
    apply h header second rest hrows _ raw hraw
    · rw [← length_filledCells, ← length_filledCells, hused.2]
    · rw [← length_filledCells, ← length_filledCells, hlength]

/-- A header row with an empty cell in the middle, over a row with one at its end: the value
    of the second column is rendered under the header of the third. -/
theorem columnsKept_shifted :
    ¬ ∀ table : List (List Text), (∀ row ∈ table, row.length = (table.headD []).length) →
      ColumnsKept table := by
  intro hall
  have hkept := hall [["Service".toList, [], "Port".toList], ["api".toList, "primary".toList, []]]
    (by simp)
  have hpairs := hkept.pairs [⟨0, "api".toList⟩, ⟨1, "primary".toList⟩] (by decide +kernel)
    [(⟨0, "Service".toList⟩, ⟨0, "api".toList⟩), (⟨2, "Port".toList⟩, ⟨1, "primary".toList⟩)]
    (by decide +kernel) (⟨2, "Port".toList⟩, ⟨1, "primary".toList⟩) (by simp)
  cases hpairs

/-- Its row text. -/
example : (parseTable [["Service".toList, [], "Port".toList],
    ["api".toList, "primary".toList, []]]).map TableBlock.text =
      ["Service: api | Port: primary".toList] := by
  decide +kernel

end RagStack.Worker
