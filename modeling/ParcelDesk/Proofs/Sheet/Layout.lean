import Mathlib.Data.List.Forall2
import ParcelDesk.Proofs.Sheet.Rows

/-!
# Sheets in any layout

A sheet may name its columns in any order, put any blanks around its cells, end any line before the
cells that would be empty, and end its lines with any run of line ends. Its rows are those that were
told, in their order.
-/

namespace ParcelDesk.Sheet

/-! ## Cells between blanks -/

/-- Holds of values and the texts of a line that has each of them between blanks. The line may end
before the last values if these are empty. -/
inductive Laid : List (List Char) → List (List Char) → Prop
  | cut {values : List (List Char)} (h : ∀ value ∈ values, value = []) : Laid values []
  | cell {value text : List Char} {values texts : List (List Char)} (hcell : Text.Shows value text)
      (hrest : Laid values texts) : Laid (value :: values) (text :: texts)

theorem laid_self (values : List (List Char)) : Laid values values := by
  induction values with
  | nil => exact .cut (by simp)
  | cons value values ih => exact .cell (Text.shows_self value) ih

def encode (texts : List (List Char)) : List (List Char) :=
  texts.map fun text => Octets.ofString (String.ofList text)

theorem encode_cons (text : List Char) (texts : List (List Char)) :
    encode (text :: texts) = text.flatMap Octets.ofChar :: encode texts := by
  rw [encode, List.map_cons, Octets.ofString_ofList, encode]

theorem encode_of_isAscii {texts : List (List Char)} (h : ∀ text ∈ texts, Octets.IsAscii text) :
    encode texts = texts := by
  induction texts with
  | nil => rfl
  | cons text texts ih =>
      rw [encode_cons, (h text List.mem_cons_self).flatMap_ofChar,
        ih fun other hother => h other (List.mem_cons_of_mem text hother)]

theorem Ended.cons (value : List Char) {values cells : List (List Char)} (h : Ended values cells) :
    Ended (value :: values) (value :: cells) := by
  obtain ⟨rest, rfl, hrest⟩ := h
  exact ⟨rest, rfl, hrest⟩

theorem Ended.eq_of_forall {values cells : List (List Char)} (h : Ended values cells)
    (hsome : ∀ value ∈ values, value ≠ []) : cells = values := by
  obtain ⟨rest, rfl, hrest⟩ := h
  cases rest with
  | nil => rw [List.append_nil]
  | cons value rest => exact absurd (hrest value List.mem_cons_self) (hsome value (by simp))

/-- The cells of a line are read as the values that stand between the blanks. -/
theorem Laid.decodeCells {values texts : List (List Char)} (h : Laid values texts)
    (htight : ∀ value ∈ values, Text.Tight value) (count : Nat) :
    ∃ cells, decodeCells count (encode texts) = .ok cells ∧ Ended values cells := by
  induction h generalizing count with
  | @cut values h => exact ⟨[], rfl, values, rfl, h⟩
  | @cell value text values texts hcell hrest ih =>
      obtain ⟨cells, hcells, hended⟩ :=
        ih (fun other hother => htight other (List.mem_cons_of_mem value hother)) (count + 1)
      have hvalue := htight value List.mem_cons_self
      -- The octets lose some blanks before they are decoded; the text would lose these anyway.
      have htrim : Text.trim (Text.trimBy Text.isAsciiBlank text) = value :=
        (hcell.trimBy (fun _ => Text.isBlank_of_isAsciiBlank) hvalue).trim hvalue
      refine ⟨value :: cells, ?_, hended.cons value⟩
      rw [encode_cons, Sheet.decodeCells, Octets.decode_trimBy]
      simp only [hcells, htrim]
      rfl

theorem Laid.stands {values texts : List (List Char)} (h : Laid values texts) {value : List Char}
    (hmem : value ∈ values) (hsome : value ≠ []) : Stands (encode texts) := by
  cases h with
  | cut h => exact absurd (h value hmem) hsome
  | @cell first text values texts hcell hrest =>
      rw [encode_cons]
      refine ⟨List.cons_ne_nil _ _, fun hempty => ?_⟩
      obtain ⟨htext, htexts⟩ := List.cons.inj hempty
      rcases List.mem_cons.1 hmem with rfl | hmem
      · exact hcell.ne_nil hsome (Octets.flatMap_ofChar_eq_nil.1 htext)
      · cases hrest with
        | cut h => exact hsome (h value hmem)
        | cell => simp [encode] at htexts

/-! ## The mark in front of a file -/

/-- The octets that may stand in front of a file to mark it as UTF-8. -/
def frontMark : List Char :=
  ['\xef', '\xbb', '\xbf']

theorem dropMark_append (text : List Char) : dropMark (frontMark ++ text) = text := rfl

theorem dropMark_of_unmarked {text : List Char} (h : ¬ frontMark <+: text) :
    dropMark text = text := by
  rw [dropMark.eq_def]
  split
  · exact absurd (List.prefix_append frontMark _) h
  · rfl

theorem dropMark_of_head {sheet : List Char} (h : sheet.head? ≠ some '\xef') :
    dropMark sheet = sheet := by
  apply dropMark_of_unmarked
  rintro ⟨rest, rfl⟩
  exact h rfl

theorem head?_write {cell : List Char} (h : cell.head? ≠ some '\xef') :
    (write cell).head? ≠ some '\xef' := by
  rw [write]
  split
  · simp
  · exact h

theorem head?_line {cell : List Char} (hsome : cell ≠ []) (cells : List (List Char))
    (rest : List Char) : (line (cell :: cells) ++ rest).head? = (write cell).head? := by
  have hwrite := write_ne_nil hsome
  cases cells with
  | nil => rw [line_singleton, List.head?_append_of_ne_nil _ hwrite]
  | cons next cells => rw [line_cons, List.append_assoc, List.head?_append_of_ne_nil _ hwrite]

theorem Lines.exists_append {cells : List (List Char)} {written : List (List (List Char))}
    {sheet : List Char} (h : Lines (cells :: written) sheet) :
    ∃ rest, sheet = line cells ++ rest := by
  cases h with
  | last => exact ⟨[], (List.append_nil _).symm⟩
  | more _ hsome hends hrest => exact ⟨_, List.append_assoc _ _ _⟩

/-! ## Rows -/

theorem Column.mem_all (column : Column) : column ∈ Column.all := by
  cases column <;> decide

theorem Column.name_ne_nil (column : Column) : column.name.toList ≠ [] := by
  cases column <;> decide

theorem Column.isAscii_name (column : Column) : Octets.IsAscii column.name.toList := by
  cases column <;> decide

theorem Column.tight_name (column : Column) : Text.Tight column.name.toList := by
  apply Text.tight_of_all
  cases column <;> rfl

variable {columns : List Column} {header : List (List Char)}

theorem dropMark_of_header {written : List (List (List Char))} {sheet : List Char}
    (hcolumns : columns ≠ []) (hheader : Laid (columns.map fun column => column.name.toList) header)
    (hsheet : Lines (encode header :: written) sheet) : dropMark sheet = sheet := by
  obtain ⟨column, columns, rfl⟩ := List.exists_cons_of_ne_nil hcolumns
  obtain ⟨rest, rfl⟩ := hsheet.exists_append
  apply dropMark_of_head
  rw [List.map_cons] at hheader
  cases hheader with
  | cut h => exact absurd (h _ List.mem_cons_self) column.name_ne_nil
  | @cell _ text _ texts hcell hrest =>
      have hsome := hcell.ne_nil column.name_ne_nil
      have hoctets : text.flatMap Octets.ofChar ≠ [] := mt Octets.flatMap_ofChar_eq_nil.1 hsome
      rw [encode_cons, head?_line hoctets]
      apply head?_write
      obtain ⟨c, text, rfl⟩ := List.exists_cons_of_ne_nil hsome
      rw [Octets.head?_flatMap_ofChar]
      apply Octets.head?_ofChar_ne
      rcases hcell.mem List.mem_cons_self with hc | hc
      · exact Text.toNat_lt_of_isBlank hc
      · exact Nat.lt_trans (column.isAscii_name _ hc) (by decide)

theorem decodeCells_header
    (hheader : Laid (columns.map fun column => column.name.toList) header) :
    decodeCells 0 (encode header) = .ok (columns.map fun column => column.name.toList) := by
  have hnames : ∀ name ∈ columns.map fun column => column.name.toList,
      ∃ column : Column, column.name.toList = name := fun name hname =>
    (List.mem_map.1 hname).imp fun _ => And.right
  obtain ⟨cells, hcells, hended⟩ := hheader.decodeCells (fun name hname => by
    obtain ⟨column, rfl⟩ := hnames name hname
    exact column.tight_name) 0
  rw [hcells, hended.eq_of_forall fun name hname => by
    obtain ⟨column, rfl⟩ := hnames name hname
    exact column.name_ne_nil]

theorem ofRecord_encode (hcolumns : columns.Perm Column.all) {row : Row} (hrow : row.Telling)
    {texts : List (List Char)} (hlaid : Laid (columns.map row.text) texts) :
    Row.ofRecord (some (columns.map fun column => column.name.toList)) (encode texts) =
      .ok row := by
  have htight : ∀ value ∈ columns.map row.text, Text.Tight value := by
    intro value hvalue
    obtain ⟨column, -, rfl⟩ := List.mem_map.1 hvalue
    exact hrow.tight_text column
  obtain ⟨cells, hcells, hended⟩ := hlaid.decodeCells htight 0
  have hnodup : columns.Nodup := hcolumns.nodup_iff.2 (by decide)
  have hall (column : Column) : column ∈ columns ∨ column ∈ [] :=
    .inl (hcolumns.mem_iff.2 column.mem_all)
  rw [Row.ofRecord, hcells, ok_bind, ← row.upTo_nil]
  exact hrow.byName_text hnodup (by simp) hall hended 0

/-- Holds of rows and lines that show them under the columns. -/
def ShownBy (columns : List Column) (told : List Row) (lines : List (List (List Char))) : Prop :=
  List.Forall₂ (fun row texts => row.Telling ∧ Laid (columns.map row.text) texts) told lines

variable {told : List Row} {lines : List (List (List Char))}

theorem ShownBy.stands (h : ShownBy columns told lines) (hverb : .verb ∈ columns) :
    ∀ texts ∈ lines, Stands (encode texts) := by
  induction h with
  | nil => simp
  | cons hline _ ih =>
      intro texts htexts
      rcases List.mem_cons.1 htexts with rfl | htexts
      · exact hline.2.stands (List.mem_map_of_mem hverb) hline.1.text_verb_ne_nil
      · exact ih texts htexts

theorem ShownBy.ofRecord (h : ShownBy columns told lines) (hcolumns : columns.Perm Column.all) :
    (lines.map encode).map
        (Row.ofRecord (some (columns.map fun column => column.name.toList))) =
      told.map .ok := by
  induction h with
  | nil => rfl
  | cons hline _ ih =>
      rw [List.map_cons, List.map_cons, List.map_cons, ih, ofRecord_encode hcolumns hline.1 hline.2]

/-- The rows of a sheet are those that its lines show. -/
theorem rows_of_lines (hcolumns : columns.Perm Column.all)
    (hheader : Laid (columns.map fun column => column.name.toList) header)
    (hlines : ShownBy columns told lines) {sheet : List Char}
    (hsheet : Lines ((header :: lines).map encode) sheet) : rows sheet = told.map .ok := by
  have hverb : Column.verb ∈ columns := hcolumns.mem_iff.2 Column.verb.mem_all
  have hstands : ∀ cells ∈ (header :: lines).map encode, Stands cells := by
    intro cells hcells
    obtain ⟨texts, htexts, rfl⟩ := List.mem_map.1 hcells
    rcases List.mem_cons.1 htexts with rfl | htexts
    · exact hheader.stands (List.mem_map_of_mem hverb) Column.verb.name_ne_nil
    · exact hlines.stands hverb texts htexts
  rw [rows, dropMark_of_header (List.ne_nil_of_mem hverb) hheader hsheet,
    hsheet.records_eq hstands, List.map_cons]
  simp only [decodeCells_header hheader, Except.toOption]
  exact hlines.ofRecord hcolumns

end ParcelDesk.Sheet
