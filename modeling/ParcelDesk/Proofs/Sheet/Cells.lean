import Mathlib.Data.List.Basic
import ParcelDesk.Sheet.Cells
import ParcelDesk.Text.Pieces

/-!
# Reading cells that were written

A cell is read back from the form in which it is written, up to what closes it; so is a record from
its line, and every record of a sheet from the lines below each other.
-/

namespace ParcelDesk.Sheet

def Closes (rest : List Char) : Prop :=
  ∀ c ∈ rest.head?, c = ',' ∨ isLineEnd c = true

theorem closes_comma (rest : List Char) : Closes (',' :: rest) := by
  intro c hc
  rw [List.head?_cons, Option.mem_some] at hc
  exact .inl hc.symm

theorem closes_of_isLineEnd {rest : List Char} (h : ∀ c ∈ rest.head?, isLineEnd c = true) :
    Closes rest := fun c hc => .inr (h c hc)

theorem Closes.ne_quote {c : Char} {rest : List Char} (h : Closes (c :: rest)) : c ≠ '"' := by
  rintro rfl
  exact absurd (h '"' rfl) (by decide)

/-! ## Cells -/

theorem needsQuotes_cons {c : Char} {cell : List Char} :
    needsQuotes (c :: cell) = false ↔
      (c ≠ ',' ∧ c ≠ '"' ∧ isLineEnd c = false) ∧ needsQuotes cell = false := by
  simp [needsQuotes, and_assoc]

theorem outside_of_kept {c : Char} (hcomma : c ≠ ',') (hend : isLineEnd c = false) :
    outside c = .keep .plain := by
  rw [outside, if_neg (by simpa using hcomma), if_neg (by simp [hend])]

theorem recordsFrom_plain {cell : List Char} (h : needsQuotes cell = false) (rest : List Char) :
    recordsFrom .plain (cell ++ rest) = cell.foldr consChar (recordsFrom .plain rest) := by
  induction cell with
  | nil => rfl
  | cons c cell ih =>
      obtain ⟨⟨hcomma, -, hend⟩, hcell⟩ := needsQuotes_cons.1 h
      have hmove : move .plain c = .keep .plain := outside_of_kept hcomma hend
      simp only [List.cons_append, recordsFrom, hmove, List.foldr_cons, ih hcell]

/-- What closes a cell is read alike wherever the cell may end. -/
theorem Closes.recordsFrom_cell {rest : List Char} (h : Closes rest) :
    recordsFrom .cell rest = recordsFrom .plain rest := by
  cases rest with
  | nil => rfl
  | cons c rest =>
      have hmove : move .cell c = move .plain c := if_neg (by simpa using h.ne_quote)
      simp only [recordsFrom, hmove]

theorem Closes.recordsFrom_behind {rest : List Char} (h : Closes rest) :
    recordsFrom .behind rest = recordsFrom .plain rest := by
  cases rest with
  | nil => rfl
  | cons c rest =>
      have hmove : move .behind c = move .plain c := if_neg (by simpa using h.ne_quote)
      simp only [recordsFrom, hmove]

theorem recordsFrom_quoted (cell rest : List Char) :
    recordsFrom .quoted
        (cell.flatMap (fun c => if c == '"' then ['"', '"'] else [c]) ++ '"' :: rest) =
      cell.foldr consChar (recordsFrom .behind rest) := by
  induction cell with
  | nil => rfl
  | cons c cell ih =>
      rw [List.flatMap_cons, List.append_assoc, List.foldr_cons, ← ih]
      by_cases hquote : c = '"'
      · subst hquote
        rfl
      · have hmove : move .quoted c = .keep .quoted := if_neg (by simpa using hquote)
        rw [if_neg (by simpa using hquote), List.singleton_append]
        simp only [recordsFrom, hmove]

theorem recordsFrom_write (cell : List Char) {rest : List Char} (h : Closes rest) :
    recordsFrom .cell (write cell ++ rest) = cell.foldr consChar (recordsFrom .plain rest) := by
  rw [write]
  split
  · rw [← h.recordsFrom_behind, ← recordsFrom_quoted, List.cons_append, List.cons_append,
      List.append_assoc]
    rfl
  · rename_i hplain
    rw [Bool.not_eq_true] at hplain
    cases cell with
    | nil => exact h.recordsFrom_cell
    | cons c cell =>
        obtain ⟨⟨-, hquote, -⟩, -⟩ := needsQuotes_cons.1 hplain
        have hmove : move .cell c = move .plain c := if_neg (by simpa using hquote)
        rw [← recordsFrom_plain hplain, List.cons_append]
        simp only [recordsFrom, hmove]

/-! ## Records -/

def line (cells : List (List Char)) : List Char :=
  Text.joined [','] (cells.map write)

theorem line_singleton (cell : List Char) : line [cell] = write cell := rfl

theorem line_cons (cell next : List Char) (cells : List (List Char)) :
    line (cell :: next :: cells) = write cell ++ ',' :: line (next :: cells) := by
  rw [line, List.map_cons, List.map_cons, Text.joined, List.append_assoc]
  · rfl
  · simp

theorem foldr_consChar (cell first : List Char) (cells : List (List Char))
    (records : List (List (List Char))) :
    cell.foldr consChar ((first :: cells) :: records) = ((cell ++ first) :: cells) :: records := by
  induction cell with
  | nil => rfl
  | cons c cell ih => rw [List.foldr_cons, ih, consChar, List.cons_append]

theorem recordsFrom_plain_of_isLineEnd {rest : List Char}
    (h : ∀ c ∈ rest.head?, isLineEnd c = true) :
    recordsFrom .plain rest = [[]] :: records rest := by
  cases rest with
  | nil => rfl
  | cons c rest =>
      have hend := h c rfl
      have hcomma : ¬ (c == ',') = true := by
        intro hc
        rw [eq_of_beq hc] at hend
        exact absurd hend (by decide)
      have hplain : move .plain c = .endRecord := by
        rw [move, outside, if_neg hcomma, if_pos hend]
      have hrecord : move .record c = .pass .record := if_pos hend
      simp only [records, recordsFrom, hplain, hrecord]

theorem recordsFrom_line {cells : List (List Char)} (hsome : cells ≠ []) {rest : List Char}
    (hrest : ∀ c ∈ rest.head?, isLineEnd c = true) :
    recordsFrom .cell (line cells ++ rest) = cells :: records rest := by
  induction cells with
  | nil => exact absurd rfl hsome
  | cons cell cells ih =>
      cases cells with
      | nil =>
          rw [line_singleton, recordsFrom_write cell (closes_of_isLineEnd hrest),
            recordsFrom_plain_of_isLineEnd hrest, foldr_consChar, List.append_nil]
      | cons next cells =>
          have hcomma : recordsFrom .plain (',' :: (line (next :: cells) ++ rest)) =
              consCell (recordsFrom .cell (line (next :: cells) ++ rest)) := rfl
          rw [line_cons, List.append_assoc, List.cons_append,
            recordsFrom_write cell (closes_comma _), hcomma, ih (by simp), consCell,
            foldr_consChar, List.append_nil]

theorem isLineEnd_of_head_write {cell : List Char} {c : Char} (h : c ∈ (write cell).head?) :
    isLineEnd c = false := by
  rw [write] at h
  split at h
  · rw [List.cons_append, List.head?_cons, Option.mem_some] at h
    rw [← h]
    rfl
  · rename_i hplain
    rw [Bool.not_eq_true] at hplain
    cases cell with
    | nil => cases h
    | cons d cell =>
        rw [List.head?_cons, Option.mem_some] at h
        rw [← h]
        exact (needsQuotes_cons.1 hplain).1.2.2

/-- Holds of the records with a line that is not taken for an empty one. -/
def Stands (cells : List (List Char)) : Prop :=
  cells ≠ [] ∧ cells ≠ [[]]

theorem write_ne_nil {cell : List Char} (h : cell ≠ []) : write cell ≠ [] := by
  rw [write]
  split
  · simp
  · exact h

theorem Stands.line_eq_cons {cells : List (List Char)} (h : Stands cells) :
    ∃ c rest, line cells = c :: rest ∧ isLineEnd c = false := by
  obtain ⟨cell, cells, rfl⟩ := List.exists_cons_of_ne_nil h.1
  cases hcell : write cell with
  | nil =>
      cases cells with
      | nil => exact absurd hcell (write_ne_nil fun hnil => h.2 (by rw [hnil]))
      | cons next cells => exact ⟨',', _, by rw [line_cons, hcell, List.nil_append], rfl⟩
  | cons c text =>
      have hc : isLineEnd c = false := isLineEnd_of_head_write (by rw [hcell]; rfl)
      cases cells with
      | nil => exact ⟨c, text, hcell, hc⟩
      | cons next cells => exact ⟨c, _, by rw [line_cons, hcell, List.cons_append], hc⟩

theorem records_line {cells : List (List Char)} (h : Stands cells) {rest : List Char}
    (hrest : ∀ c ∈ rest.head?, isLineEnd c = true) :
    records (line cells ++ rest) = cells :: records rest := by
  obtain ⟨c, text, hline, hc⟩ := h.line_eq_cons
  have hmove : move .record c = move .cell c := if_neg (by simp [hc])
  rw [← recordsFrom_line h.1 hrest, hline, List.cons_append]
  simp only [records, recordsFrom, hmove]

/-! ## Sheets -/

theorem records_ends {ends : List Char} (h : ∀ c ∈ ends, isLineEnd c = true) (rest : List Char) :
    records (ends ++ rest) = records rest := by
  induction ends with
  | nil => rfl
  | cons c ends ih =>
      have hmove : move .record c = .pass .record := if_pos (h c List.mem_cons_self)
      rw [← ih fun d hd => h d (List.mem_cons_of_mem c hd), List.cons_append]
      simp only [records, recordsFrom, hmove]

/-- Holds of records and a sheet that has a line for each. The last line may lack its end. -/
inductive Lines : List (List (List Char)) → List Char → Prop
  | none : Lines [] []
  | last (cells : List (List Char)) : Lines [cells] (line cells)
  | more (cells : List (List Char)) {ends : List Char} (hsome : ends ≠ [])
      (hends : ∀ c ∈ ends, isLineEnd c = true) {written : List (List (List Char))}
      {sheet : List Char} (hrest : Lines written sheet) :
      Lines (cells :: written) (line cells ++ ends ++ sheet)

/-- The records of a sheet are those that it has lines for. -/
theorem Lines.records_eq {written : List (List (List Char))} {sheet : List Char}
    (h : Lines written sheet) (hstands : ∀ cells ∈ written, Stands cells) :
    records sheet = written := by
  induction h with
  | none => rfl
  | last cells =>
      have hread : records (line cells ++ []) = cells :: records [] :=
        records_line (hstands cells List.mem_cons_self) (by simp)
      rwa [List.append_nil] at hread
  | @more cells ends hsome hends written sheet hrest ih =>
      have hhead : ∀ c ∈ (ends ++ sheet).head?, isLineEnd c = true := by
        intro c hc
        rw [List.head?_append_of_ne_nil _ hsome] at hc
        exact hends c (List.mem_of_mem_head? hc)
      rw [List.append_assoc, records_line (hstands cells List.mem_cons_self) hhead,
        records_ends hends,
        ih fun other hother => hstands other (List.mem_cons_of_mem cells hother)]

end ParcelDesk.Sheet
