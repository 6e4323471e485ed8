import Mathlib.Data.List.Forall2
import ParcelDesk.Proofs.Sheet.Layout
import ParcelDesk.Proofs.Text.Pieces
import ParcelDesk.Sheet.Instructions

/-!
# Lines read apart

Without quotation marks a line of a sheet is a record of its own, whatever octets it has. So a sheet
gives one instruction or error for each line below its header, the one that it would give if no
other line were there. A mark in front of the file is no part of the header.
-/

namespace ParcelDesk.Sheet

/-- Holds of lines and a text that has them below each other. The last one may lack its end. -/
inductive Stacked : List (List Char) → List Char → Prop
  | none : Stacked [] []
  | last (text : List Char) : Stacked [text] text
  | more (text : List Char) {ends : List Char} (hsome : ends ≠ [])
      (hends : ∀ c ∈ ends, isLineEnd c = true) {texts : List (List Char)} {sheet : List Char}
      (hrest : Stacked texts sheet) : Stacked (text :: texts) (text ++ ends ++ sheet)

/-- Holds of a line with something in it, but no quotation mark. -/
def Plain (text : List Char) : Prop :=
  text ≠ [] ∧ ∀ c ∈ text, c ≠ '"' ∧ isLineEnd c = false

def cut (text : List Char) : List (List Char) :=
  Text.split (· == ',') text

theorem joined_cut (text : List Char) : Text.joined [','] (cut text) = text :=
  Text.joined_split (fun _ => eq_of_beq) text

theorem write_of_mem_cut {text cell : List Char} (h : Plain text) (hcell : cell ∈ cut text) :
    write cell = cell := by
  have hplain : needsQuotes cell = false := by
    rw [needsQuotes, List.any_eq_false]
    intro c hc
    obtain ⟨hmem, hcomma⟩ := Text.of_mem_split hcell hc
    obtain ⟨hquote, hend⟩ := h.2 c hmem
    simp [hcomma, hquote, hend]
  rw [write, if_neg (by simp [hplain])]

theorem line_cut {text : List Char} (h : Plain text) : line (cut text) = text := by
  have hwrite : (cut text).map write = cut text :=
    (List.map_congr_left fun _ => write_of_mem_cut h).trans (List.map_id _)
  rw [line, hwrite, joined_cut]

theorem stands_cut {text : List Char} (h : Plain text) : Stands (cut text) := by
  refine ⟨Text.split_ne_nil _ text, fun hempty => h.1 ?_⟩
  rw [← joined_cut text, hempty]
  rfl

theorem Stacked.lines {texts : List (List Char)} {sheet : List Char} (h : Stacked texts sheet)
    (hplain : ∀ text ∈ texts, Plain text) : Lines (texts.map cut) sheet := by
  induction h with
  | none => exact .none
  | last text =>
      have hlast := Lines.last (cut text)
      rwa [line_cut (hplain text List.mem_cons_self)] at hlast
  | more text hsome hends hrest ih =>
      have hmore := Lines.more (cut text) hsome hends
        (ih fun other hother => hplain other (List.mem_cons_of_mem text hother))
      rwa [line_cut (hplain text List.mem_cons_self)] at hmore

theorem Stacked.records_eq {texts : List (List Char)} {sheet : List Char} (h : Stacked texts sheet)
    (hplain : ∀ text ∈ texts, Plain text) : records sheet = texts.map cut := by
  refine (h.lines hplain).records_eq fun cells hcells => ?_
  obtain ⟨text, htext, rfl⟩ := List.mem_map.1 hcells
  exact stands_cut (hplain text htext)

/-! ## The mark in front of a file -/

/-- The mark is looked for in the first line only. -/
theorem dropMark_line (text : List Char) {rest : List Char}
    (hrest : ∀ c ∈ rest.head?, isLineEnd c = true) :
    dropMark (text ++ rest) = dropMark text ++ rest := by
  by_cases hmark : frontMark <+: text
  · obtain ⟨text, rfl⟩ := hmark
    rw [List.append_assoc, dropMark_append, dropMark_append]
  · rw [dropMark_of_unmarked hmark]
    apply dropMark_of_unmarked
    rintro ⟨behind, hbehind⟩
    obtain ⟨left, htext, -⟩ | ⟨left, hleft, hbegun⟩ := List.append_eq_append_iff.1 hbehind
    · exact hmark ⟨left, htext.symm⟩
    · cases left with
      | nil => exact hmark ⟨[], by simpa using hleft⟩
      | cons c left =>
          have hend := hrest c (by simp [hbegun])
          have hmem : c ∈ frontMark := by simp [hleft]
          simp only [frontMark, List.mem_cons, List.not_mem_nil, or_false] at hmem
          rcases hmem with rfl | rfl | rfl <;> exact absurd hend (by decide)

theorem Stacked.dropMark {header : List Char} {texts : List (List Char)} {sheet : List Char}
    (h : Stacked (header :: texts) sheet) :
    Stacked (dropMark header :: texts) (Sheet.dropMark sheet) := by
  cases h with
  | last => exact .last _
  | @more _ ends hsome hends _ rest hrest =>
      have hhead : ∀ c ∈ (ends ++ rest).head?, isLineEnd c = true := by
        intro c hc
        rw [List.head?_append_of_ne_nil _ hsome] at hc
        exact hends c (List.mem_of_mem_head? hc)
      rw [List.append_assoc, dropMark_line header hhead, ← List.append_assoc]
      exact .more _ hsome hends hrest

/-! ## Instructions -/

variable {header : List Char} {texts : List (List Char)} {sheet : List Char}

theorem instructions_of_stacked (hheader : Plain (dropMark header))
    (htexts : ∀ text ∈ texts, Plain text) (hsheet : Stacked (header :: texts) sheet) :
    instructions sheet = texts.map fun text =>
      instructionOf (Row.ofRecord (decodeCells 0 (cut (dropMark header))).toOption (cut text)) := by
  have hplain : ∀ text ∈ dropMark header :: texts, Plain text := by
    intro text htext
    rcases List.mem_cons.1 htext with rfl | htext
    · exact hheader
    · exact htexts text htext
  simp only [instructions, rows, hsheet.dropMark.records_eq hplain, List.map_cons, List.map_map,
    Function.comp_def]

/-- A sheet gives one instruction or error for each line below its header, in their order. It is
the one that the header and this line alone give. -/
theorem instructions_apart (hheader : Plain (dropMark header))
    (htexts : ∀ text ∈ texts, Plain text) (hsheet : Stacked (header :: texts) sheet) :
    List.Forall₂
      (fun text item => ∀ alone, Stacked [header, text] alone → instructions alone = [item])
      texts (instructions sheet) := by
  rw [instructions_of_stacked hheader htexts hsheet, List.forall₂_map_right_iff, List.forall₂_same]
  intro text htext alone halone
  have hone : ∀ other ∈ [text], Plain other := by
    intro other hother
    rw [List.mem_singleton.1 hother]
    exact htexts text htext
  rw [instructions_of_stacked hheader hone halone, List.map_cons, List.map_nil]

/-- An unknown verb and an octet that spells nothing do no harm to the line below them. -/
theorem instructions_apart_sendBack : ∃ unknown unreadable sendBack,
    instructions "op,orders\nfly,1\n\xff,2\r\nreturn,4".toList = [unknown, unreadable, sendBack] ∧
      instructions "op,orders\nreturn,4".toList = [sendBack] := by
  have hsheet := Stacked.more "op,orders".toList (by decide : ['\n'] ≠ []) (by simp [isLineEnd])
    (.more "fly,1".toList (by decide : ['\n'] ≠ []) (by simp [isLineEnd])
      (.more "\xff,2".toList (by decide : ['\r', '\n'] ≠ []) (by simp [isLineEnd])
        (.last "return,4".toList)))
  have halone := Stacked.more "op,orders".toList (by decide : ['\n'] ≠ []) (by simp [isLineEnd])
    (.last "return,4".toList)
  have hitems := instructions_apart (by simp [Plain, dropMark, isLineEnd])
    (by simp [Plain, isLineEnd]) hsheet
  generalize hgiven : instructions _ = items at hitems
  obtain _ | ⟨-, _ | ⟨-, _ | ⟨hlast, _ | _⟩⟩⟩ := hitems
  exact ⟨_, _, _, hgiven, hlast _ halone⟩

/-- If the first line is nothing but the mark, the line below it is taken for the header. -/
theorem instructions_frontMark :
    Plain frontMark ∧ Octets.decode frontMark = .ok ['\ufeff'] ∧ Plain "workers".toList ∧
      Stacked [frontMark, "workers".toList] (frontMark ++ ['\n'] ++ "workers".toList) ∧
      (instructions (frontMark ++ ['\n'] ++ "workers".toList)).length ≠
        ["workers".toList].length := by
  refine ⟨by simp [Plain, frontMark, isLineEnd], by decide, by simp [Plain, isLineEnd], ?_, ?_⟩
  · exact .more frontMark (by decide) (by simp [isLineEnd]) (.last _)
  · have hgiven : instructions (frontMark ++ ['\n'] ++ "workers".toList) = [] := rfl
    rw [hgiven]
    decide

end ParcelDesk.Sheet
