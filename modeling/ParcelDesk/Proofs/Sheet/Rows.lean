import Mathlib.Data.List.Nodup
import ParcelDesk.Error
import ParcelDesk.Proofs.Sheet.Cells
import ParcelDesk.Proofs.Text.Blank
import ParcelDesk.Proofs.Text.Numeral
import ParcelDesk.Sheet.Row

/-!
# Reading rows that were written

A row is read back from the texts that it has under the columns, in whatever order the columns stand
and whatever blanks the texts stand between; the empty texts at the end of a line may be left out.
-/

namespace ParcelDesk.Sheet

theorem Verb.find?_name (verb : Verb) :
    Verb.all.find? (fun other => other.name.toList == verb.name.toList) = some verb := by
  cases verb <;> rfl

theorem Column.find?_name (column : Column) :
    Column.all.find? (fun other => other.name.toList == column.name.toList) = some column := by
  cases column <;> rfl

theorem readVerb_name (verb : Verb) : readVerb verb.name.toList = .ok verb := by
  rw [readVerb, verb.find?_name]

def digitsOf (id : UInt64) : List Char :=
  Numeral.digits id.toNat

theorem digitsOf_ne_nil (id : UInt64) : digitsOf id ≠ [] :=
  Numeral.digits_ne_nil id.toNat

theorem isBlank_of_mem_digitsOf {id : UInt64} {c : Char} (h : c ∈ digitsOf id) :
    Text.isBlank c = false :=
  Text.isBlank_of_isDigit (Numeral.isDigit_of_mem_digits h)

theorem tight_digitsOf (id : UInt64) : Text.Tight (digitsOf id) :=
  Text.tight_of_forall fun _ => isBlank_of_mem_digitsOf

theorem readNumber_digitsOf (cell : Nat) (n : UInt64) : readNumber cell (digitsOf n) = .ok n := by
  rw [readNumber, digitsOf, Numeral.readAnyBase_digits]
  rfl

/-! ## Lines that end early -/

def Ended (values cells : List (List Char)) : Prop :=
  ∃ rest, values = cells ++ rest ∧ ∀ value ∈ rest, value = []

theorem Ended.headD {value : List Char} {values cells : List (List Char)}
    (h : Ended (value :: values) cells) : cells.headD [] = value := by
  obtain ⟨rest, hvalues, hrest⟩ := h
  cases cells with
  | nil =>
      obtain rfl : value :: values = rest := hvalues
      exact (hrest value List.mem_cons_self).symm
  | cons cell cells => exact (List.cons.inj hvalues).1.symm

theorem Ended.tail {value : List Char} {values cells : List (List Char)}
    (h : Ended (value :: values) cells) : Ended values cells.tail := by
  obtain ⟨rest, hvalues, hrest⟩ := h
  cases cells with
  | nil =>
      obtain rfl : value :: values = rest := hvalues
      exact ⟨values, rfl, fun other hother => hrest other (List.mem_cons_of_mem value hother)⟩
  | cons cell cells => exact ⟨rest, (List.cons.inj hvalues).2, hrest⟩

/-! ## Texts of a row -/

def numberText : Option UInt64 → List Char
  | some n => digitsOf n
  | none => []

def flagText : Option Bool → List Char
  | some true => ['t', 'r', 'u', 'e']
  | some false => ['f', 'a', 'l', 's', 'e']
  | none => []

theorem numberText_eq_nil {value : Option UInt64} : numberText value = [] ↔ value = none := by
  cases value with
  | none => simp [numberText]
  | some n => simp [numberText, digitsOf_ne_nil]

theorem flagText_eq_nil {value : Option Bool} : flagText value = [] ↔ value = none := by
  cases value with
  | none => simp [flagText]
  | some flag => cases flag <;> simp [flagText]

theorem tight_numberText (value : Option UInt64) : Text.Tight (numberText value) := by
  cases value with
  | none => exact Text.tight_nil
  | some n => exact tight_digitsOf n

theorem tight_flagText (value : Option Bool) : Text.Tight (flagText value) := by
  cases value with
  | none => exact Text.tight_nil
  | some flag =>
      apply Text.tight_of_all
      cases flag <;> rfl

theorem readNumber_numberText (cell : Nat) {value : Option UInt64} (h : numberText value ≠ []) :
    ∃ n, value = some n ∧ readNumber cell (numberText value) = .ok n := by
  cases value with
  | none => exact absurd rfl h
  | some n => exact ⟨n, rfl, readNumber_digitsOf cell n⟩

theorem readFlag_flagText (cell : Nat) {value : Option Bool} (h : flagText value ≠ []) :
    ∃ flag, value = some flag ∧ readFlag cell (flagText value) = .ok flag := by
  cases value with
  | none => exact absurd rfl h
  | some flag =>
      refine ⟨flag, rfl, ?_⟩
      cases flag <;> rfl

namespace Row

def text (row : Row) : Column → List Char
  | .verb => (row.verb.map fun verb => verb.name.toList).getD []
  | .user => numberText row.user
  | .orders => row.orders.getD []
  | .expiration => row.expiration.getD []
  | .package => row.package.getD []
  | .weight => numberText row.weight
  | .cost => numberText row.cost
  | .wrap => flagText row.wrap
  | .page => numberText row.page
  | .limit => numberText row.limit
  | .workers => numberText row.workers

/-- Holds of the rows that can be told from their texts. -/
structure Telling (row : Row) : Prop where
  verb : row.verb ≠ none
  orders : ∀ text ∈ row.orders, text ≠ [] ∧ Text.Tight text
  expiration : ∀ text ∈ row.expiration, text ≠ [] ∧ Text.Tight text
  package : ∀ text ∈ row.package, text ≠ [] ∧ Text.Tight text

def upTo (row : Row) (seen : List Column) : Row where
  verb := if .verb ∈ seen then row.verb else none
  user := if .user ∈ seen then row.user else none
  orders := if .orders ∈ seen then row.orders else none
  expiration := if .expiration ∈ seen then row.expiration else none
  package := if .package ∈ seen then row.package else none
  weight := if .weight ∈ seen then row.weight else none
  cost := if .cost ∈ seen then row.cost else none
  wrap := if .wrap ∈ seen then row.wrap else none
  page := if .page ∈ seen then row.page else none
  limit := if .limit ∈ seen then row.limit else none
  workers := if .workers ∈ seen then row.workers else none

theorem upTo_nil (row : Row) : row.upTo [] = {} := by
  simp [upTo]

theorem upTo_of_forall {row : Row} {seen : List Column} (h : ∀ column, column ∈ seen) :
    row.upTo seen = row := by
  simp [upTo, h]

theorem tight_getD {value : Option (List Char)} (h : ∀ text ∈ value, text ≠ [] ∧ Text.Tight text) :
    Text.Tight (value.getD []) := by
  cases value with
  | none => exact Text.tight_nil
  | some text => exact (h text rfl).2

theorem eq_none_of_getD {value : Option (List Char)}
    (h : ∀ text ∈ value, text ≠ [] ∧ Text.Tight text) (hnone : value.getD [] = []) :
    value = none := by
  cases value with
  | none => rfl
  | some text => exact absurd hnone (h text rfl).1

namespace Telling

variable {row : Row} (h : row.Telling)
include h

theorem text_verb : ∃ verb, row.verb = some verb ∧ row.text .verb = verb.name.toList := by
  obtain ⟨verb, hverb⟩ := Option.ne_none_iff_exists'.1 h.verb
  exact ⟨verb, hverb, by rw [text, hverb]; rfl⟩

theorem text_verb_ne_nil : row.text .verb ≠ [] := by
  obtain ⟨verb, -, htext⟩ := h.text_verb
  rw [htext]
  cases verb <;> decide

theorem tight_text (column : Column) : Text.Tight (row.text column) := by
  cases column with
  | verb =>
      obtain ⟨verb, -, htext⟩ := h.text_verb
      rw [htext]
      apply Text.tight_of_all
      cases verb <;> rfl
  | user | weight | cost | page | limit | workers => exact tight_numberText _
  | orders => exact tight_getD h.orders
  | expiration => exact tight_getD h.expiration
  | package => exact tight_getD h.package
  | wrap => exact tight_flagText _

theorem upTo_of_text_nil {column : Column} (hnone : row.text column = []) (seen : List Column) :
    row.upTo (column :: seen) = row.upTo seen := by
  cases column with
  | verb => exact absurd hnone h.text_verb_ne_nil
  | user | weight | cost | page | limit | workers =>
      simp [upTo, numberText_eq_nil.1 hnone]
  | orders => simp [upTo, eq_none_of_getD h.orders hnone]
  | expiration => simp [upTo, eq_none_of_getD h.expiration hnone]
  | package => simp [upTo, eq_none_of_getD h.package hnone]
  | wrap => simp [upTo, flagText_eq_nil.1 hnone]

theorem put_text {column : Column} (hsome : row.text column ≠ []) (seen : List Column)
    (cell : Nat) :
    (row.upTo seen).put column cell (row.text column) = .ok (row.upTo (column :: seen)) := by
  cases column with
  | verb =>
      obtain ⟨verb, hverb, htext⟩ := h.text_verb
      rw [htext, put, readVerb_name, ok_bind]
      simp [upTo, hverb]
  | user | weight | cost | page | limit | workers =>
      obtain ⟨n, hvalue, hread⟩ := readNumber_numberText cell hsome
      rw [put, text, hread, ok_bind]
      simp [upTo, hvalue]
  | wrap =>
      obtain ⟨flag, hvalue, hread⟩ := readFlag_flagText cell hsome
      rw [put, text, hread, ok_bind]
      simp [upTo, hvalue]
  | orders =>
      cases hvalue : row.orders with
      | none => exact absurd (by rw [text, hvalue]; rfl) hsome
      | some value => simp [put, text, upTo, hvalue]
  | expiration =>
      cases hvalue : row.expiration with
      | none => exact absurd (by rw [text, hvalue]; rfl) hsome
      | some value => simp [put, text, upTo, hvalue]
  | package =>
      cases hvalue : row.package with
      | none => exact absurd (by rw [text, hvalue]; rfl) hsome
      | some value => simp [put, text, upTo, hvalue]

theorem fill_text {column : Column} {cells : List (List Char)}
    (hcells : cells.headD [] = row.text column) (seen : List Column) (cell : Nat) :
    (row.upTo seen).fill column cell cells = .ok (row.upTo (column :: seen), cells.tail) := by
  cases cells with
  | nil =>
      have hverb : column ≠ .verb := by
        rintro rfl
        exact h.text_verb_ne_nil hcells.symm
      rw [fill, if_neg hverb, h.upTo_of_text_nil hcells.symm, List.tail_nil]
  | cons value rest =>
      rw [List.headD_cons] at hcells
      subst hcells
      rw [fill]
      split
      · rename_i hnone
        rw [h.upTo_of_text_nil (by simpa using hnone.1), List.tail_cons]
      · rename_i hnone
        have hsome : row.text column ≠ [] := by
          intro htext
          refine hnone ⟨by simp [htext], ?_⟩
          rintro rfl
          exact h.text_verb_ne_nil htext
        rw [h.put_text hsome, ok_bind, List.tail_cons]

/-- Under the names of columns that make up all of them with those seen, the row is read. -/
theorem byName_text {columns seen : List Column} (hnodup : columns.Nodup)
    (hnew : ∀ column ∈ columns, column ∉ seen) (hall : ∀ column, column ∈ columns ∨ column ∈ seen)
    {cells : List (List Char)} (hcells : Ended (columns.map row.text) cells) (cell : Nat) :
    (row.upTo seen).byName seen cell (columns.map fun column => column.name.toList) cells =
      .ok row := by
  -- What has been read is the row up to the columns seen; each name adds its own to them.
  induction columns generalizing seen cells cell with
  | nil =>
      have hseen : ∀ column, column ∈ seen := fun column => by simpa using hall column
      rw [List.map_nil, byName, if_pos (hseen .verb), upTo_of_forall hseen]
  | cons column columns ih =>
      obtain ⟨hother, hnodup⟩ := List.nodup_cons.1 hnodup
      rw [List.map_cons, byName.eq_def]
      simp only [column.find?_name, if_neg (hnew column List.mem_cons_self),
        h.fill_text hcells.headD, ok_bind]
      apply ih hnodup _ _ hcells.tail
      · intro other hmem hseen
        rcases List.mem_cons.1 hseen with rfl | hseen
        · exact hother hmem
        · exact hnew other (List.mem_cons_of_mem column hmem) hseen
      · intro other
        rcases hall other with hmem | hseen
        · rcases List.mem_cons.1 hmem with rfl | hmem
          · exact .inr List.mem_cons_self
          · exact .inl hmem
        · exact .inr (List.mem_cons_of_mem column hseen)

end Telling

end Row

end ParcelDesk.Sheet
