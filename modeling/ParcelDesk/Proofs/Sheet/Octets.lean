import Mathlib.Data.List.Lemmas
import ParcelDesk.Proofs.Sheet.Layout

/-!
# Cells of an encoded text

No octet of a character beyond ASCII is taken for a comma, a quotation mark or the end of a line.
So the octets of a text are cut into cells where the text is.
-/

namespace ParcelDesk.Sheet

def Stand.inside : Stand → Stand
  | .quoted => .quoted
  | .record | .cell | .plain | .behind => .plain

theorem Stand.inside_inside (stand : Stand) : stand.inside.inside = stand.inside := by
  cases stand <;> rfl

theorem move_of_le {c : Char} (h : 0x80 ≤ c.toNat) (stand : Stand) :
    move stand c = .keep stand.inside := by
  have hne {mark : Char} (hmark : mark.toNat < 0x80) : (c == mark) = false := by
    rw [beq_eq_false_iff_ne]
    rintro rfl
    omega
  have hcomma := hne (show ','.toNat < 0x80 by decide)
  have hquote := hne (show '"'.toNat < 0x80 by decide)
  have hend : isLineEnd c = false := by
    rw [isLineEnd, hne (show '\n'.toNat < 0x80 by decide), hne (show '\r'.toNat < 0x80 by decide)]
    rfl
  cases stand <;> simp [move, outside, hcomma, hquote, hend, Stand.inside]

theorem recordsFrom_beyond {octets : List Char} (h : ∀ c ∈ octets, 0x80 ≤ c.toNat) (stand : Stand)
    (rest : List Char) : recordsFrom stand.inside (octets ++ rest) =
      octets.foldr consChar (recordsFrom stand.inside rest) := by
  induction octets with
  | nil => rfl
  | cons c octets ih =>
      have hmove := move_of_le (h c List.mem_cons_self) stand.inside
      rw [stand.inside_inside] at hmove
      simp only [List.cons_append, recordsFrom, hmove, List.foldr_cons,
        ih fun d hd => h d (List.mem_cons_of_mem c hd)]

theorem encode_consCell (records : List (List (List Char))) :
    (consCell records).map encode = consCell (records.map encode) := by
  cases records with
  | nil => rfl
  | cons record records => simp only [consCell, List.map_cons, encode_cons, List.flatMap_nil]

theorem encode_consChar (c : Char) (records : List (List (List Char))) :
    (consChar c records).map encode = (Octets.ofChar c).foldr consChar (records.map encode) := by
  match records with
  | [] => exact (List.foldr_fixed' (fun _ => rfl) _).symm
  | [] :: records => exact (List.foldr_fixed' (fun _ => rfl) _).symm
  | (cell :: cells) :: records =>
      simp only [consChar, List.map_cons, encode_cons, List.flatMap_cons, foldr_consChar]

theorem recordsFrom_octets (stand : Stand) (text : List Char) :
    recordsFrom stand (text.flatMap Octets.ofChar) = (recordsFrom stand text).map encode := by
  have hempty : encode [[]] = [[]] := encode_of_isAscii (by decide)
  induction text generalizing stand with
  | nil => cases stand <;> simp [recordsFrom, hempty]
  | cons c text ih =>
      rw [List.flatMap_cons]
      by_cases hascii : c.toNat < 0x80
      · have hchar := encode_consChar c
        simp only [Octets.ofChar_ascii hascii, List.foldr_cons, List.foldr_nil] at hchar
        simp only [Octets.ofChar_ascii hascii, List.singleton_append, recordsFrom]
        cases move stand c with
        | pass next => exact ih next
        | keep next => simp only [ih, hchar]
        | endCell => simp only [ih, encode_consCell]
        | endRecord => simp only [ih, List.map_cons, hempty]
      · have hle := Nat.le_of_not_lt hascii
        have hoctets : ∀ octet ∈ Octets.ofChar c, 0x80 ≤ octet.toNat := fun _ =>
          Octets.le_of_mem_ofChar hle
        simp only [recordsFrom, move_of_le hle, encode_consChar, ← ih]
        -- The first octet leads inside, and the others stay there.
        obtain ⟨first, others, hfirst⟩ := List.exists_cons_of_ne_nil (Octets.ofChar_ne_nil c)
        rw [hfirst] at hoctets ⊢
        have hmove := move_of_le (hoctets first List.mem_cons_self) stand
        simp only [List.cons_append, recordsFrom, hmove, List.foldr_cons,
          recordsFrom_beyond fun d hd => hoctets d (List.mem_cons_of_mem first hd)]

/-- The octets of a text hold the records of the text. -/
theorem records_octets (text : List Char) :
    records (text.flatMap Octets.ofChar) = (records text).map encode :=
  recordsFrom_octets .record text

end ParcelDesk.Sheet
