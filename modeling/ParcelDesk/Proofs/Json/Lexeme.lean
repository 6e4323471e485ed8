import ParcelDesk.Error
import ParcelDesk.Json.Reader
import ParcelDesk.Json.Value
import ParcelDesk.Proofs.Text.Numeral
import ParcelDesk.Proofs.Text.Octets
import ParcelDesk.Proofs.Text.Pieces

/-!
# Reading lexemes

Blanks are skipped, and a text of plain characters and a number are read back from what was written
for them.
-/

namespace ParcelDesk.Json

/-! ## Blanks -/

def Blank (text : List Char) : Prop :=
  ∀ c ∈ text, isSpace c = true

theorem blank_nil : Blank [] := by
  intro c hc
  cases hc

theorem blank_space : Blank [' '] := by
  intro c hc
  rw [List.mem_singleton.1 hc]
  rfl

theorem blank_margin (level : Nat) : Blank (margin level) := by
  intro c hc
  rcases List.mem_cons.1 hc with rfl | hc
  · rfl
  · rw [List.eq_of_mem_replicate hc]
    rfl

theorem Blank.skip {blank : List Char} (h : Blank blank) (text : List Char) :
    skip (blank ++ text) = Json.skip text :=
  List.dropWhile_append_of_pos h

theorem skip_cons {c : Char} (h : isSpace c = false) (rest : List Char) :
    skip (c :: rest) = c :: rest :=
  List.dropWhile_cons_of_neg (by rw [h]; decide)

theorem isSpace_of_isDigit {c : Char} (h : c.isDigit = true) : isSpace c = false := by
  simp only [isSpace, Bool.or_eq_false_iff, beq_eq_false_iff_ne]
  refine ⟨⟨⟨?_, ?_⟩, ?_⟩, ?_⟩
  all_goals
    rintro rfl
    exact absurd h (by decide)

/-! ## Texts -/

/-- Holds of the characters that stand for themselves in a text, and for one octet of it. -/
structure IsPlain (c : Char) : Prop where
  low : 0x20 ≤ c.toNat
  high : c.toNat < 0x80
  no_quote : c ≠ '"'
  no_backslash : c ≠ '\\'

def Plain (text : List Char) : Prop :=
  ∀ c ∈ text, IsPlain c

theorem isPlain_iff {c : Char} :
    IsPlain c ↔ 0x20 ≤ c.toNat ∧ c.toNat < 0x80 ∧ c ≠ '"' ∧ c ≠ '\\' :=
  ⟨fun ⟨low, high, no_quote, no_backslash⟩ => ⟨low, high, no_quote, no_backslash⟩,
    fun ⟨low, high, no_quote, no_backslash⟩ => ⟨low, high, no_quote, no_backslash⟩⟩

instance (c : Char) : Decidable (IsPlain c) := decidable_of_iff' _ isPlain_iff

instance (text : List Char) : Decidable (Plain text) :=
  List.decidableBAll IsPlain text

theorem escape_plain {c : Char} (h : IsPlain c) : escape c = [c] := by
  have hcontrol : ∀ d : Char, d.toNat < 0x20 → (c == d) = false := by
    intro d hd
    rw [beq_eq_false_iff_ne]
    rintro rfl
    exact Nat.not_lt.2 h.low hd
  have hquote : (c == '"') = false := beq_eq_false_iff_ne.2 h.no_quote
  have hbackslash : (c == '\\') = false := beq_eq_false_iff_ne.2 h.no_backslash
  simp only [escape, hquote, hbackslash, hcontrol '\x08' (by decide),
    hcontrol '\x0c' (by decide), hcontrol '\n' (by decide), hcontrol '\r' (by decide),
    hcontrol '\t' (by decide), Nat.not_lt.2 h.low, if_false, Bool.false_eq_true]

theorem quoted_plain {text : List Char} (h : Plain text) :
    quoted text = '"' :: (text ++ ['"']) := by
  have hescaped : text.flatMap escape = text := by
    induction text with
    | nil => rfl
    | cons c text ih =>
        rw [List.flatMap_cons, escape_plain (h c List.mem_cons_self),
          ih fun d hd => h d (List.mem_cons_of_mem c hd)]
        rfl
  rw [quoted, hescaped]
  rfl

theorem textOctets_plain {text : List Char} (h : Plain text) (rest : List Char) :
    textOctets (text ++ '"' :: rest) = .ok (text, rest) := by
  induction text with
  | nil => rw [List.nil_append, textOctets]
  | cons c text ih =>
      have hc := h c List.mem_cons_self
      rw [List.cons_append, textOctets, if_neg (Nat.not_lt.2 hc.low),
        ih fun d hd => h d (List.mem_cons_of_mem c hd)]
      · rfl
      · exact hc.no_quote
      · exact hc.no_backslash

theorem textBody_plain {text : List Char} (h : Plain text) (rest : List Char) :
    textBody (text ++ '"' :: rest) = .ok (text, rest) := by
  have hascii : Octets.IsAscii text := fun c hc => (h c hc).high
  simp only [textBody, textOctets_plain h, ok_bind, hascii.decode_eq]

theorem isPlain_of_isDigit {c : Char} (h : c.isDigit = true) : IsPlain c := by
  have hvalue : 48 ≤ c.toNat ∧ c.toNat ≤ 57 := by
    simpa [Char.isDigit, UInt32.le_iff_toNat_le] using h
  refine ⟨by omega, by omega, ?_, ?_⟩
  all_goals
    rintro rfl
    exact absurd h (by decide)

/-! ## Numbers -/

def Ends (text : List Char) : Prop :=
  ∀ c ∈ text.head?, c.isDigit = false ∧ c ≠ '.' ∧ c ≠ 'e' ∧ c ≠ 'E'

theorem ends_nil : Ends [] := by
  intro c hc
  cases hc

theorem ends_cons {c : Char} (h : c.isDigit = false ∧ c ≠ '.' ∧ c ≠ 'e' ∧ c ≠ 'E')
    (rest : List Char) : Ends (c :: rest) := by
  intro head hhead
  rw [List.head?_cons, Option.mem_some] at hhead
  rw [← hhead]
  exact h

theorem Ends.stops {text : List Char} (h : Ends text) : Numeral.Stops text :=
  fun c hc => (h c hc).1

theorem absorb_eq {digits : List Char} {significand : Nat}
    (h : digits.foldl (fun n c => 10 * n + Numeral.digitValue c) significand < UInt64.size) :
    absorb significand digits =
      (digits.foldl (fun n c => 10 * n + Numeral.digitValue c) significand, []) := by
  induction digits generalizing significand with
  | nil => rfl
  | cons c digits ih =>
      rw [List.foldl_cons] at h ⊢
      have hnext := Nat.lt_of_le_of_lt (Numeral.le_foldl_digits digits _) h
      rw [absorb]
      simp only [if_pos hnext]
      exact ih h

theorem absorb_digits {n : Nat} (h : n < UInt64.size) :
    absorb 0 (Numeral.digits n) = (n, []) := by
  have hvalue := Numeral.value_digits n
  rw [Numeral.value] at hvalue
  rw [absorb_eq (by rw [hvalue]; exact h), hvalue]

theorem readNumber_digits {n : Nat} (hn : n < UInt64.size) {rest : List Char} (hrest : Ends rest) :
    readNumber true (Numeral.digits n ++ rest) = .ok (.natural n.toUInt64, rest) := by
  have hdigits : ∀ c ∈ Numeral.digits n, c.isDigit = true := fun _ => Numeral.isDigit_of_mem_digits
  have hzero : ¬ ((Numeral.digits n).head? = some '0' ∧ 1 < (Numeral.digits n).length) := by
    rintro ⟨hhead, hlength⟩
    rw [Numeral.digits_of_head_zero hhead, Numeral.digits, if_pos (by decide)] at hlength
    exact absurd hlength (by decide)
  have hsome : (Numeral.digits n).isEmpty = false := by simpa using Numeral.digits_ne_nil n
  simp only [readNumber, Text.takeWhile_append_of_stop hdigits hrest.stops,
    Text.dropWhile_append_of_stop hdigits hrest.stops, hsome, hzero, absorb_digits hn, if_false,
    Bool.false_eq_true]
  split
  · exact absurd rfl (hrest '.' rfl).2.1
  · exact absurd rfl (hrest 'e' rfl).2.2.1
  · exact absurd rfl (hrest 'E' rfl).2.2.2
  · rfl

theorem exists_cons_digits (n : Nat) :
    ∃ c rest, Numeral.digits n = c :: rest ∧ c.isDigit = true := by
  obtain ⟨c, rest, hdigits⟩ := List.exists_cons_of_ne_nil (Numeral.digits_ne_nil n)
  exact ⟨c, rest, hdigits, Numeral.isDigit_of_mem_digits (hdigits ▸ List.mem_cons_self)⟩

theorem readWord_digits {n : Nat} (hn : n < UInt64.size) (wanted : String) {blank rest : List Char}
    (hblank : Blank blank) (hrest : Ends rest) :
    readWord wanted (blank ++ (Numeral.digits n ++ rest)) = .ok (n.toUInt64, rest) := by
  obtain ⟨c, tail, hdigits, hc⟩ := exists_cons_digits n
  have hread := readNumber_digits hn hrest
  rw [hdigits, List.cons_append] at hread ⊢
  rw [readWord, hblank.skip, skip_cons (isSpace_of_isDigit hc)]
  split
  · rename_i hminus
    rw [(List.cons.inj hminus).1] at hc
    exact absurd hc (by decide)
  · rename_i hcons
    obtain ⟨rfl, rfl⟩ := List.cons.inj hcons
    rw [if_pos hc, hread]
    rfl
  · rename_i hnil
    cases hnil

end ParcelDesk.Json
