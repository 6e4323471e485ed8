import ParcelDesk.Proofs.Text.Octets
import ParcelDesk.Text.Pieces

/-!
# Values between blanks

Whatever blanks a value stands between, trimming gives the value back, also where the blanks of the
narrow class are taken off its octets first. Words are read back whatever blanks part them.
-/

namespace ParcelDesk

namespace Text

def Blanks (text : List Char) : Prop :=
  ∀ c ∈ text, isBlank c = true

instance (text : List Char) : Decidable (Blanks text) :=
  List.decidableBAll (fun c : Char => isBlank c = true) text

structure Tight (text : List Char) : Prop where
  head : ∀ c ∈ text.head?, isBlank c = false
  last : ∀ c ∈ text.getLast?, isBlank c = false

/-- Holds of a value and a text that has it between blanks. -/
def Shows (value text : List Char) : Prop :=
  ∃ before after, Blanks before ∧ Blanks after ∧ text = before ++ value ++ after

theorem isBlank_of_isDigit {c : Char} (h : c.isDigit = true) : isBlank c = false := by
  simp only [Char.isDigit, Bool.and_eq_true, decide_eq_true_eq, ge_iff_le, UInt32.le_iff_toNat_le]
    at h
  have hlow : 48 ≤ c.toNat := h.1
  have hhigh : c.toNat ≤ 57 := h.2
  simp only [isBlank, Bool.or_eq_false_iff, Bool.and_eq_false_imp, decide_eq_true_eq,
    decide_eq_false_iff_not, beq_eq_false_iff_ne]
  omega

theorem toNat_lt_of_isBlank {c : Char} (h : isBlank c = true) : c.toNat < 0xE000 := by
  simp only [isBlank, Bool.or_eq_true, Bool.and_eq_true, decide_eq_true_eq, beq_iff_eq] at h
  omega

theorem tight_nil : Tight [] := by
  constructor
  all_goals
    intro c hc
    cases hc

theorem tight_of_forall {text : List Char} (h : ∀ c ∈ text, isBlank c = false) : Tight text :=
  ⟨fun c hc => h c (List.mem_of_mem_head? hc), fun c hc => h c (List.mem_of_getLast? hc)⟩

theorem tight_of_all {text : List Char} (h : (text.all fun c => !isBlank c) = true) :
    Tight text :=
  tight_of_forall fun c hc => by simpa using List.all_eq_true.1 h c hc

theorem Tight.reverse {text : List Char} (h : Tight text) : Tight text.reverse := by
  constructor
  · rw [List.head?_reverse]
    exact h.last
  · rw [List.getLast?_reverse]
    exact h.head

theorem Shows.reverse {value text : List Char} (h : Shows value text) :
    Shows value.reverse text.reverse := by
  obtain ⟨before, after, hbefore, hafter, rfl⟩ := h
  refine ⟨after.reverse, before.reverse, ?_, ?_, by simp⟩
  · simpa [Blanks] using hafter
  · simpa [Blanks] using hbefore

theorem shows_self (value : List Char) : Shows value value :=
  ⟨[], [], by simp [Blanks], by simp [Blanks], by simp⟩

theorem Shows.ne_nil {value text : List Char} (h : Shows value text) (hsome : value ≠ []) :
    text ≠ [] := by
  obtain ⟨before, after, -, -, rfl⟩ := h
  simp [hsome]

theorem Shows.mem {value text : List Char} (h : Shows value text) {c : Char} (hc : c ∈ text) :
    isBlank c = true ∨ c ∈ value := by
  obtain ⟨before, after, hbefore, hafter, rfl⟩ := h
  simp only [List.mem_append] at hc
  obtain (hc | hc) | hc := hc
  · exact .inl (hbefore c hc)
  · exact .inr hc
  · exact .inl (hafter c hc)

theorem Shows.trimLeft {blank : Char → Bool} (hblank : ∀ c, blank c = true → isBlank c = true)
    {value text : List Char} (hvalue : Tight value) (h : Shows value text) :
    Shows value (trimLeft blank text) := by
  obtain ⟨before, after, hbefore, hafter, rfl⟩ := h
  have hdropped {blanks : List Char} (hblanks : Blanks blanks) :
      Blanks (blanks.dropWhile blank) := fun c hc =>
    hblanks c ((List.dropWhile_sublist blank).mem hc)
  rw [Text.trimLeft, List.append_assoc, List.dropWhile_append]
  split
  · cases value with
    | nil => exact ⟨_, [], hdropped hafter, by simp [Blanks], by simp⟩
    | cons c value =>
        have hc : ¬ blank c = true := fun hc => by
          simpa [hblank c hc] using hvalue.head c rfl
        rw [List.cons_append, List.dropWhile_cons_of_neg hc]
        exact ⟨[], after, by simp [Blanks], hafter, rfl⟩
  · exact ⟨_, after, hdropped hbefore, hafter, by simp⟩

theorem Shows.trimBy {blank : Char → Bool} (hblank : ∀ c, blank c = true → isBlank c = true)
    {value text : List Char} (hvalue : Tight value) (h : Shows value text) :
    Shows value (trimBy blank text) := by
  have hright := ((h.trimLeft hblank hvalue).reverse.trimLeft hblank hvalue.reverse).reverse
  rwa [List.reverse_reverse] at hright

theorem Blanks.trimLeft_append {gap : List Char} (h : Blanks gap) (text : List Char) :
    Text.trimLeft isBlank (gap ++ text) = Text.trimLeft isBlank text :=
  List.dropWhile_append_of_pos h

theorem Tight.trimLeft_append {value : List Char} (h : Tight value) (hsome : value ≠ [])
    (rest : List Char) : Text.trimLeft isBlank (value ++ rest) = value ++ rest := by
  obtain ⟨c, value, rfl⟩ := List.exists_cons_of_ne_nil hsome
  exact List.dropWhile_cons_of_neg (by simp [h.head c rfl])

/-- A value between blanks is what trimming leaves. -/
theorem Shows.trim {value text : List Char} (hvalue : Tight value) (h : Shows value text) :
    Text.trim text = value := by
  obtain ⟨before, after, hbefore, hafter, rfl⟩ := h
  have hback : Blanks after.reverse := fun c hc => hafter c (List.mem_reverse.1 hc)
  rw [Text.trim, Text.trimBy, List.append_assoc, hbefore.trimLeft_append]
  by_cases hnone : value = []
  · have hgone : Text.trimLeft isBlank after = [] := by
      simpa [Text.trimLeft] using hafter.trimLeft_append []
    rw [hnone, List.nil_append, hgone]
    rfl
  · have hsome : value.reverse ≠ [] := by simpa using hnone
    have hend := hvalue.reverse.trimLeft_append hsome []
    rw [List.append_nil] at hend
    rw [hvalue.trimLeft_append hnone, List.reverse_append, hback.trimLeft_append, hend,
      List.reverse_reverse]

theorem Tight.trim {text : List Char} (h : Tight text) : trim text = text :=
  (shows_self text).trim h

/-! ## Words -/

theorem split_of_forall {cut : Char → Bool} {word : List Char} (h : ∀ c ∈ word, cut c = false) :
    split cut word = [word] := by
  induction word with
  | nil => rfl
  | cons c word ih =>
      rw [split, if_neg (by simp [h c List.mem_cons_self]),
        ih fun d hd => h d (List.mem_cons_of_mem c hd)]

theorem split_append {cut : Char → Bool} {word : List Char} (h : ∀ c ∈ word, cut c = false)
    {c : Char} (hc : cut c = true) (rest : List Char) :
    split cut (word ++ c :: rest) = word :: split cut rest := by
  induction word with
  | nil => rw [List.nil_append, split, if_pos hc]
  | cons d word ih =>
      rw [List.cons_append, split, if_neg (by simp [h d List.mem_cons_self]),
        ih fun e he => h e (List.mem_cons_of_mem d he)]

theorem words_of_forall {word : List Char} (hsome : word ≠ [])
    (h : ∀ c ∈ word, isBlank c = false) : words word = [word] := by
  simp [words, split_of_forall h, hsome]

theorem words_append {word : List Char} (hsome : word ≠ []) (h : ∀ c ∈ word, isBlank c = false)
    {c : Char} (hc : isBlank c = true) (rest : List Char) :
    words (word ++ c :: rest) = word :: words rest := by
  simp [words, split_append h hc, hsome]

theorem Blanks.words_append {gap : List Char} (h : Blanks gap) (text : List Char) :
    words (gap ++ text) = words text := by
  induction gap with
  | nil => rfl
  | cons c gap ih =>
      rw [List.cons_append, words, split, if_pos (h c List.mem_cons_self)]
      exact ih fun d hd => h d (List.mem_cons_of_mem c hd)

end Text

namespace Octets

theorem isAsciiBlank_of_le {c : Char} (h : 0x80 ≤ c.toNat) : Text.isAsciiBlank c = false := by
  simp only [Text.isAsciiBlank, Bool.or_eq_false_iff, beq_eq_false_iff_ne]
  refine ⟨⟨⟨⟨?_, ?_⟩, ?_⟩, ?_⟩, ?_⟩
  all_goals
    rintro rfl
    exact absurd h (by decide)

theorem isAsciiBlank_of_mem_ofChar {c octet : Char} (h : octet ∈ ofChar c) :
    Text.isAsciiBlank octet = Text.isAsciiBlank c := by
  by_cases hc : c.toNat < 0x80
  · rw [ofChar_ascii hc, List.mem_singleton] at h
    rw [h]
  · rw [isAsciiBlank_of_le (Nat.le_of_not_lt hc),
      isAsciiBlank_of_le (le_of_mem_ofChar (Nat.le_of_not_lt hc) h)]

/-- If each item is rendered by items that are dropped just if it is, dropping and rendering can
change places. -/
theorem dropWhile_flatMap (drop : Char → Bool) (render : Char → List Char)
    (hrender : ∀ c, ∀ d ∈ render c, drop d = drop c) (hsome : ∀ c, render c ≠ [])
    (text : List Char) :
    (text.flatMap render).dropWhile drop = (text.dropWhile drop).flatMap render := by
  induction text with
  | nil => rfl
  | cons c text ih =>
      rw [List.flatMap_cons]
      cases hc : drop c with
      | true =>
          have hall : ∀ d ∈ render c, drop d = true := fun d hd => (hrender c d hd).trans hc
          rw [List.dropWhile_append_of_pos hall, List.dropWhile_cons_of_pos hc, ih]
      | false =>
          have hstop : ¬ drop c = true := by simp [hc]
          obtain ⟨d, rest, hfirst⟩ := List.exists_cons_of_ne_nil (hsome c)
          have hd : ¬ drop d = true := by simp [hrender c d (by simp [hfirst]), hc]
          rw [List.dropWhile_cons_of_neg hstop, List.flatMap_cons, hfirst, List.cons_append,
            List.dropWhile_cons_of_neg hd]

theorem trimBy_isAsciiBlank (text : List Char) :
    Text.trimBy Text.isAsciiBlank (text.flatMap ofChar) =
      (Text.trimBy Text.isAsciiBlank text).flatMap ofChar := by
  have hleft := dropWhile_flatMap Text.isAsciiBlank ofChar
    (fun _ _ => isAsciiBlank_of_mem_ofChar) ofChar_ne_nil
  have hright := dropWhile_flatMap Text.isAsciiBlank (fun c => (ofChar c).reverse)
    (fun _ _ hd => isAsciiBlank_of_mem_ofChar (List.mem_reverse.1 hd))
    (fun c h => ofChar_ne_nil c (List.reverse_eq_nil_iff.1 h))
  simp only [Text.trimBy, Text.trimLeft, hleft, List.reverse_flatMap, Function.comp_def, hright,
    List.reverse_reverse]

/-- Octets are trimmed and read as the text is trimmed. -/
theorem decode_trimBy (text : List Char) :
    decode (Text.trimBy Text.isAsciiBlank (text.flatMap ofChar)) =
      .ok (Text.trimBy Text.isAsciiBlank text) := by
  rw [trimBy_isAsciiBlank, decode_flatMap_ofChar]

end Octets

end ParcelDesk
