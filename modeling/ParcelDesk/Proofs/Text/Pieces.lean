import Mathlib.Data.List.Basic
import ParcelDesk.Text.Pieces

/-!
# Pieces told apart

A word ends where a character stands that it lacks. So a word can be told from what follows it, and
the pieces of a text, put together again with the mark at which it was cut, are the text.
-/

namespace ParcelDesk.Text

/-! ## Words and what follows them -/

section

variable {keep : Char → Bool} {word other rest behind : List Char}

theorem takeWhile_append_of_stop (hword : ∀ c ∈ word, keep c = true)
    (hrest : ∀ c ∈ rest.head?, keep c = false) : (word ++ rest).takeWhile keep = word := by
  rw [List.takeWhile_append_of_pos hword]
  cases rest with
  | nil => simp
  | cons c rest => simp [hrest c rfl]

theorem dropWhile_append_of_stop (hword : ∀ c ∈ word, keep c = true)
    (hrest : ∀ c ∈ rest.head?, keep c = false) : (word ++ rest).dropWhile keep = rest := by
  rw [List.dropWhile_append_of_pos hword]
  cases rest with
  | nil => simp
  | cons c rest => simp [hrest c rfl]

/-- A word is told from what follows it, if that begins with a character that the word lacks. -/
theorem append_inj_of_stop (hword : ∀ c ∈ word, keep c = true) (hother : ∀ c ∈ other, keep c = true)
    (hrest : ∀ c ∈ rest.head?, keep c = false) (hbehind : ∀ c ∈ behind.head?, keep c = false)
    (h : word ++ rest = other ++ behind) : word = other ∧ rest = behind := by
  have hsame : word = other := by
    rw [← takeWhile_append_of_stop hword hrest, h, takeWhile_append_of_stop hother hbehind]
  rw [hsame] at h
  exact ⟨hsame, List.append_cancel_left h⟩

theorem ne_of_notMem {mark : Char} {text : List Char} (h : mark ∉ text) :
    ∀ c ∈ text, (c != mark) = true := by
  intro c hc
  rw [bne_iff_ne]
  exact fun heq => h (heq ▸ hc)

theorem field_append_inj {mark : Char} (hword : mark ∉ word) (hother : mark ∉ other)
    (h : word ++ mark :: rest = other ++ mark :: behind) : word = other ∧ rest = behind := by
  obtain ⟨hsame, hrest⟩ :=
    append_inj_of_stop (ne_of_notMem hword) (ne_of_notMem hother) (by simp) (by simp) h
  exact ⟨hsame, (List.cons.inj hrest).2⟩

end

/-! ## Cutting and joining -/

theorem joined_cons_cons (mark piece next : List Char) (pieces : List (List Char)) :
    joined mark (piece :: next :: pieces) = piece ++ mark ++ joined mark (next :: pieces) := rfl

theorem joined_consChar (mark : List Char) (c : Char) (piece : List Char)
    (pieces : List (List Char)) :
    joined mark ((c :: piece) :: pieces) = c :: joined mark (piece :: pieces) := by
  cases pieces with
  | nil => rfl
  | cons next pieces => rfl

theorem split_cons_of_cut {cut : Char → Bool} {c : Char} (h : cut c = true) (text : List Char) :
    split cut (c :: text) = [] :: split cut text := by
  rw [split, if_pos h]

theorem split_cons_of_not_cut {cut : Char → Bool} {c : Char} (h : cut c = false)
    (text : List Char) : ∃ piece pieces,
      split cut text = piece :: pieces ∧ split cut (c :: text) = (c :: piece) :: pieces := by
  obtain ⟨piece, pieces, hsplit⟩ := List.exists_cons_of_ne_nil (split_ne_nil cut text)
  refine ⟨piece, pieces, hsplit, ?_⟩
  rw [split, if_neg (by simp [h]), hsplit]

/-- If a text is cut at no other character than the mark, its pieces with the mark between them are
the text. -/
theorem joined_split {cut : Char → Bool} {mark : Char} (hcut : ∀ c, cut c = true → c = mark)
    (text : List Char) : joined [mark] (split cut text) = text := by
  induction text with
  | nil => rfl
  | cons c text ih =>
      cases hc : cut c with
      | true =>
          obtain ⟨piece, pieces, hsplit⟩ := List.exists_cons_of_ne_nil (split_ne_nil cut text)
          rw [split_cons_of_cut hc, hsplit, joined_cons_cons, ← hsplit, ih, hcut c hc]
          rfl
      | false =>
          obtain ⟨piece, pieces, hsplit, hcons⟩ := split_cons_of_not_cut hc text
          rw [hcons, joined_consChar, ← hsplit, ih]

theorem of_mem_split {cut : Char → Bool} {text piece : List Char} (hpiece : piece ∈ split cut text)
    {c : Char} (hc : c ∈ piece) : c ∈ text ∧ cut c = false := by
  induction text generalizing piece with
  | nil =>
      rw [split, List.mem_singleton] at hpiece
      simp [hpiece] at hc
  | cons d text ih =>
      cases hd : cut d with
      | true =>
          rw [split_cons_of_cut hd, List.mem_cons] at hpiece
          obtain rfl | hpiece := hpiece
          · simp at hc
          · exact (ih hpiece hc).imp_left (List.mem_cons_of_mem d)
      | false =>
          obtain ⟨first, pieces, hsplit, hcons⟩ := split_cons_of_not_cut hd text
          rw [hsplit] at ih
          rw [hcons, List.mem_cons] at hpiece
          obtain rfl | hpiece := hpiece
          · obtain rfl | hc := List.mem_cons.1 hc
            · exact ⟨List.mem_cons_self, hd⟩
            · exact (ih List.mem_cons_self hc).imp_left (List.mem_cons_of_mem d)
          · exact (ih (List.mem_cons_of_mem first hpiece) hc).imp_left (List.mem_cons_of_mem d)

end ParcelDesk.Text
