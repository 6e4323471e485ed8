import ParcelDesk.Text.Blank

/-!
# Pieces of a text

Cutting a text into pieces at some of its characters, and putting pieces together with a mark
between each two of them.
-/

namespace ParcelDesk.Text

/-- The pieces between the characters that `cut` accepts, empty ones included. -/
def split (cut : Char → Bool) : List Char → List (List Char)
  | [] => [[]]
  | c :: rest =>
      if cut c then [] :: split cut rest
      else match split cut rest with
        | [] => [[c]]
        | word :: words => (c :: word) :: words

def words (text : List Char) : List (List Char) :=
  (split isBlank text).filter fun word => !word.isEmpty

theorem split_ne_nil (cut : Char → Bool) (text : List Char) : split cut text ≠ [] := by
  cases text with
  | nil => simp [split]
  | cons c rest =>
      unfold split
      split
      · simp
      · split <;> simp

def joined (mark : List Char) : List (List Char) → List Char
  | [] => []
  | [piece] => piece
  | piece :: rest => piece ++ mark ++ joined mark rest

end ParcelDesk.Text
