/-!
# Blank characters

The characters that may surround a value without being part of it; `trim` takes them off both ends
of a text.
-/

namespace ParcelDesk.Text

/-- Holds of the characters with the Unicode property `White_Space`. -/
def isBlank (c : Char) : Bool :=
  let code := c.toNat
  (9 ≤ code && code ≤ 13) || code == 0x20 || code == 0x85 || code == 0xA0 || code == 0x1680 ||
    (0x2000 ≤ code && code ≤ 0x200A) || code == 0x2028 || code == 0x2029 || code == 0x202F ||
    code == 0x205F || code == 0x3000

/-- Holds of the blank, the tabulator, the line feed, the form feed and the carriage return. -/
def isAsciiBlank (c : Char) : Bool :=
  c == ' ' || c == '\t' || c == '\n' || c == '\x0c' || c == '\r'

def trimLeft (blank : Char → Bool) (text : List Char) : List Char :=
  text.dropWhile blank

def trimBy (blank : Char → Bool) (text : List Char) : List Char :=
  (trimLeft blank (trimLeft blank text).reverse).reverse

def trim (text : List Char) : List Char :=
  trimBy isBlank text

/-- A blank of the narrow class is one of the wide class. -/
theorem isBlank_of_isAsciiBlank {c : Char} (h : isAsciiBlank c = true) : isBlank c = true := by
  simp only [isAsciiBlank, Bool.or_eq_true, beq_iff_eq] at h
  rcases h with (((h | h) | h) | h) | h <;> subst h <;> decide

end ParcelDesk.Text
