import ParcelDesk.Calendar.Instant
import ParcelDesk.Error
import ParcelDesk.Text.Blank
import ParcelDesk.Text.Quoted

/-!
# Reading dates and instants

The readers of the three written forms. Every reader takes a text from the left and gives a value
with the text that follows it, or the first thing wrong with it.
-/

namespace ParcelDesk.Scan

inductive Fault where
  | outOfRange
  | impossible
  | unexpected
  | tooShort
  | tooLong
deriving DecidableEq, Repr

namespace Fault

def message : Fault → String
  | .outOfRange => "input is out of range"
  | .impossible => "no possible date and time matching input"
  | .unexpected => "input contains invalid characters"
  | .tooShort => "premature end of input"
  | .tooLong => "trailing input"

end Fault

def skipBlanks (text : List Char) : List Char :=
  Text.trimLeft Text.isBlank text

def mark (expected : Char) : List Char → Except Fault (List Char)
  | [] => .error .tooShort
  | c :: rest => if c = expected then .ok rest else .error .unexpected

/-- Reads a row of digits. It must not be empty and stays below 2^63. -/
def numeral (digits rest : List Char) : Except Fault (Nat × List Char) :=
  if digits.isEmpty then .error (if rest.isEmpty then .tooShort else .unexpected)
  else if Numeral.value digits < Numeral.signedEnd then .ok (Numeral.value digits, rest)
  else .error .outOfRange

def number (width : Nat) (text : List Char) : Except Fault (Nat × List Char) :=
  let digits := (text.take width).takeWhile Char.isDigit
  numeral digits (text.drop digits.length)

def longNumber (text : List Char) : Except Fault (Nat × List Char) :=
  numeral (text.takeWhile Char.isDigit) (text.dropWhile Char.isDigit)

/-- Reads a year: after a sign any number of digits, otherwise at most four. -/
def year (text : List Char) : Except Fault (Int × List Char) := do
  let (year, rest) ← match skipBlanks text with
    | '-' :: rest => do
        let (n, rest) ← longNumber rest
        pure (-(n : Int), rest)
    | '+' :: rest => do
        let (n, rest) ← longNumber rest
        pure ((n : Int), rest)
    | text => do
        let (n, rest) ← number 4 text
        pure ((n : Int), rest)
  if -2147483648 ≤ year ∧ year < 2147483648 then .ok (year, rest) else .error .outOfRange

def part (low high : Nat) (text : List Char) : Except Fault (Nat × List Char) := do
  let (n, rest) ← number 2 (skipBlanks text)
  if low ≤ n ∧ n ≤ high then .ok (n, rest) else .error .outOfRange

def named (year : Int) (month day : Nat) : Except Fault Date :=
  match Date.ofCivil? ⟨year, month, day⟩ with
  | some date => .ok date
  | none => .error .outOfRange

def dayFirst (text : List Char) : Except Fault Date := do
  let (day, rest) ← part 1 31 text
  let rest ← mark '-' rest
  let (month, rest) ← part 1 12 rest
  let rest ← mark '-' rest
  let (year, rest) ← year rest
  if rest.isEmpty then named year month day else .error .tooLong

/-- Reads year, month and day, with blanks allowed in front of each hyphen and each number. -/
def yearFirst (text : List Char) : Except Fault ((Int × Nat × Nat) × List Char) := do
  let (year, rest) ← year text
  let rest ← mark '-' (skipBlanks rest)
  let (month, rest) ← part 1 12 rest
  let rest ← mark '-' (skipBlanks rest)
  let (day, rest) ← part 1 31 rest
  .ok ((year, month, day), rest)

def date (text : List Char) : Except Fault Date := do
  let ((year, month, day), rest) ← yearFirst text
  if (skipBlanks rest).isEmpty then named year month day else .error .tooLong

/-- Reads the fraction of a second as nanoseconds. Digits past the ninth are skipped. -/
def fraction : List Char → Except Fault (Nat × List Char)
  | '.' :: text => do
      let (n, rest) ← number 9 text
      let places := ((text.take 9).takeWhile Char.isDigit).length
      .ok (n * Nat.pow 10 (9 - places), rest.dropWhile Char.isDigit)
  | text => .ok (0, text)

def twoDigits (a b : Char) : Nat :=
  10 * Numeral.digitValue a + Numeral.digitValue b

/-- Reads exactly two digits. The text is too short if fewer than two octets are left. -/
def digitPair : List Char → Except Fault ((Char × Char) × List Char)
  | a :: b :: rest =>
      if a.isDigit && b.isDigit then .ok ((a, b), rest) else .error .unexpected
  | [a] => .error (if a.utf8Size < 2 then .tooShort else .unexpected)
  | [] => .error .tooShort

/-- Reads hours and minutes of an offset, with colons and blanks allowed between them. -/
def offsetSpan (text : List Char) : Except Fault (Nat × List Char) := do
  let ((h, i), rest) ← digitPair text
  let rest := rest.dropWhile fun c => c == ':' || Text.isBlank c
  let ((m, n), rest) ← digitPair rest
  if twoDigits m n < 60 then .ok (3600 * twoDigits h i + 60 * twoDigits m n, rest)
  else .error .outOfRange

def isLetter (upper c : Char) : Bool :=
  c.toUpper == upper

def offset (text : List Char) : Except Fault (Int × List Char) :=
  match text with
  | [] => .error .tooShort
  | c :: rest =>
      if isLetter 'Z' c then .ok (0, rest)
      else if c = '+' then do
        let (span, rest) ← offsetSpan rest
        .ok ((span : Int), rest)
      else if c = '-' || c = '−' then do
        let (span, rest) ← offsetSpan rest
        .ok (-(span : Int), rest)
      else .error .unexpected

/-- Reads the offset, which may also be the name of universal time. -/
def zone : List Char → Except Fault (Int × List Char)
  | u :: t :: c :: rest =>
      if isLetter 'U' u && isLetter 'T' t && isLetter 'C' c then .ok (0, rest)
      else offset (u :: t :: c :: rest)
  | text => offset text

def divider : List Char → Except Fault (List Char)
  | [] => .error .tooShort
  | c :: rest => if isLetter 'T' c || c = ' ' then .ok rest else .error .unexpected

def assemble (date : Date) (hour minute second nano : Nat) (offset : Int) :
    Except Fault Instant :=
  let inDay : Int := 3600 * hour + 60 * minute + min second 59
  let nano := if second = 60 then nano + nanosPerSecond else nano
  if offset.natAbs < 86400 then
    match Instant.make? (date.day * 86400 + inDay - offset) nano with
    | some instant => .ok instant
    | none => .error .impossible
  else .error .outOfRange

def instant (text : List Char) : Except Fault Instant := do
  let ((year, month, day), rest) ← yearFirst text
  let rest ← divider rest
  let (hour, rest) ← part 0 23 rest
  let rest ← mark ':' (skipBlanks rest)
  let (minute, rest) ← part 0 59 rest
  let rest ← mark ':' (skipBlanks rest)
  let (second, rest) ← part 0 60 rest
  let (nano, rest) ← fraction rest
  let (offset, rest) ← zone (skipBlanks rest)
  if (skipBlanks rest).isEmpty then
    assemble (← named year month day) hour minute second nano offset
  else .error .tooLong

end ParcelDesk.Scan

namespace ParcelDesk.Date

/-- The date that a client wrote, day first and with any blanks around it. -/
def read (text : List Char) : Except Error Date :=
  match Scan.dayFirst (Text.trim text) with
  | .ok date => .ok date
  | .error fault =>
      .error (.refused .wrongInput ("bad date " ++ Text.quote text ++ ": " ++ fault.message))

end ParcelDesk.Date
