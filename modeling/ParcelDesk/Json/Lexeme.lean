import ParcelDesk.Json.Fault
import ParcelDesk.Text.Octets

/-!
# Words, texts and numbers of a JSON document

Readers for what a document is spelled with. A document is a list of octets; a text in it is
decoded once it is complete.
-/

namespace ParcelDesk.Json

def isSpace (c : Char) : Bool :=
  c == ' ' || c == '\n' || c == '\t' || c == '\r'

def skip (text : List Char) : List Char :=
  text.dropWhile isSpace

def word : List Char → List Char → Except Fault (List Char)
  | [], text => .ok text
  | _ :: _, [] => .error .endInValue
  | letter :: letters, c :: rest => if c = letter then word letters rest else .error .noWord

/-! ## Texts -/

def hexQuad : List Char → Except Fault (Nat × List Char)
  | a :: b :: c :: d :: rest =>
      match Numeral.hexValue? a, Numeral.hexValue? b, Numeral.hexValue? c, Numeral.hexValue? d with
      | some a, some b, some c, some d => .ok (((a * 16 + b) * 16 + c) * 16 + d, rest)
      | _, _, _, _ => .error .badEscape
  | _ => .error .endInText

def octetsOf (code : Nat) : List Char :=
  (String.utf8EncodeChar (Char.ofNat code)).map Char.ofUInt8

def plainEscape? : Char → Option Char
  | '"' => some '"'
  | '\\' => some '\\'
  | '/' => some '/'
  | 'b' => some '\x08'
  | 'f' => some '\x0c'
  | 'n' => some '\n'
  | 'r' => some '\r'
  | 't' => some '\t'
  | _ => none

def isHighSurrogate (code : Nat) : Bool :=
  0xD800 ≤ code && code ≤ 0xDBFF

def isLowSurrogate (code : Nat) : Bool :=
  0xDC00 ≤ code && code ≤ 0xDFFF

def lowSurrogate (high : Nat) : List Char → Except Fault (List Char × List Char)
  | [] | ['\\'] => .error .endInText
  | '\\' :: 'u' :: rest => do
      let (low, rest) ← hexQuad rest
      if isLowSurrogate low then
        .ok (octetsOf ((high - 0xD800) * 1024 + (low - 0xDC00) + 0x10000), rest)
      else .error .loneSurrogate
  | _ => .error .cutSurrogates

def escaped : List Char → Except Fault (List Char × List Char)
  | [] => .error .endInText
  | 'u' :: rest => do
      let (code, rest) ← hexQuad rest
      if isLowSurrogate code then .error .loneSurrogate
      else if isHighSurrogate code then lowSurrogate code rest
      else .ok (octetsOf code, rest)
  | c :: rest =>
      match plainEscape? c with
      | some c => .ok ([c], rest)
      | none => .error .badEscape

def textOctets (text : List Char) : Except Fault (List Char × List Char) :=
  match text with
  | [] => .error .endInText
  | '"' :: rest => .ok ([], rest)
  | '\\' :: rest =>
      match escaped rest with
      | .error fault => .error fault
      | .ok (piece, after) =>
          if after.length ≤ rest.length then
            (textOctets after).map fun (octets, rest) => (piece ++ octets, rest)
          else .error .endInText
  | c :: rest =>
      if c.toNat < 0x20 then .error .controlCharacter
      else (textOctets rest).map fun (octets, rest) => (c :: octets, rest)
termination_by text.length
decreasing_by all_goals grind

def textBody (text : List Char) : Except Fault (List Char × List Char) := do
  let (octets, rest) ← textOctets text
  match Octets.decode octets with
  | .ok text => .ok (text, rest)
  | .error _ => .error .badCodePoint

def skipEscaped : List Char → Except Fault (List Char)
  | [] => .error .endInText
  | 'u' :: rest => do
      let (_, rest) ← hexQuad rest
      .ok rest
  | c :: rest => if (plainEscape? c).isSome then .ok rest else .error .badEscape

def skipText (text : List Char) : Except Fault (List Char) :=
  match text with
  | [] => .error .endInText
  | '"' :: rest => .ok rest
  | '\\' :: rest =>
      match skipEscaped rest with
      | .error fault => .error fault
      | .ok after => if after.length ≤ rest.length then skipText after else .error .endInText
  | c :: rest => if c.toNat < 0x20 then .error .controlCharacter else skipText rest
termination_by text.length
decreasing_by all_goals grind

/-! ## Numbers -/

/-- Takes digits into a significand until the next one would leave the 64-bit range. -/
def absorb (significand : Nat) : List Char → Nat × List Char
  | [] => (significand, [])
  | c :: rest =>
      let next := 10 * significand + Numeral.digitValue c
      if next < UInt64.size then absorb next rest else (significand, c :: rest)

/-- The float `x * 10 ^ exponent`, reached by one multiplication or division at a time. -/
def scale (x : Float) (exponent : Int) : Except Fault Float :=
  if exponent.natAbs ≤ 308 then
    let power := Float.ofScientific 1 false exponent.natAbs
    if exponent < 0 then .ok (x / power)
    else if (x * power).isInf then .error .numberTooLarge
    else .ok (x * power)
  else if x == 0 then .ok x
  else if 0 ≤ exponent then .error .numberTooLarge
  else scale (x / 1e308) (exponent + 308)
termination_by exponent.natAbs
decreasing_by omega

def float (positive : Bool) (significand : Nat) (exponent : Int) : Except Fault Number := do
  let x ← scale significand.toUInt64.toFloat exponent
  .ok (.float (if positive then x else -x))

def exponentPart (positive : Bool) (significand : Nat) (start : Int) (text : List Char) :
    Except Fault (Number × List Char) := do
  let (ascending, text) := match text with
    | '+' :: rest => (true, rest)
    | '-' :: rest => (false, rest)
    | text => (true, text)
  let digits := text.takeWhile Char.isDigit
  let rest := text.dropWhile Char.isDigit
  if digits.isEmpty then .error (if rest.isEmpty then .endInValue else .badNumber)
  else if Numeral.value digits < 2147483648 then
    let exponent : Int := Numeral.value digits
    let x ← float positive significand (if ascending then start + exponent else start - exponent)
    .ok (x, rest)
  else if significand ≠ 0 ∧ ascending then .error .numberTooLarge
  else .ok (← float positive 0 0, rest)

def fractionPart (positive : Bool) (significand : Nat) (start : Int) (text : List Char) :
    Except Fault (Number × List Char) := do
  let digits := text.takeWhile Char.isDigit
  let rest := text.dropWhile Char.isDigit
  if digits.isEmpty then .error (if rest.isEmpty then .endInValue else .badNumber)
  else
    let (significand, left) := absorb significand digits
    let exponent := start - ((digits.length : Int) - left.length)
    match rest with
    | c :: rest =>
        if c = 'e' ∨ c = 'E' then exponentPart positive significand exponent rest
        else .ok (← float positive significand exponent, c :: rest)
    | [] => .ok (← float positive significand exponent, [])

/-- The integer with this magnitude. One below the range of signed words, and the negative zero,
are kept in double precision. -/
def integer (positive : Bool) (significand : Nat) : Except Fault Number :=
  if positive then .ok (.natural significand.toUInt64)
  else if 0 < significand ∧ significand ≤ Numeral.signedEnd then .ok (.negative (-significand))
  else float false significand 0

def readNumber (positive : Bool) (text : List Char) : Except Fault (Number × List Char) := do
  let digits := text.takeWhile Char.isDigit
  let rest := text.dropWhile Char.isDigit
  if digits.isEmpty then .error (if rest.isEmpty then .endInValue else .badNumber)
  else if digits.head? = some '0' ∧ 1 < digits.length then .error .badNumber
  else
    let (significand, left) := absorb 0 digits
    match rest with
    | '.' :: rest => fractionPart positive significand left.length rest
    | 'e' :: rest => exponentPart positive significand left.length rest
    | 'E' :: rest => exponentPart positive significand left.length rest
    | rest =>
        if left.isEmpty then .ok (← integer positive significand, rest)
        else .ok (← float positive significand left.length, rest)

def skipExponent (text : List Char) : Except Fault (List Char) :=
  let text := match text with
    | '+' :: rest => rest
    | '-' :: rest => rest
    | text => text
  if (text.takeWhile Char.isDigit).isEmpty then .error .badNumber
  else .ok (text.dropWhile Char.isDigit)

def skipScale : List Char → Except Fault (List Char)
  | c :: rest => if c = 'e' ∨ c = 'E' then skipExponent rest else .ok (c :: rest)
  | [] => .ok []

def skipNumber (text : List Char) : Except Fault (List Char) :=
  let digits := text.takeWhile Char.isDigit
  if digits.isEmpty ∨ (digits.head? = some '0' ∧ 1 < digits.length) then .error .badNumber
  else match text.dropWhile Char.isDigit with
    | '.' :: rest =>
        if (rest.takeWhile Char.isDigit).isEmpty then .error .badNumber
        else skipScale (rest.dropWhile Char.isDigit)
    | rest => skipScale rest

end ParcelDesk.Json
