import ParcelDesk.Text.Numeral
import ParcelDesk.Text.Pieces

/-!
# JSON documents

The values of a JSON document and its two written forms: compact on one line, and spread over
lines with two blanks for each level.
-/

namespace ParcelDesk

/-- A value in a JSON document. Objects keep the order of their members. -/
inductive Json where
  | null
  | bool (value : Bool)
  | number (value : Nat)
  | string (value : List Char)
  | array (items : List Json)
  | object (members : List (String × Json))

namespace Json

def ofString (text : String) : Json := .string text.toList

def ofWord (n : UInt64) : Json := .number n.toNat

def hexPair (code : Nat) : List Char :=
  let digits := Nat.toDigits 16 code
  List.replicate (2 - digits.length) '0' ++ digits

def escape (c : Char) : List Char :=
  if c == '"' then ['\\', '"']
  else if c == '\\' then ['\\', '\\']
  else if c == '\x08' then ['\\', 'b']
  else if c == '\x0c' then ['\\', 'f']
  else if c == '\n' then ['\\', 'n']
  else if c == '\r' then ['\\', 'r']
  else if c == '\t' then ['\\', 't']
  else if c.toNat < 0x20 then ['\\', 'u', '0', '0'] ++ hexPair c.toNat
  else [c]

def quoted (text : List Char) : List Char :=
  '"' :: text.flatMap escape ++ ['"']

mutual

def compact : Json → List Char
  | .null => ['n', 'u', 'l', 'l']
  | .bool true => ['t', 'r', 'u', 'e']
  | .bool false => ['f', 'a', 'l', 's', 'e']
  | .number n => Numeral.digits n
  | .string s => quoted s
  | .array items => '[' :: Text.joined [','] (compactItems items) ++ [']']
  | .object members => '\x7b' :: Text.joined [','] (compactMembers members) ++ ['\x7d']

def compactItems : List Json → List (List Char)
  | [] => []
  | item :: rest => item.compact :: compactItems rest

def compactMembers : List (String × Json) → List (List Char)
  | [] => []
  | (name, value) :: rest => (quoted name.toList ++ ':' :: value.compact) :: compactMembers rest

end

def margin (level : Nat) : List Char :=
  '\n' :: List.replicate (2 * level) ' '

def block (level : Nat) (first last : Char) (pieces : List (List Char)) : List Char :=
  if pieces.isEmpty then [first, last]
  else first :: margin (level + 1) ++ Text.joined (',' :: margin (level + 1)) pieces ++
    margin level ++ [last]

mutual

def spread (level : Nat) : Json → List Char
  | .array items => block level '[' ']' (spreadItems level items)
  | .object members => block level '\x7b' '\x7d' (spreadMembers level members)
  | .null => ['n', 'u', 'l', 'l']
  | .bool true => ['t', 'r', 'u', 'e']
  | .bool false => ['f', 'a', 'l', 's', 'e']
  | .number n => Numeral.digits n
  | .string s => quoted s

def spreadItems (level : Nat) : List Json → List (List Char)
  | [] => []
  | item :: rest => item.spread (level + 1) :: spreadItems level rest

def spreadMembers (level : Nat) : List (String × Json) → List (List Char)
  | [] => []
  | (name, value) :: rest =>
      (quoted name.toList ++ ':' :: ' ' :: value.spread (level + 1)) :: spreadMembers level rest

end

def pretty (document : Json) : List Char :=
  document.spread 0

end Json

end ParcelDesk
