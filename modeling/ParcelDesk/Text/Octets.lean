/-!
# Octets

The content of a file is a list of octets, each written as the character of its number, so that
ASCII stands for itself. `decode` gives the text that the octets spell in UTF-8, or the place of
the first octet that does not belong to a well-formed sequence.
-/

namespace ParcelDesk.Octets

def ofBytes (content : ByteArray) : List Char :=
  content.toList.map Char.ofUInt8

def toBytes (octets : List Char) : ByteArray :=
  ⟨(octets.map fun c => c.toNat.toUInt8).toArray⟩

def ofString (text : String) : List Char :=
  ofBytes text.toUTF8

def isTail (c : Char) : Bool :=
  0x80 ≤ c.toNat && c.toNat ≤ 0xBF

def tailBits (c : Char) : Nat :=
  c.toNat - 0x80

/-- A sequence of two octets spells a character from U+0080 to U+07FF. -/
def pair? (a b : Char) : Option Char :=
  if 0xC2 ≤ a.toNat && a.toNat ≤ 0xDF && isTail b then
    some (Char.ofNat ((a.toNat - 0xC0) * 64 + tailBits b))
  else none

/-- A sequence of three octets spells a character from U+0800 to U+FFFF, surrogates excluded. -/
def triple? (a b c : Char) : Option Char :=
  let code := (a.toNat - 0xE0) * 4096 + tailBits b * 64 + tailBits c
  if 0xE0 ≤ a.toNat && a.toNat ≤ 0xEF && isTail b && isTail c && 0x800 ≤ code &&
      !(0xD800 ≤ code && code ≤ 0xDFFF) then
    some (Char.ofNat code)
  else none

/-- A sequence of four octets spells a character from U+10000 to U+10FFFF. -/
def quadruple? (a b c d : Char) : Option Char :=
  let code := (a.toNat - 0xF0) * 262144 + tailBits b * 4096 + tailBits c * 64 + tailBits d
  if 0xF0 ≤ a.toNat && a.toNat ≤ 0xF4 && isTail b && isTail c && isTail d && 0x10000 ≤ code &&
      code ≤ 0x10FFFF then
    some (Char.ofNat code)
  else none

/-- Decodes the octets from position `start` on; the error is the position of the first octet
that no well-formed sequence covers. -/
def decodeFrom (start : Nat) : List Char → Except Nat (List Char)
  | [] => .ok []
  | a :: rest =>
      if a.toNat < 0x80 then (decodeFrom (start + 1) rest).map (a :: ·)
      else match rest with
        | [] => .error start
        | b :: rest =>
            match pair? a b with
            | some char => (decodeFrom (start + 2) rest).map (char :: ·)
            | none =>
                match rest with
                | [] => .error start
                | c :: rest =>
                    match triple? a b c with
                    | some char => (decodeFrom (start + 3) rest).map (char :: ·)
                    | none =>
                        match rest with
                        | [] => .error start
                        | d :: rest =>
                            match quadruple? a b c d with
                            | some char => (decodeFrom (start + 4) rest).map (char :: ·)
                            | none => .error start

def decode (octets : List Char) : Except Nat (List Char) :=
  decodeFrom 0 octets

end ParcelDesk.Octets
