import ParcelDesk.Decimal.Shortest
import ParcelDesk.Text.Quoted

/-!
# Faults of JSON documents

What can be wrong with a document: it breaks the rules of JSON, or it follows them and holds
something other than the record that is read from it.
-/

namespace ParcelDesk.Json

/-- A written number. One that is no 64-bit integer is kept in double precision. -/
inductive Number where
  | natural (value : UInt64)
  | negative (value : Int)
  | float (value : Float)

inductive Found where
  | null
  | bool (value : Bool)
  | number (value : Number)
  | text (value : List Char)
  | array
  | object

inductive Fault where
  | endInArray
  | endInObject
  | endInText
  | endInValue
  | noColon
  | noArrayComma
  | noObjectComma
  | noWord
  | noValue
  | noQuote
  | badEscape
  | badNumber
  | numberTooLarge
  | badCodePoint
  | controlCharacter
  | keyNoText
  | keyNoNumber
  | loneSurrogate
  | cutSurrogates
  | trailingComma
  | trailingCharacters
  | wrongKind (found : Found) (wanted : String)
  | wrongValue (found : Number) (wanted : String)
  | wrongLength (length : Nat) (wanted : String)
  | missing (field : String)
  | repeated (field : String)
  | unknown (name : List Char) (known : List String)
  | unreadable (detail : String)

namespace Number

def words : Number → String
  | .natural n => s!"integer `{n}`"
  | .negative n => s!"integer `{n}`"
  | .float x => "floating point `" ++ String.ofList (Decimal.ofFloat x) ++ "`"

end Number

namespace Found

def words : Found → String
  | .null => "null"
  | .bool value => s!"boolean `{value}`"
  | .number value => value.words
  | .text value => "string " ++ Text.quote value
  | .array => "sequence"
  | .object => "map"

end Found

namespace Fault

def message : Fault → String
  | .endInArray => "EOF while parsing a list"
  | .endInObject => "EOF while parsing an object"
  | .endInText => "EOF while parsing a string"
  | .endInValue => "EOF while parsing a value"
  | .noColon => "expected `:`"
  | .noArrayComma => "expected `,` or `]`"
  | .noObjectComma => "expected `,` or `\x7d`"
  | .noWord => "expected ident"
  | .noValue => "expected value"
  | .noQuote => "expected `\"`"
  | .badEscape => "invalid escape"
  | .badNumber => "invalid number"
  | .numberTooLarge => "number out of range"
  | .badCodePoint => "invalid unicode code point"
  | .controlCharacter => "control character (\\u0000-\\u001F) found while parsing a string"
  | .keyNoText => "key must be a string"
  | .keyNoNumber => "invalid value: expected key to be a number in quotes"
  | .loneSurrogate => "lone leading surrogate in hex escape"
  | .cutSurrogates => "unexpected end of hex escape"
  | .trailingComma => "trailing comma"
  | .trailingCharacters => "trailing characters"
  | .wrongKind found wanted => s!"invalid type: {found.words}, expected {wanted}"
  | .wrongValue found wanted => s!"invalid value: {found.words}, expected {wanted}"
  | .wrongLength length wanted => s!"invalid length {length}, expected {wanted}"
  | .missing field => s!"missing field `{field}`"
  | .repeated field => s!"duplicate field `{field}`"
  | .unknown name known =>
      let listed := String.intercalate ", " (known.map fun name => s!"`{name}`")
      "unknown variant `" ++ String.ofList name ++ "`, expected one of " ++ listed
  | .unreadable detail => detail

end Fault

end ParcelDesk.Json
