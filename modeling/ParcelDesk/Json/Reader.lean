import ParcelDesk.Json.Lexeme

/-!
# Reading values from a JSON document

A reader takes a value from the front of a document and gives it with the rest, or the first thing
wrong. A record may be written as an object, whose unknown members are skipped, or as the array of
its fields. A map is written as an object whose names are numbers; of two equal names the later one
counts.
-/

namespace ParcelDesk.Json

abbrev Reader (α : Type) := List Char → Except Fault (α × List Char)

/-- Reports a value of the wrong kind, or what keeps it from being a value at all. -/
def unsuitable (wanted : String) (text : List Char) : Fault :=
  let report (found : Except Fault Found) : Fault :=
    match found with
    | .ok found => .wrongKind found wanted
    | .error fault => fault
  match text with
  | 'n' :: rest => report ((word ['u', 'l', 'l'] rest).map fun _ => .null)
  | 't' :: rest => report ((word ['r', 'u', 'e'] rest).map fun _ => .bool true)
  | 'f' :: rest => report ((word ['a', 'l', 's', 'e'] rest).map fun _ => .bool false)
  | '"' :: rest => report ((textBody rest).map fun (found, _) => .text found)
  | '[' :: _ => .wrongKind .array wanted
  | '\x7b' :: _ => .wrongKind .object wanted
  | '-' :: rest => report ((readNumber false rest).map fun (found, _) => .number found)
  | c :: rest =>
      if c.isDigit then report ((readNumber true (c :: rest)).map fun (found, _) => .number found)
      else .noValue
  | [] => .endInValue

def acceptWord (wanted : String) : Number → Except Fault UInt64
  | .natural n => .ok n
  | .negative n => .error (.wrongValue (.negative n) wanted)
  | .float x => .error (.wrongKind (.number (.float x)) wanted)

def readWord (wanted : String) : Reader UInt64 := fun text =>
  match skip text with
  | '-' :: rest => do
      let (found, rest) ← readNumber false rest
      .ok (← acceptWord wanted found, rest)
  | c :: rest =>
      if c.isDigit then do
        let (found, rest) ← readNumber true (c :: rest)
        .ok (← acceptWord wanted found, rest)
      else .error (unsuitable wanted (c :: rest))
  | [] => .error .endInValue

def readBool : Reader Bool := fun text =>
  match skip text with
  | 't' :: rest => do .ok (true, ← word ['r', 'u', 'e'] rest)
  | 'f' :: rest => do .ok (false, ← word ['a', 'l', 's', 'e'] rest)
  | text => .error (unsuitable "a boolean" text)

def readText (wanted : String) : Reader (List Char) := fun text =>
  match skip text with
  | '"' :: rest => textBody rest
  | text => .error (unsuitable wanted text)

def readParsed (wanted : String) (parse : List Char → Except String α) : Reader α := fun text => do
  let (text, rest) ← readText wanted text
  match parse text with
  | .ok value => .ok (value, rest)
  | .error detail => .error (.unreadable detail)

def readNull : Reader Unit := fun text =>
  match skip text with
  | 'n' :: rest => do .ok ((), ← word ['u', 'l', 'l'] rest)
  | text => .error (unsuitable "unit" text)

def colon (text : List Char) : Except Fault (List Char) :=
  match skip text with
  | ':' :: rest => .ok rest
  | [] => .error .endInObject
  | _ => .error .noColon

def choose (known : List (String × α)) (name : List Char) : Except Fault α :=
  match known.find? fun entry => entry.1.toList == name with
  | some entry => .ok entry.2
  | none => .error (.unknown name (known.map (·.1)))

/-- Reads one of several names, alone or as the only member of an object, with nothing in it. -/
def readName (known : List (String × α)) : Reader α := fun text =>
  match skip text with
  | '"' :: rest => do
      let (name, rest) ← textBody rest
      .ok (← choose known name, rest)
  | '\x7b' :: rest => do
      let (name, rest) ← readText "variant identifier" rest
      let value ← choose known name
      let (_, rest) ← readNull (← colon rest)
      match skip rest with
      | '\x7d' :: rest => .ok (value, rest)
      | [] => .error .endInObject
      | _ => .error .noValue
  | [] => .error .endInValue
  | _ => .error .noValue

/-! ## Arrays -/

/-- The next item of an array, if there is one. Between two items stands a comma. -/
def nextItem (first : Bool) (text : List Char) : Except Fault (Option (List Char)) :=
  match skip text with
  | [] => .error .endInArray
  | ']' :: _ => .ok none
  | c :: rest =>
      if first then .ok (some (c :: rest))
      else if c = ',' then
        match skip rest with
        | [] => .error .endInValue
        | ']' :: _ => .error .trailingComma
        | rest => .ok (some rest)
      else .error .noArrayComma

def endArray (text : List Char) : Except Fault (List Char) :=
  match skip text with
  | [] => .error .endInArray
  | ']' :: rest => .ok rest
  | ',' :: rest =>
      match skip rest with
      | ']' :: _ => .error .trailingComma
      | _ => .error .trailingCharacters
  | _ => .error .trailingCharacters

def items (read : Reader α) (first : Bool) (text : List Char) :
    Except Fault (List α × List Char) :=
  match nextItem first text with
  | .error fault => .error fault
  | .ok none => (endArray text).map fun rest => ([], rest)
  | .ok (some item) =>
      match read item with
      | .error fault => .error fault
      | .ok (value, after) =>
          if after.length < text.length then
            (items read false after).map fun (values, rest) => (value :: values, rest)
          else .error .endInArray
termination_by text.length

def readArray (read : Reader α) : Reader (List α) := fun text =>
  match skip text with
  | '[' :: rest => items read true rest
  | text => .error (unsuitable "a sequence" text)

/-! ## Objects -/

def nextMember (first : Bool) (text : List Char) : Except Fault (Option (List Char)) :=
  match skip text with
  | [] => .error .endInObject
  | '\x7d' :: _ => .ok none
  | c :: rest =>
      if first then if c = '"' then .ok (some (c :: rest)) else .error .keyNoText
      else if c = ',' then
        match skip rest with
        | [] => .error .endInValue
        | '\x7d' :: _ => .error .trailingComma
        | '"' :: rest => .ok (some ('"' :: rest))
        | _ => .error .keyNoText
      else .error .noObjectComma

def endObject (text : List Char) : Except Fault (List Char) :=
  match skip text with
  | [] => .error .endInObject
  | '\x7d' :: rest => .ok rest
  | ',' :: _ => .error .trailingComma
  | _ => .error .trailingCharacters

/-- Reads the members of an object up to its end, each of them by `step` from its quotation mark
on. -/
def members (step : σ → List Char → Except Fault (σ × List Char)) (first : Bool) (state : σ)
    (text : List Char) : Except Fault (σ × List Char) :=
  match nextMember first text with
  | .error fault => .error fault
  | .ok none => (endObject text).map fun rest => (state, rest)
  | .ok (some member) =>
      match step state member with
      | .error fault => .error fault
      | .ok (state, after) =>
          if after.length < text.length then members step false state after
          else .error .endInObject
termination_by text.length

/-! ## Skipping -/

/-- What encloses a skipped value. -/
inductive Frame where
  | array
  | object
deriving DecidableEq

/-- Where a skipping reader stands: in front of a value, of an item of the innermost frame, or
behind a value. -/
inductive Stand where
  | value
  | item
  | behind
deriving DecidableEq

def skipScalar : List Char → Except Fault (List Char)
  | 'n' :: rest => word ['u', 'l', 'l'] rest
  | 't' :: rest => word ['r', 'u', 'e'] rest
  | 'f' :: rest => word ['a', 'l', 's', 'e'] rest
  | '"' :: rest => skipText rest
  | '-' :: rest => skipNumber rest
  | c :: rest => if c.isDigit then skipNumber (c :: rest) else .error .noValue
  | [] => .error .endInValue

def skipName (text : List Char) : Except Fault (List Char) :=
  match skip text with
  | '"' :: rest => do colon (← skipText rest)
  | [] => .error .endInObject
  | _ => .error .keyNoText

def skipFrames : Nat → List Frame → Stand → List Char → Except Fault (List Char)
  | 0, _, _, _ => .error .endInValue
  | fuel + 1, frames, .value, text =>
      match skip text with
      | '[' :: rest =>
          match skip rest with
          | [] => .error .endInArray
          | ']' :: rest => skipFrames fuel frames .behind rest
          | rest => skipFrames fuel (.array :: frames) .item rest
      | '\x7b' :: rest =>
          match skip rest with
          | [] => .error .endInObject
          | '\x7d' :: rest => skipFrames fuel frames .behind rest
          | rest => skipFrames fuel (.object :: frames) .item rest
      | text => do skipFrames fuel frames .behind (← skipScalar text)
  | fuel + 1, .object :: frames, .item, text => do
      skipFrames fuel (.object :: frames) .value (← skipName text)
  | fuel + 1, frames, .item, text => skipFrames fuel frames .value text
  | _, [], .behind, text => .ok text
  | fuel + 1, .array :: frames, .behind, text =>
      match skip text with
      | [] => .error .endInArray
      | ',' :: rest => skipFrames fuel (.array :: frames) .item rest
      | ']' :: rest => skipFrames fuel frames .behind rest
      | _ => .error .noArrayComma
  | fuel + 1, .object :: frames, .behind, text =>
      match skip text with
      | [] => .error .endInObject
      | ',' :: rest => skipFrames fuel (.object :: frames) .item rest
      | '\x7d' :: rest => skipFrames fuel frames .behind rest
      | _ => .error .noObjectComma

/-- Skips a value. Every three steps it passes at least one character. -/
def skipValue (text : List Char) : Except Fault (List Char) :=
  skipFrames (3 * text.length + 3) [] .value text

/-! ## Records and maps -/

/-- A field of a record that is read into a draft. -/
structure RecordField (σ : Type) where
  name : String
  optional : Bool
  isSet : σ → Bool
  read : σ → List Char → Except Fault (σ × List Char)

namespace RecordField

def make (name : String) (get : σ → Option α) (set : σ → α → σ) (read : Reader α) :
    RecordField σ where
  name := name
  optional := false
  isSet draft := (get draft).isSome
  read draft text := do
    let (value, rest) ← read text
    .ok (set draft value, rest)

end RecordField

def recordMember (fields : List (RecordField σ)) (draft : σ) (text : List Char) :
    Except Fault (σ × List Char) := do
  let (name, rest) ← textBody (text.drop 1)
  match fields.find? fun field => field.name.toList == name with
  | some field =>
      if field.isSet draft then .error (.repeated field.name)
      else field.read draft (← colon rest)
  | none => .ok (draft, ← skipValue (← colon rest))

def recordItems (wanted : String) : List (RecordField σ) → Nat → σ → List Char →
    Except Fault (σ × List Char)
  | [], _, draft, text => .ok (draft, text)
  | field :: fields, count, draft, text => do
      match ← nextItem (count == 0) text with
      | some item =>
          let (draft, rest) ← field.read draft item
          recordItems wanted fields (count + 1) draft rest
      | none =>
          if field.optional then recordItems wanted fields count draft text
          else .error (.wrongLength count wanted)

def readRecord (name : String) (fields : List (RecordField σ)) (start : σ)
    (finish : σ → Except Fault α) : Reader α := fun text =>
  match skip text with
  | '[' :: rest => do
      let wanted := s!"struct {name} with {fields.length} elements"
      let (draft, rest) ← recordItems wanted fields 0 start rest
      let value ← finish draft
      .ok (value, ← endArray rest)
  | '\x7b' :: rest => do
      let (draft, rest) ← members (recordMember fields) true start rest
      .ok (← finish draft, rest)
  | text => .error (unsuitable s!"struct {name}" text)

def need (name : String) : Option α → Except Fault α
  | some value => .ok value
  | none => .error (.missing name)

def numberName (text : List Char) : Except Fault (UInt64 × List Char) := do
  let rest := text.drop 1
  let begins := match rest with
    | c :: _ => c.isDigit || c == '-'
    | [] => false
  if begins then
    let (id, rest) ← readWord "u64" rest
    match rest with
    | '"' :: rest => .ok (id, rest)
    | _ => .error .noQuote
  else .error .keyNoNumber

/-- Reads an object whose names are numbers, adding each member by `put`. -/
def readMap (put : σ → UInt64 → α → σ) (empty : σ) (read : Reader α) : Reader σ := fun text =>
  match skip text with
  | '\x7b' :: rest =>
      members (fun map text => do
        let (id, rest) ← numberName text
        let (value, rest) ← read (← colon rest)
        .ok (put map id value, rest)) true empty rest
  | text => .error (unsuitable "a map" text)

def readDocument (read : Reader α) (document : List Char) : Except Fault α := do
  let (value, rest) ← read document
  if (skip rest).isEmpty then .ok value else .error .trailingCharacters

end ParcelDesk.Json
