import ParcelDesk.Sheet.Cells
import ParcelDesk.Text.Blank
import ParcelDesk.Text.Numeral
import ParcelDesk.Text.Octets

/-!
# Rows

The rows of a command sheet. The first record names the columns, in any order; unknown columns are
skipped and a row may end early. If the names are not well-formed text the columns count in their
usual order instead, and every row must have all of them.
-/

namespace ParcelDesk.Sheet

inductive Verb where
  | accept
  | refund
  | give
  | sendBack
  | orders
  | refunds
  | workers
deriving DecidableEq, Repr

namespace Verb

def all : List Verb := [.accept, .refund, .give, .sendBack, .orders, .refunds, .workers]

def name : Verb → String
  | .accept => "accept"
  | .refund => "refund"
  | .give => "give"
  | .sendBack => "return"
  | .orders => "orders"
  | .refunds => "refunds"
  | .workers => "workers"

def title : Verb → String
  | .accept => "Accept"
  | .refund => "Refund"
  | .give => "Give"
  | .sendBack => "Return"
  | .orders => "Orders"
  | .refunds => "Refunds"
  | .workers => "Workers"

end Verb

inductive Column where
  | verb
  | user
  | orders
  | expiration
  | package
  | weight
  | cost
  | wrap
  | page
  | limit
  | workers
deriving DecidableEq, Repr

namespace Column

def all : List Column :=
  [.verb, .user, .orders, .expiration, .package, .weight, .cost, .wrap, .page, .limit, .workers]

def name : Column → String
  | .verb => "op"
  | .user => "user"
  | .orders => "orders"
  | .expiration => "expiration"
  | .package => "package"
  | .weight => "weight"
  | .cost => "cost"
  | .wrap => "wrap"
  | .page => "page"
  | .limit => "limit"
  | .workers => "workers"

end Column

inductive Fault where
  | badText (cell position : Nat)
  | endOfRow
  | badNumber (cell : Nat) (fault : Numeral.Fault)
  | badFlag (cell : Nat)
  | unknownVerb (name : List Char)
  | missing (column : Column)
  | repeated (column : Column)
  | tooShort (length : Nat)

namespace Fault

def message : Fault → String
  | .badText cell position =>
      s!"CSV parse error: invalid utf-8: invalid UTF-8 in field {cell} near byte index {position}"
  | .endOfRow => "CSV deserialize error: expected field, but got end of row"
  | .badNumber cell fault => s!"CSV deserialize error: field {cell}: {fault.message}"
  | .badFlag cell =>
      s!"CSV deserialize error: field {cell}: provided string was not `true` or `false`"
  | .unknownVerb name =>
      let known := String.intercalate ", " (Verb.all.map fun verb => "`" ++ verb.name ++ "`")
      "CSV deserialize error: unknown variant `" ++ String.ofList name ++
        "`, expected one of " ++ known
  | .missing column => s!"CSV deserialize error: missing field `{column.name}`"
  | .repeated column => s!"CSV deserialize error: duplicate field `{column.name}`"
  | .tooShort length =>
      s!"CSV deserialize error: invalid length {length}, " ++
        "expected struct CommandRecord with 11 elements"

end Fault

/-- The cells of a row, read by their columns. An empty cell is none. -/
structure Row where
  verb : Option Verb := none
  user : Option UInt64 := none
  orders : Option (List Char) := none
  expiration : Option (List Char) := none
  package : Option (List Char) := none
  weight : Option UInt64 := none
  cost : Option UInt64 := none
  wrap : Option Bool := none
  page : Option UInt64 := none
  limit : Option UInt64 := none
  workers : Option UInt64 := none

/-! ## Cells as text -/

/-- Decodes cells after taking plain blanks off their ends, then takes off all others. -/
def decodeCells (count : Nat) : List (List Char) → Except Fault (List (List Char))
  | [] => .ok []
  | cell :: rest =>
      match Octets.decode (Text.trimBy Text.isAsciiBlank cell) with
      | .error position => .error (.badText count position)
      | .ok text => (decodeCells (count + 1) rest).map (Text.trim text :: ·)

/-! ## Cells by column -/

def readVerb (text : List Char) : Except Fault Verb :=
  match Verb.all.find? fun verb => verb.name.toList == text with
  | some verb => .ok verb
  | none => .error (.unknownVerb text)

def readNumber (cell : Nat) (text : List Char) : Except Fault UInt64 :=
  (Numeral.readAnyBase text).mapError (.badNumber cell)

def readFlag (cell : Nat) (text : List Char) : Except Fault Bool :=
  if text == ['t', 'r', 'u', 'e'] then .ok true
  else if text == ['f', 'a', 'l', 's', 'e'] then .ok false
  else .error (.badFlag cell)

namespace Row

def put (row : Row) (column : Column) (cell : Nat) (text : List Char) : Except Fault Row :=
  match column with
  | .verb => do .ok { row with verb := ← readVerb text }
  | .user => do .ok { row with user := ← readNumber cell text }
  | .orders => .ok { row with orders := text }
  | .expiration => .ok { row with expiration := text }
  | .package => .ok { row with package := text }
  | .weight => do .ok { row with weight := ← readNumber cell text }
  | .cost => do .ok { row with cost := ← readNumber cell text }
  | .wrap => do .ok { row with wrap := ← readFlag cell text }
  | .page => do .ok { row with page := ← readNumber cell text }
  | .limit => do .ok { row with limit := ← readNumber cell text }
  | .workers => do .ok { row with workers := ← readNumber cell text }

/-- The row with the next cell, if there is one, under a column. Only the verb must be there, and
only for the verb does an empty cell count. -/
def fill (row : Row) (column : Column) (cell : Nat) :
    List (List Char) → Except Fault (Row × List (List Char))
  | [] => if column = .verb then .error .endOfRow else .ok (row, [])
  | text :: rest =>
      if text.isEmpty ∧ column ≠ .verb then .ok (row, rest)
      else do .ok (← row.put column cell text, rest)

def byName (row : Row) (seen : List Column) (cell : Nat) :
    List (List Char) → List (List Char) → Except Fault Row
  | [], _ => if Column.verb ∈ seen then .ok row else .error (.missing .verb)
  | name :: names, cells =>
      match Column.all.find? fun column => column.name.toList == name with
      | some column =>
          if column ∈ seen then .error (.repeated column)
          else do
            let (row, rest) ← row.fill column cell cells
            row.byName (column :: seen) (cell + 1) names rest
      | none =>
          match cells with
          | [] => .error .endOfRow
          | _ :: rest => row.byName seen (cell + 1) names rest

def byOrder (row : Row) (cell : Nat) : List Column → List (List Char) → Except Fault Row
  | [], _ => .ok row
  | _ :: _, [] => .error (.tooShort cell)
  | column :: columns, text :: rest => do
      let (row, rest) ← row.fill column cell (text :: rest)
      row.byOrder (cell + 1) columns rest

/-- Reads a record under the names of the columns, if these are known. -/
def ofRecord (names : Option (List (List Char))) (record : List (List Char)) :
    Except Fault Row := do
  let cells ← decodeCells 0 record
  match names with
  | some names => byName {} [] 0 names cells
  | none => byOrder {} 0 Column.all cells

end Row

def dropMark : List Char → List Char
  | '\xef' :: '\xbb' :: '\xbf' :: rest => rest
  | text => text

def rows (sheet : List Char) : List (Except Fault Row) :=
  match records (dropMark sheet) with
  | [] => []
  | header :: rest =>
      let names := (decodeCells 0 header).toOption
      rest.map (Row.ofRecord names)

end ParcelDesk.Sheet
