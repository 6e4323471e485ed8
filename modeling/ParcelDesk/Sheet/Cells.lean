/-!
# Cells

A sheet is a list of records, each on a line and cut into cells by commas. A cell between quotation
marks may hold commas and line ends, and a quotation mark written twice. Lines without any character
are no records. `write` gives a cell the quotation marks it needs to be read back.
-/

namespace ParcelDesk.Sheet

/-- Where a reader of cells stands: in front of a record, in front of a cell, in a cell, between
quotation marks, or behind a quotation mark that may close them. -/
inductive Stand where
  | record
  | cell
  | plain
  | quoted
  | behind
deriving DecidableEq

/-- What a character does to the cells read so far. -/
inductive Move where
  | pass (next : Stand)
  | keep (next : Stand)
  | endCell
  | endRecord

def isLineEnd (c : Char) : Bool :=
  c == '\n' || c == '\r'

def outside (c : Char) : Move :=
  if c == ',' then .endCell
  else if isLineEnd c then .endRecord
  else .keep .plain

def move (stand : Stand) (c : Char) : Move :=
  match stand with
  | .record =>
      if isLineEnd c then .pass .record
      else if c == '"' then .pass .quoted
      else outside c
  | .cell => if c == '"' then .pass .quoted else outside c
  | .plain => outside c
  | .quoted => if c == '"' then .pass .behind else .keep .quoted
  | .behind => if c == '"' then .keep .quoted else outside c

def consChar (c : Char) : List (List (List Char)) → List (List (List Char))
  | (cell :: cells) :: records => ((c :: cell) :: cells) :: records
  | records => records

def consCell : List (List (List Char)) → List (List (List Char))
  | record :: records => ([] :: record) :: records
  | [] => []

def recordsFrom (stand : Stand) : List Char → List (List (List Char))
  | [] => if stand = .record then [] else [[[]]]
  | c :: rest =>
      match move stand c with
      | .pass next => recordsFrom next rest
      | .keep next => consChar c (recordsFrom next rest)
      | .endCell => consCell (recordsFrom .cell rest)
      | .endRecord => [[]] :: recordsFrom .record rest

def records (text : List Char) : List (List (List Char)) :=
  recordsFrom .record text

def needsQuotes (cell : List Char) : Bool :=
  cell.any fun c => c == ',' || c == '"' || isLineEnd c

def write (cell : List Char) : List Char :=
  if needsQuotes cell then
    '"' :: cell.flatMap (fun c => if c == '"' then ['"', '"'] else [c]) ++ ['"']
  else cell

end ParcelDesk.Sheet
