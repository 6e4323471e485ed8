import ParcelDesk.Command
import ParcelDesk.Error
import ParcelDesk.Sheet.Cells

/-!
# Reports

What became of a job, and the report that has one line for every job: what it was, the orders it
was about, `ok` or the class of its error, and its result or the wording of its error.
-/

namespace ParcelDesk

/-- What became of a job, under its label. -/
structure Outcome where
  label : String
  result : Except Error String

namespace Report

def header : List (List Char) :=
  ["op".toList, "orders".toList, "outcome".toList, "detail".toList]

/-- The label's first word and what follows the blank behind it. -/
def splitLabel (label : List Char) : List Char × List Char :=
  (label.takeWhile (· ≠ ' '), (label.dropWhile (· ≠ ' ')).drop 1)

def cells (outcome : Outcome) : List (List Char) :=
  let (name, orders) := splitLabel outcome.label.toList
  match outcome.result with
  | .ok detail => [name, orders, "ok".toList, detail.toList]
  | .error error => [name, orders, error.errorClass.code.toList, error.message.toList]

def line (cells : List (List Char)) : List Char :=
  Text.joined [','] (cells.map Sheet.write) ++ ['\n']

def render : List Outcome → List Char
  | [] => []
  | outcomes => (header :: outcomes.map cells).flatMap line

end Report

end ParcelDesk
