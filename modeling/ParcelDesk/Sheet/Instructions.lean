import ParcelDesk.Calendar.Scan
import ParcelDesk.Command
import ParcelDesk.Sheet.Row

/-!
# Instructions of a sheet

The instruction that a row gives. Which columns a row needs depends on its verb; of several faults
the first in the order of the columns is told.
-/

namespace ParcelDesk.Sheet

def reject (detail : String) : Except Error α :=
  .error (.refused .wrongInput detail)

def required (verb : Verb) (column : Column) : Option α → Except Error α
  | some value => .ok value
  | none => reject s!"{verb.title} needs the {column.name} column"

def readId (text : List Char) : Except Error UInt64 :=
  match Numeral.read text with
  | .ok id => .ok id
  | .error fault => reject ("bad order id " ++ Text.quote text ++ ": " ++ fault.message)

def readIds (text : List Char) : Except Error (List UInt64) :=
  (Text.words text).mapM readId

def readSingleId (verb : Verb) (cell : Option (List Char)) : Except Error UInt64 := do
  match ← readIds (← required verb .orders cell) with
  | [id] => .ok id
  | _ => reject s!"{verb.title} takes exactly one order id"

namespace Row

def parcel (row : Row) : Except Error Parcel := do
  let owner ← required .accept .user row.user
  let id ← readSingleId .accept row.orders
  let expires ← Date.read (← required .accept .expiration row.expiration)
  let container ← Container.read (row.package.getD [])
  let weight ← required .accept .weight row.weight
  let base ← required .accept .cost row.cost
  .ok { owner, id, expires, container, wrapped := row.wrap.getD false, weight, base }

def instruction (row : Row) : Verb → Except Error Instruction
  | .workers =>
      .ok (match row.workers with
        | some count => .setWorkers count
        | none => .countWorkers)
  | .accept => do .ok (.run (.accept (← row.parcel)))
  | .refund => do
      let owner ← required .refund .user row.user
      .ok (.run (.refund owner (← readSingleId .refund row.orders)))
  | .give => do
      .ok (.run (.give (← readIds (← required .give .orders row.orders))))
  | .sendBack => do
      .ok (.run (.sendBack (← readSingleId .sendBack row.orders)))
  | .orders => do
      let owner ← required .orders .user row.user
      let first ← if row.orders.isSome then readSingleId .orders row.orders else .ok 0
      .ok (.run (.orders owner first (row.limit.getD 0)))
  | .refunds => do
      let page ← required .refunds .page row.page
      .ok (.run (.refunds page (← required .refunds .limit row.limit)))

end Row

def instructionOf (row : Except Fault Row) : Except Error Instruction :=
  match row with
  | .error fault => .error (.failed .csv fault.message)
  | .ok row =>
      match row.verb with
      | some verb => row.instruction verb
      | none => .error (.failed .csv (Fault.missing .verb).message)

def instructions (sheet : List Char) : List (Except Error Instruction) :=
  (rows sheet).map instructionOf

end ParcelDesk.Sheet
