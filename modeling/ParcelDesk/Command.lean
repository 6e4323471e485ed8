import ParcelDesk.Order
import ParcelDesk.Text.Pieces

/-!
# Commands

What a client can ask of the desk, and the texts by which commands and their results are known: the
label of a command, and the line that lists orders.
-/

namespace ParcelDesk

/-- A parcel that a courier hands in for a user. -/
structure Parcel where
  owner : UInt64
  id : UInt64
  expires : Date
  container : Container
  wrapped : Bool
  weight : UInt64
  base : UInt64
deriving DecidableEq

/-- What a client can ask of the desk. -/
inductive Command where
  | accept (parcel : Parcel)
  | refund (owner id : UInt64)
  | give (ids : List UInt64)
  | sendBack (id : UInt64)
  | orders (owner first limit : UInt64)
  | refunds (page size : UInt64)
deriving DecidableEq

/-- A line of a command sheet: a command for the workers, or a request about the workers. -/
inductive Instruction where
  | run (command : Command)
  | setWorkers (count : UInt64)
  | countWorkers
deriving DecidableEq

namespace Command

def idList (ids : List UInt64) : List Char :=
  Text.joined [' '] (ids.map fun id => Numeral.digits id.toNat)

def name : Command → String
  | .accept _ => "accept"
  | .refund _ _ => "refund"
  | .give _ => "give"
  | .sendBack _ => "return"
  | .orders _ _ _ => "orders"
  | .refunds _ _ => "refunds"

/-- The orders that the command is about; the listings are about none. -/
def orderIds : Command → String
  | .accept parcel => String.ofList (idList [parcel.id])
  | .refund _ id | .sendBack id => String.ofList (idList [id])
  | .give ids => String.ofList (idList ids)
  | .orders _ _ _ | .refunds _ _ => ""

def label (command : Command) : String :=
  command.name ++ " " ++ command.orderIds

end Command

namespace Slot

def line (slot : Slot) : List Char :=
  Numeral.digits slot.id.toNat ++ ':' :: Numeral.digits slot.owner.toNat ++
    ':' :: slot.order.label.toList ++ ':' :: Numeral.digits slot.order.cost.toNat ++
    ':' :: slot.order.expires.dayFirst

def listing (slots : List Slot) : List Char :=
  Text.joined [' '] (slots.map line)

end Slot

end ParcelDesk
