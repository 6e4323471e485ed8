import ParcelDesk.Packaging
import ParcelDesk.Calendar.Instant

/-!
# Orders

A parcel as it was accepted, the stages of its life, and the two records that stores keep of it:
the one that says where it stands, and the place it takes in a list.
-/

namespace ParcelDesk

/-- The stages of an order's life. -/
inductive Status where
  | accepted
  | issuedToClient
  | issuedToCourier
  | returned
deriving DecidableEq, Repr, Inhabited

namespace Status

def all : List Status := [.accepted, .issuedToClient, .issuedToCourier, .returned]

def name : Status → String
  | .accepted => "accepted"
  | .issuedToClient => "issued_to_client"
  | .issuedToCourier => "issued_to_courier"
  | .returned => "returned"

def words : Status → String
  | .accepted => "accepted"
  | .issuedToClient => "issued to client"
  | .issuedToCourier => "issued to courier"
  | .returned => "returned"

def read (text : String) : Except Error Status :=
  match all.find? fun status => status.name == text with
  | some status => .ok status
  | none => .error (.internal ("unknown order status " ++ text))

def isIssued : Status → Bool
  | .issuedToClient | .issuedToCourier => true
  | .accepted | .returned => false

def leadsTo : Status → Status → Bool
  | .accepted, .issuedToClient => true
  | .accepted, .issuedToCourier => true
  | .issuedToClient, .returned => true
  | .returned, .issuedToCourier => true
  | _, _ => false

end Status

/-- A parcel as it was accepted. -/
structure Order where
  expires : Date
  container : Container
  weight : UInt64
  cost : UInt64
  taped : Bool
deriving DecidableEq

namespace Order

def make (expires : Date) (weight base : UInt64) (packaging : Packaging) : Except Error Order := do
  let cost ← packaging.cost weight base
  .ok { expires, container := packaging.container, weight, cost, taped := packaging.isTaped }

def label (order : Order) : String :=
  order.container.label order.taped

end Order

/-- Where an order stands: its stage, its owner and the last change. -/
structure Record where
  order : Order
  status : Status
  owner : UInt64
  changed : Instant
deriving DecidableEq

/-- An order's place in a list. It is kept when the order leaves the list. -/
structure Slot where
  order : Order
  owner : UInt64
  id : UInt64
  live : Bool
deriving DecidableEq

namespace Slot

def ofOrder (owner id : UInt64) (order : Order) : Slot :=
  ⟨order, owner, id, true⟩

end Slot

end ParcelDesk
