import ParcelDesk.Store.Rack

/-!
# Holdings

What waits at the desk for each user: the orders still there, and the rack on which all orders ever
accepted for that user have their place.
-/

namespace ParcelDesk

/-- The orders of one user. -/
structure Holding where
  owner : UInt64
  orders : IdMap Order
  rack : Rack

namespace Holding

def empty (owner : UInt64) : Holding := ⟨owner, .empty, .empty⟩

def add (holding : Holding) (id : UInt64) (order : Order) : Except Error Holding :=
  match holding.rack.position id with
  | some _ =>
      .error (.refused .alreadyExists
        s!"order {id} has already been accepted for user {holding.owner}")
  | none => do
      let (_, rack) ← holding.rack.push (.ofOrder holding.owner id order)
      .ok { holding with rack, orders := holding.orders.insert id order }

def get (holding : Holding) (id : UInt64) : Except Error Order :=
  match holding.orders.get? id with
  | some order => .ok order
  | none => .error (.refused .notFound s!"user {holding.owner} doesn't have order {id}")

def remove (holding : Holding) (id : UInt64) : Reply Holding := do
  let _ ← Reply.ofExcept (holding.get id)
  let rack ← holding.rack.withdraw id
  .ok { holding with rack, orders := holding.orders.erase id }

/-- The waiting orders from a cursor on: an order ever accepted, or 0 for the first one. A limit of
0 is none. -/
def list (holding : Holding) (first limit : UInt64) : Except Error (List Slot) := do
  let start ←
    if first = 0 then .ok 0
    else match holding.rack.position first with
      | some place => .ok place
      | none =>
          .error (.refused .notFound s!"order {first} not found for user {holding.owner}")
  .ok (holding.rack.scan start (if limit = 0 then none else some limit.toNat))

end Holding

abbrev Holdings := IdMap Holding

namespace Holdings

def user (holdings : Holdings) (owner : UInt64) : Except Error Holding :=
  match holdings.get? owner with
  | some holding => .ok holding
  | none => .error (.refused .notFound s!"user {owner} not found")

def add (holdings : Holdings) (owner id : UInt64) (order : Order) : Except Error Holdings := do
  let holding ← ((holdings.get? owner).getD (.empty owner)).add id order
  .ok (holdings.insert owner holding)

def get (holdings : Holdings) (owner id : UInt64) : Except Error Order := do
  (← holdings.user owner).get id

def remove (holdings : Holdings) (owner id : UInt64) : Reply Holdings := do
  let holding ← (← Reply.ofExcept (holdings.user owner)).remove id
  .ok (holdings.insert owner holding)

def list (holdings : Holdings) (owner first limit : UInt64) : Except Error (List Slot) := do
  (← holdings.user owner).list first limit

end Holdings

end ParcelDesk
