import ParcelDesk.Order
import ParcelDesk.Store.IdMap

/-!
# Racks

A rack lists orders in places that are only ever added. An order that leaves keeps its place, which
is then no longer live, so a place handed out as a cursor stays good. An index finds the place of an
order. A rack read from a file may hold an index that points past the last place; whoever follows it
crashes.
-/

namespace ParcelDesk

/-- Places in the order in which they were filled, and the place of every order. -/
structure Rack where
  slots : List Slot
  index : IdMap Nat

namespace Rack

def empty : Rack := ⟨[], .empty⟩

instance : Inhabited Rack := ⟨empty⟩

def position (rack : Rack) (id : UInt64) : Option Nat :=
  rack.index.get? id

/-- Adds a place at the end for an order that has none. -/
def push (rack : Rack) (slot : Slot) : Except Error (Nat × Rack) :=
  if rack.index.contains slot.id then
    .error (.refused .alreadyExists s!"order {slot.id} is already listed")
  else
    .ok (rack.slots.length,
      ⟨rack.slots ++ [slot], rack.index.insert slot.id rack.slots.length⟩)

def withdraw (rack : Rack) (id : UInt64) : Reply Rack :=
  match rack.position id with
  | none => unlisted
  | some place =>
      match rack.slots[place]? with
      | none => .error (.crash (.indexOutOfBounds rack.slots.length place))
      | some slot =>
          if slot.live then .ok ⟨rack.slots.set place { slot with live := false }, rack.index⟩
          else unlisted
where
  /-- The answer when no live place is found. -/
  unlisted : Reply Rack := Reply.refuse .notFound s!"order {id} is not listed"

/-- The live places, those before `start` aside, and at most as many as the limit admits. -/
def scan (rack : Rack) (start : Nat) (limit : Option Nat) : List Slot :=
  let live := (rack.slots.drop start).filter Slot.live
  match limit with
  | none => live
  | some limit => live.take limit

end Rack

end ParcelDesk
