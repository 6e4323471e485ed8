import ParcelDesk.Order

/-!
# Rows

The three tables of the relational store, and how orders are kept in their rows: numbers in signed
columns, names as texts, times to the microsecond. What a column cannot hold is turned down before
it is sent; a row that no order could have left behind is a failure inside the engine.
-/

namespace ParcelDesk.Relational

def greatest : Nat := Numeral.signedEnd - 1

def bound (value : UInt64) : Except Error Int64 :=
  if value.toNat ≤ greatest then .ok value.toInt64
  else .error (.refused .wrongInput s!"{value} is out of range")

def unbound (number : Int64) : Except Error UInt64 :=
  if number < 0 then .error (.internal s!"negative value {number.toInt} in database")
  else .ok number.toUInt64

/-- The moment from which columns count, 2000-01-01T00:00:00, in nanoseconds from 1970. -/
def origin : Int := 946684800 * 1000000000

/-- A moment as a column holds it: what is finer than a microsecond is cut off toward the
origin. -/
def stored (time : Instant) : Instant :=
  (Instant.ofNanos? (origin + (time.nanos - origin).tdiv 1000 * 1000)).getD time

structure Columns where
  expires : Date
  container : String
  weight : Int64
  cost : Int64
  taped : Bool
deriving DecidableEq

namespace Columns

def ofOrder (order : Order) : Except Error Columns := do
  let weight ← bound order.weight
  let cost ← bound order.cost
  .ok { expires := order.expires, container := order.container.name, weight, cost,
        taped := order.taped }

def order (columns : Columns) : Except Error Order := do
  let container ← Container.read columns.container.toList
  let weight ← unbound columns.weight
  let cost ← unbound columns.cost
  .ok { expires := columns.expires, container, weight, cost, taped := columns.taped }

end Columns

/-- A row of the history: where an order stands. -/
structure HistoryRow where
  id : Int64
  owner : Int64
  parcel : Columns
  status : String
  changed : Instant
deriving DecidableEq

namespace HistoryRow

def record (row : HistoryRow) : Except Error Record := do
  let order ← row.parcel.order
  let status ← Status.read row.status
  let owner ← unbound row.owner
  .ok ⟨order, status, owner, row.changed⟩

end HistoryRow

/-- A row of a listing: an order's place. -/
structure SlotRow where
  id : Int64
  owner : Int64
  parcel : Columns
  live : Bool
deriving DecidableEq

namespace SlotRow

def slot (row : SlotRow) : Except Error Slot := do
  let owner ← unbound row.owner
  let id ← unbound row.id
  let order ← row.parcel.order
  .ok (.ofOrder owner id order)

end SlotRow

inductive Listing where
  | orders
  | refunds
deriving DecidableEq

namespace Listing

def name : Listing → String
  | .orders => "orders"
  | .refunds => "refunds"

end Listing

/-- All rows, each table in the order in which its rows were inserted. Rows are never deleted, so
the number of rows before one is its position. -/
structure Tables where
  history : List HistoryRow := []
  orders : List SlotRow := []
  refunds : List SlotRow := []

namespace Tables

def rows (tables : Tables) : Listing → List SlotRow
  | .orders => tables.orders
  | .refunds => tables.refunds

def withRows (tables : Tables) : Listing → List SlotRow → Tables
  | .orders, rows => { tables with orders := rows }
  | .refunds, rows => { tables with refunds := rows }

end Tables

end ParcelDesk.Relational
