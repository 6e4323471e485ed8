import ParcelDesk.Calendar.Scan
import ParcelDesk.Json.Reader
import ParcelDesk.Json.Value
import ParcelDesk.Store.History
import ParcelDesk.Store.Holdings
import ParcelDesk.Store.RefundQueue

/-!
# Records as documents

The form that orders, their records and the stores have in a JSON document, and the readers of that
form. The members of a map may stand in any order, so that a store is written in many ways; `toJson`
is the one in which they ascend.
-/

namespace ParcelDesk

namespace Json

def ofDate (date : Date) : Json := .string date.yearFirst

def ofInstant (time : Instant) : Json := .string time.text

def readDate : Reader Date :=
  readParsed "a formatted date string" fun text => (Scan.date text).mapError (·.message)

def readInstant : Reader Instant :=
  readParsed "an RFC 3339 formatted date and time string" fun text =>
    (Scan.instant text).mapError (·.message)

def ofMap (show' : α → Json) (map : IdMap α) : Json :=
  .object (map.entries.map fun entry => (Numeral.text entry.1.toNat, show' entry.2))

/-- One member for each entry, in the order of the entries. -/
inductive MembersFor (writes : α → Json → Prop) :
    List (UInt64 × α) → List (String × Json) → Prop
  | nil : MembersFor writes [] []
  | cons {id : UInt64} {value : α} {document : Json} {entries : List (UInt64 × α)}
      {members : List (String × Json)} (hwrites : writes value document)
      (hrest : MembersFor writes entries members) :
      MembersFor writes ((id, value) :: entries) ((Numeral.text id.toNat, document) :: members)

/-- The documents of a map: its members may come in any order. -/
inductive MapWritten (writes : α → Json → Prop) (map : IdMap α) : Json → Prop
  | intro {entries : List (UInt64 × α)} {members : List (String × Json)}
      (hperm : entries.Perm map.entries) (hmembers : MembersFor writes entries members) :
      MapWritten writes map (.object members)

theorem membersFor_map {writes : α → Json → Prop} {show' : α → Json}
    (h : ∀ value, writes value (show' value)) (entries : List (UInt64 × α)) :
    MembersFor writes entries
      (entries.map fun entry => (Numeral.text entry.1.toNat, show' entry.2)) := by
  induction entries with
  | nil => exact .nil
  | cons entry rest ih => exact .cons (h entry.2) ih

theorem mapWritten_ofMap {writes : α → Json → Prop} {show' : α → Json}
    (h : ∀ value, writes value (show' value)) (map : IdMap α) :
    MapWritten writes map (.ofMap show' map) :=
  .intro (.refl _) (membersFor_map h map.entries)

def readIdMap (read : Reader α) : Reader (IdMap α) :=
  readMap IdMap.insert .empty read

end Json

open Json

namespace Container

def toJson (container : Container) : Json := .ofString container.name

def reader : Reader Container :=
  readName (all.map fun container => (container.name, container))

end Container

namespace Status

def toJson (status : Status) : Json := .ofString status.name

def reader : Reader Status :=
  readName (all.map fun status => (status.name, status))

end Status

namespace Order

def toJson (order : Order) : Json :=
  .object [("expiration_date", .ofDate order.expires), ("package", order.container.toJson),
    ("weight", .ofWord order.weight), ("cost", .ofWord order.cost), ("use_tape", .bool order.taped)]

structure Draft where
  expires : Option Date := none
  container : Option Container := none
  weight : Option UInt64 := none
  cost : Option UInt64 := none
  taped : Option Bool := none

namespace Draft

def fields : List (RecordField Draft) :=
  [.make "expiration_date" expires (fun draft x => { draft with expires := some x }) readDate,
   .make "package" container (fun draft x => { draft with container := some x }) Container.reader,
   .make "weight" weight (fun draft x => { draft with weight := some x }) (readWord "u64"),
   .make "cost" cost (fun draft x => { draft with cost := some x }) (readWord "u64"),
   .make "use_tape" taped (fun draft x => { draft with taped := some x }) readBool]

def finish (draft : Draft) : Except Fault Order := do
  .ok {
    expires := ← need "expiration_date" draft.expires
    container := ← need "package" draft.container
    weight := ← need "weight" draft.weight
    cost := ← need "cost" draft.cost
    taped := ← need "use_tape" draft.taped }

end Draft

def reader : Reader Order :=
  readRecord "Order" Draft.fields {} Draft.finish

end Order

namespace Record

def toJson (record : Record) : Json :=
  .object [("order", record.order.toJson), ("status", record.status.toJson),
    ("user_id", .ofWord record.owner), ("updated_at", .ofInstant record.changed)]

structure Draft where
  order : Option Order := none
  status : Option Status := none
  owner : Option UInt64 := none
  changed : Option Instant := none

namespace Draft

def fields : List (RecordField Draft) :=
  [.make "order" order (fun draft x => { draft with order := some x }) Order.reader,
   .make "status" status (fun draft x => { draft with status := some x }) Status.reader,
   .make "user_id" owner (fun draft x => { draft with owner := some x }) (readWord "u64"),
   .make "updated_at" changed (fun draft x => { draft with changed := some x }) readInstant]

def finish (draft : Draft) : Except Fault Record := do
  .ok {
    order := ← need "order" draft.order
    status := ← need "status" draft.status
    owner := ← need "user_id" draft.owner
    changed := ← need "updated_at" draft.changed }

end Draft

def reader : Reader Record :=
  readRecord "OrderStatus" Draft.fields {} Draft.finish

end Record

namespace Slot

def toJson (slot : Slot) : Json :=
  .object [("order", slot.order.toJson), ("user_id", .ofWord slot.owner),
    ("order_id", .ofWord slot.id), ("exists", .bool slot.live)]

structure Draft where
  order : Option Order := none
  owner : Option UInt64 := none
  id : Option UInt64 := none
  live : Option Bool := none

namespace Draft

def fields : List (RecordField Draft) :=
  [.make "order" order (fun draft x => { draft with order := some x }) Order.reader,
   .make "user_id" owner (fun draft x => { draft with owner := some x }) (readWord "u64"),
   .make "order_id" id (fun draft x => { draft with id := some x }) (readWord "u64"),
   .make "exists" live (fun draft x => { draft with live := some x }) readBool]

def finish (draft : Draft) : Except Fault Slot := do
  .ok {
    order := ← need "order" draft.order
    owner := ← need "user_id" draft.owner
    id := ← need "order_id" draft.id
    live := ← need "exists" draft.live }

end Draft

def reader : Reader Slot :=
  readRecord "OrderView" Draft.fields {} Draft.finish

end Slot

namespace Rack

def document (rack : Rack) (index : Json) : Json :=
  .object [("entries", .array (rack.slots.map Slot.toJson)), ("positions", index)]

def toJson (rack : Rack) : Json :=
  rack.document (.ofMap .number rack.index)

inductive Written (rack : Rack) : Json → Prop
  | intro {index : Json}
      (hindex : MapWritten (fun place => (.number place = ·)) rack.index index) :
      Written rack (rack.document index)

theorem written_toJson (rack : Rack) : rack.Written rack.toJson :=
  .intro (mapWritten_ofMap (fun _ => rfl) rack.index)

structure Draft where
  slots : Option (List Slot) := none
  index : Option (IdMap Nat) := none

namespace Draft

def readPlace : Reader Nat := fun text => do
  let (place, rest) ← readWord "usize" text
  .ok (place.toNat, rest)

def fields : List (RecordField Draft) :=
  [.make "entries" slots (fun draft x => { draft with slots := some x }) (readArray Slot.reader),
   .make "positions" index (fun draft x => { draft with index := some x }) (readIdMap readPlace)]

def finish (draft : Draft) : Except Fault Rack := do
  .ok { slots := ← need "entries" draft.slots, index := ← need "positions" draft.index }

end Draft

def reader : Reader Rack :=
  readRecord "ViewArena" Draft.fields {} Draft.finish

end Rack

namespace Holding

def document (holding : Holding) (orders rack : Json) : Json :=
  .object [("user_id", .ofWord holding.owner), ("orders", orders), ("arena", rack)]

def toJson (holding : Holding) : Json :=
  holding.document (.ofMap Order.toJson holding.orders) holding.rack.toJson

inductive Written (holding : Holding) : Json → Prop
  | intro {orders rack : Json}
      (horders : MapWritten (fun order => (order.toJson = ·)) holding.orders orders)
      (hrack : holding.rack.Written rack) : Written holding (holding.document orders rack)

theorem written_toJson (holding : Holding) : holding.Written holding.toJson :=
  .intro (mapWritten_ofMap (fun _ => rfl) holding.orders) holding.rack.written_toJson

structure Draft where
  owner : Option UInt64 := none
  orders : Option (IdMap Order) := none
  rack : Option Rack := none

namespace Draft

def fields : List (RecordField Draft) :=
  [.make "user_id" owner (fun draft x => { draft with owner := some x }) (readWord "u64"),
   .make "orders" orders (fun draft x => { draft with orders := some x }) (readIdMap Order.reader),
   .make "arena" rack (fun draft x => { draft with rack := some x }) Rack.reader]

def finish (draft : Draft) : Except Fault Holding := do
  .ok {
    owner := ← need "user_id" draft.owner
    orders := ← need "orders" draft.orders
    rack := ← need "arena" draft.rack }

end Draft

def reader : Reader Holding :=
  readRecord "UserOrders" Draft.fields {} Draft.finish

end Holding

end ParcelDesk
