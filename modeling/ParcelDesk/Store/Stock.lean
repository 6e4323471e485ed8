import ParcelDesk.Identifiers
import ParcelDesk.Request
import ParcelDesk.Store.Document

/-!
# The stock

All stores together, the answers they give to requests, and the snapshot in which they are kept.
Every request that changes several stores checks before it changes any of them. The checks look at
the history and at what waits for the owners, so they suffice where the stores agree with each
other; a snapshot from elsewhere may hold stores that do not.
-/

namespace ParcelDesk

/-- All stores together. -/
structure Stock where
  history : History
  holdings : Holdings
  refunds : RefundQueue

namespace Stock

def empty : Stock := ⟨.empty, .empty, .empty⟩

instance : Inhabited Stock := ⟨empty⟩

/-- The record of an order that is neither issued nor missing from what waits for its owner. -/
def checkRemovable (stock : Stock) (id : UInt64) : Except Error Record := do
  let record ← stock.history.find id
  if record.status.isIssued then
    .error (.refused .wrongStatus s!"order {id} has already been {record.status.words}")
  else
    let _ ← stock.holdings.get record.owner id
    .ok record

def removeAll (status : Status) (time : Instant) :
    List (UInt64 × UInt64) → Stock → Reply Unit × Stock
  | [], stock => (.ok (), stock)
  | (id, owner) :: rest, stock =>
      match stock.holdings.remove owner id with
      | .error stop => (.error stop, stock)
      | .ok holdings =>
          let stock := { stock with holdings }
          match stock.history.setStatus id status time with
          | .error error => (Reply.fail error, stock)
          | .ok history => removeAll status time rest { stock with history }

def removeOrders (ids : List UInt64) (status : Status) (time : Instant) (stock : Stock) :
    Reply Unit × Stock :=
  let checks := (distinct ids).map fun id =>
    (stock.checkRemovable id).map fun record => (id, record.owner)
  match errorsOf checks with
  | [] => removeAll status time (valuesOf checks) stock
  | errors => (Reply.fail (.fold errors), stock)

def addOrder (owner id : UInt64) (order : Order) (time : Instant) (stock : Stock) :
    Reply Unit × Stock :=
  match stock.history.get? id with
  | some record =>
      (Reply.refuse .alreadyExists s!"order {id} has already been {record.status.words}", stock)
  | none =>
      match stock.holdings.add owner id order with
      | .error error => (Reply.fail error, stock)
      | .ok holdings =>
          let stock := { stock with holdings }
          match stock.history.put id ⟨order, .accepted, owner, time⟩ with
          | .error error => (Reply.fail error, stock)
          | .ok history => (.ok (), { stock with history })

def setStatus (id : UInt64) (status : Status) (time : Instant) (stock : Stock) :
    Reply Unit × Stock :=
  match stock.history.setStatus id status time with
  | .error error => (Reply.fail error, stock)
  | .ok history => (.ok (), { stock with history })

def addRefund (owner id : UInt64) (order : Order) (time : Instant) (stock : Stock) :
    Reply Unit × Stock :=
  match stock.history.find id with
  | .error error => (Reply.fail error, stock)
  | .ok record =>
      if record.status ≠ .issuedToClient then
        (Reply.refuse .wrongStatus
          s!"can't refund order {id}: status = {record.status.words}", stock)
      else if record.owner ≠ owner then
        (Reply.refuse .wrongInput s!"can't refund order {id}: wrong user id", stock)
      else match stock.refunds.add owner id order with
        | .error error => (Reply.fail error, stock)
        | .ok refunds => setStatus id .returned time { stock with refunds }

def removeRefund (id : UInt64) (time : Instant) (stock : Stock) : Reply Unit × Stock :=
  match stock.history.find id with
  | .error error => (Reply.fail error, stock)
  | .ok record =>
      if record.status ≠ .returned then
        (Reply.refuse .wrongStatus
          s!"can't return order {id}: status = {record.status.words}", stock)
      else match RefundQueue.remove stock.refunds id with
        | .error stop => (.error stop, stock)
        | .ok refunds => setStatus id .issuedToCourier time { stock with refunds }

def serve : Server Stock
  | .addOrder owner id order time, stock => stock.addOrder owner id order time
  | .record id, stock => (Reply.ofExcept (stock.history.find id), stock)
  | .order owner id, stock => (Reply.ofExcept (stock.holdings.get owner id), stock)
  | .expiration owner id, stock =>
      (Reply.ofExcept ((stock.holdings.get owner id).map (·.expires)), stock)
  | .checkRemovable id, stock =>
      (Reply.ofExcept ((stock.checkRemovable id).map fun _ => ()), stock)
  | .removeOrders ids status time, stock => stock.removeOrders ids status time
  | .setStatus id status time, stock => stock.setStatus id status time
  | .addRefund owner id order time, stock => stock.addRefund owner id order time
  | .removeRefund id time, stock => stock.removeRefund id time
  | .orders owner first limit, stock =>
      (Reply.ofExcept (stock.holdings.list owner first limit), stock)
  | .refunds page size, stock => (Reply.ofExcept (RefundQueue.list stock.refunds page size), stock)

/-! ## Snapshots -/

open Json

def document (history holdings refunds : Json) : Json :=
  .object [("history", history), ("users", holdings), ("refunds", refunds)]

def toJson (stock : Stock) : Json :=
  document (.ofMap Record.toJson stock.history) (.ofMap Holding.toJson stock.holdings)
    stock.refunds.toJson

inductive Written (stock : Stock) : Json → Prop
  | intro {history holdings refunds : Json}
      (hhistory : MapWritten (fun record => (record.toJson = ·)) stock.history history)
      (hholdings : MapWritten Holding.Written stock.holdings holdings)
      (hrefunds : Rack.Written stock.refunds refunds) :
      Written stock (document history holdings refunds)

theorem written_toJson (stock : Stock) : stock.Written stock.toJson :=
  .intro (mapWritten_ofMap (fun _ => rfl) stock.history)
    (mapWritten_ofMap Holding.written_toJson stock.holdings) (Rack.written_toJson stock.refunds)

structure Draft where
  history : Option History := none
  holdings : Option Holdings := none
  refunds : Option RefundQueue := none

namespace Draft

/-- The stores of a stock. A snapshot may lack any of them. -/
def fields : List (RecordField Draft) :=
  [{ RecordField.make "history" history (fun draft x => { draft with history := some x })
      (readIdMap Record.reader) with optional := true },
   { RecordField.make "users" holdings (fun draft x => { draft with holdings := some x })
      (readIdMap Holding.reader) with optional := true },
   { RecordField.make "refunds" refunds (fun draft x => { draft with refunds := some x })
      Rack.reader with optional := true }]

/-- The stock; a store that was not read is empty. -/
def finish (draft : Draft) : Except Fault Stock :=
  .ok ⟨draft.history.getD .empty, draft.holdings.getD .empty, draft.refunds.getD .empty⟩

end Draft

def reader : Reader Stock :=
  readRecord "Snapshot" Draft.fields {} Draft.finish

/-- The snapshots of a stock, which differ in the order of the members of its maps. -/
def IsSnapshot (stock : Stock) (octets : List Char) : Prop :=
  ∃ document, stock.Written document ∧ octets = document.pretty

/-- The snapshot in which the members of all maps ascend. -/
def snapshot (stock : Stock) : List Char :=
  stock.toJson.pretty

theorem isSnapshot_snapshot (stock : Stock) : stock.IsSnapshot stock.snapshot :=
  ⟨stock.toJson, stock.written_toJson, rfl⟩

/-- The stock in a snapshot's octets. A blank snapshot holds no orders. -/
def ofSnapshot (octets : List Char) : Except Error Stock :=
  if octets.all Text.isAsciiBlank then .ok .empty
  else (readDocument reader octets).mapError fun fault => .failed .json fault.message

end Stock

/-- A way of writing stocks down. Nobody can tell in which order it puts the members of a map. -/
structure Scribe where
  write : Stock → List Char
  isSnapshot : ∀ stock : Stock, stock.IsSnapshot (write stock)

namespace Scribe

def ascending : Scribe := ⟨Stock.snapshot, Stock.isSnapshot_snapshot⟩

end Scribe

end ParcelDesk
