import ParcelDesk.Identifiers
import ParcelDesk.Relational.Database
import ParcelDesk.Request

/-!
# The relational store

The store of orders that keeps them in the tables of a database. Every request is one transaction.
Its checks and its changes see the same copy of the tables, so nothing can come between them; a
change whose checks the keys do not repeat is made in a serializable transaction.
-/

namespace ParcelDesk.Relational

/-! ## The history -/

def findRecord (id : UInt64) : Work (Option Record) := do
  let number ← Work.ofExcept (bound id)
  match ← Work.query (.findHistory number) with
  | some row => some <$> Work.ofExcept row.record
  | none => return none

def record (id : UInt64) : Work Record := do
  match ← findRecord id with
  | some record => return record
  | none => Work.refuse .notFound s!"order {id} not found"

def status (id : UInt64) : Work Status := do
  let number ← Work.ofExcept (bound id)
  match ← Work.query (.findStatus number) with
  | some text => Work.ofExcept (Status.read text)
  | none => Work.refuse .notFound s!"order {id} not found"

def putAccepted (owner id : UInt64) (order : Order) (time : Instant) : Work Unit := do
  let number ← Work.ofExcept (bound id)
  let owner ← Work.ofExcept (bound owner)
  let parcel ← Work.ofExcept (Columns.ofOrder order)
  Work.insert (.insertHistory ⟨number, owner, parcel, Status.accepted.name, stored time⟩)
    s!"order {id} has already been accepted"

def setStatus (id : UInt64) (status : Status) (time : Instant) : Work Unit := do
  let number ← Work.ofExcept (bound id)
  if ← Work.query (.setStatus number status.name (stored time)) then return
  else Work.refuse .notFound s!"order {id} not found"

/-! ## The listings -/

def list (listing : Listing) (owner id : UInt64) (order : Order) : Work Unit := do
  let owner ← Work.ofExcept (bound owner)
  let number ← Work.ofExcept (bound id)
  let parcel ← Work.ofExcept (Columns.ofOrder order)
  Work.insert (.insertSlot listing ⟨number, owner, parcel, true⟩)
    s!"order {id} is already in {listing.name}"

def withdraw (listing : Listing) (id : UInt64) : Work Unit := do
  let number ← Work.ofExcept (bound id)
  if ← Work.query (.withdraw listing number) then return
  else Work.refuse .notFound s!"order {id} is not in {listing.name}"

def findLive (owner id : UInt64) : Work (Option Order) := do
  let ownerNumber ← Work.ofExcept (bound owner)
  let number ← Work.ofExcept (bound id)
  match ← Work.query (.findLive ownerNumber number) with
  | some parcel => some <$> Work.ofExcept parcel.order
  | none => return none

def checkUser (owner : UInt64) : Work Unit := do
  let number ← Work.ofExcept (bound owner)
  if ← Work.query (.hasUser number) then return
  else Work.refuse .notFound s!"user {owner} not found"

def position (owner id : UInt64) : Work Nat := do
  let ownerNumber ← Work.ofExcept (bound owner)
  let number ← Work.ofExcept (bound id)
  match ← Work.query (.position ownerNumber number) with
  | some place => return place
  | none => Work.refuse .notFound s!"order {id} not found for user {owner}"

def slots (rows : List SlotRow) : Work (List Slot) :=
  Work.ofExcept (rows.mapM SlotRow.slot)

/-! ## Requests -/

def addOrder (owner id : UInt64) (order : Order) (time : Instant) : Work Unit := do
  match ← findRecord id with
  | some record =>
      Work.refuse .alreadyExists s!"order {id} has already been {record.status.words}"
  | none =>
      list .orders owner id order
      putAccepted owner id order time

def order (owner id : UInt64) : Work Order := do
  checkUser owner
  match ← findLive owner id with
  | some order => return order
  | none => Work.refuse .notFound s!"user {owner} doesn't have order {id}"

/-- Fails for an order that is issued or missing from what waits for its owner. -/
def checkRemovable (id : UInt64) : Work Unit := do
  let record ← record id
  if record.status.isIssued then
    Work.refuse .wrongStatus s!"order {id} has already been {record.status.words}"
  else match ← findLive record.owner id with
    | some _ => return
    | none => Work.refuse .notFound s!"user {record.owner} doesn't have order {id}"

/-- Checks orders one after the other and tells their errors. -/
def checkAll : List UInt64 → Work (List Error)
  | [] => return []
  | id :: rest => do
      let checked ← (checkRemovable id).attempt
      let errors ← checkAll rest
      match checked with
      | .ok () => return errors
      | .error error => return error :: errors

def removeAll (status : Status) (time : Instant) : List UInt64 → Work Unit
  | [] => return
  | id :: rest => do
      withdraw .orders id
      setStatus id status time
      removeAll status time rest

def removeOrders (ids : List UInt64) (status : Status) (time : Instant) : Work Unit := do
  let ids := distinct ids
  match ← checkAll ids with
  | [] => removeAll status time ids
  | errors => .fail (.fold errors)

def addRefund (owner id : UInt64) (order : Order) (time : Instant) : Work Unit := do
  let record ← record id
  if record.status ≠ .issuedToClient then
    Work.refuse .wrongStatus s!"can't refund order {id}: status = {record.status.words}"
  else if record.owner ≠ owner then
    Work.refuse .wrongInput s!"can't refund order {id}: wrong user id"
  else
    list .refunds owner id order
    setStatus id .returned time

def removeRefund (id : UInt64) (time : Instant) : Work Unit := do
  let status ← status id
  if status ≠ .returned then
    Work.refuse .wrongStatus s!"can't return order {id}: status = {status.words}"
  else
    withdraw .refunds id
    setStatus id .issuedToCourier time

/-- The orders that wait for a user from a cursor on: an order ever accepted, or 0 for the first
one. A limit of 0 is none. -/
def orders (owner first limit : UInt64) : Work (List Slot) := do
  checkUser owner
  let start ← if first = 0 then pure 0 else position owner first
  let limit := if limit = 0 then none else some (min limit.toNat greatest)
  let number ← Work.ofExcept (bound owner)
  slots (← Work.query (.scanUser number start limit))

/-- The live orders of the refund queue from a page's first place on, as many as a page may show. -/
def refunds (page size : UInt64) : Work (List Slot) := do
  let start := min ((page.toNat - 1) * size.toNat) greatest
  slots (← Work.query (.scanRefunds start (min size.toNat greatest)))

def transaction : (request : Request) → Except Error (Mode × Work request.Answer)
  | .addOrder owner id order time => .ok (.adding, addOrder owner id order time)
  | .record id => .ok (.reading, record id)
  | .order owner id => .ok (.reading, order owner id)
  | .expiration owner id => .ok (.reading, (·.expires) <$> order owner id)
  | .checkRemovable id => .ok (.reading, checkRemovable id)
  | .removeOrders ids status time => .ok (.moving, removeOrders ids status time)
  | .setStatus id status time => .ok (.moving, setStatus id status time)
  | .addRefund owner id order time => .ok (.moving, addRefund owner id order time)
  | .removeRefund id time => .ok (.moving, removeRefund id time)
  | .orders owner first limit => .ok (.reading, orders owner first limit)
  | .refunds page size =>
      if size = 0 then .error (.refused .wrongInput "orders per page must be greater than 0")
      else if page = 0 then .error (.refused .wrongInput "page must be greater than 0")
      else .ok (.reading, refunds page size)

def serve (strike : Faults φ) : Server (Database φ) := fun request db =>
  match transaction request with
  | .error error => (Reply.fail error, db)
  | .ok (mode, work) =>
      let (result, db) := db.transact strike mode work
      (Reply.ofExcept result, db)

end ParcelDesk.Relational
