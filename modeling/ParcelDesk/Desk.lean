import ParcelDesk.Call
import ParcelDesk.Command
import ParcelDesk.Identifiers

/-!
# The desk

What the desk does for clients and couriers. It decides whether a request is legal in the state of
its orders and at the present moment, and then asks the store for one change. Every change, and
every failure inside the engine, is announced; a request that is merely turned down is not.
-/

namespace ParcelDesk

namespace Instant

/-- Date and time of day to the second, as clients read them. -/
def clientText (time : Instant) : List Char :=
  let inDay := (time.second % 86400).toNat
  time.date.dayFirst ++ ' ' :: Numeral.padded 2 (inDay / 3600) ++
    ':' :: Numeral.padded 2 (inDay / 60 % 60) ++
    ':' :: Numeral.padded 2 (inDay % 60 + time.nano / nanosPerSecond)

end Instant

namespace Desk

def day : Int := 86400 * 1000000000

/-- The time after issue within which an order may be brought back. -/
def refundWindow : Int := 2 * day

/-- The time after the start of its last day within which an order that nobody fetched stays. -/
def returnGrace : Int := day

/-- The moment a span later, or a crash beyond the calendar. -/
def later (time : Instant) (span : Int) : Call Instant :=
  match time.plus span with
  | some time => .done time
  | none => .crash .instantOverflow

/-- Announces what became of a call, unless it was merely turned down. -/
def announced (kind : Status) (ids : List UInt64) (call : Call α) : Call α := do
  match ← call.attempt with
  | .ok value => .announce kind ids none (.done value)
  | .error error =>
      if error.isServiceError then .announce kind ids (some error.message) (.fail error)
      else .fail error

def dateText (date : Date) : String :=
  String.ofList date.dayFirst

/-! ## Accepting parcels -/

def tryAccept (parcel : Parcel) : Call Order := do
  let now ← Call.now
  if parcel.expires < now.date then
    Call.refuse .expirationPassed
      s!"can't accept order {parcel.id}: expired on {dateText parcel.expires}"
  else
    let packaging ← Call.ofExcept (Packaging.make parcel.container parcel.wrapped)
    let order ← Call.ofExcept (Order.make parcel.expires parcel.weight parcel.base packaging)
    Call.request (.addOrder parcel.owner parcel.id order now)
    return order

def accept (parcel : Parcel) : Call Order :=
  announced .accepted [parcel.id] (tryAccept parcel)

/-! ## Refunds -/

def tryRefund (owner id : UInt64) : Call Unit := do
  let record ← Call.request (.record id)
  if !record.status.leadsTo .returned then
    Call.refuse .wrongStatus s!"can't refund order {id}: status = {record.status.words}"
  else if record.owner ≠ owner then
    Call.refuse .wrongInput s!"can't refund order {id}: wrong user id"
  else
    let now ← Call.now
    if (← later record.changed refundWindow) < now then
      Call.refuse .twoDaysPassed
        s!"can't refund order {id}: issued on {String.ofList record.changed.clientText}"
    else Call.request (.addRefund owner id record.order now)

/-- Takes an order back that its owner brings within two days of its issue. -/
def refund (owner id : UInt64) : Call Unit :=
  announced .returned [id] (tryRefund owner id)

/-! ## Giving orders to their owner -/

/-- Checks one order of a batch, given the owner of those before it, and tells the owner of the
batch so far together with the check's error. -/
def checkGive (today : Date) (owner : Option UInt64) (id : UInt64) :
    Call (Option UInt64 × Option Error) := do
  match ← (Call.request (.record id)).attempt with
  | .error error => return (owner, some error)
  | .ok record =>
      let batchOwner := owner.getD record.owner
      if record.owner ≠ batchOwner then
        return (some batchOwner,
          some (.refused .wrongInput s!"can't give order {id}: different user id"))
      else if !record.status.leadsTo .issuedToClient then
        return (some batchOwner,
          some (.refused .wrongStatus
            s!"can't give order {id}: status = {record.status.words}"))
      else match ← (Call.request (.expiration record.owner id)).attempt with
        | .error error => return (some batchOwner, some error)
        | .ok expires =>
            if expires < today then
              return (some batchOwner,
                some (.refused .expirationPassed
                  s!"can't give order {id}: expired on {dateText expires}"))
            else match ← (Call.request (.checkRemovable id)).attempt with
              | .error error => return (some batchOwner, some error)
              | .ok () => return (some batchOwner, none)

def checkBatch (today : Date) (owner : Option UInt64) : List UInt64 → Call (List Error)
  | [] => return []
  | id :: rest => do
      let (owner, error) ← checkGive today owner id
      let errors ← checkBatch today owner rest
      return error.toList ++ errors

def tryGive (ids : List UInt64) : Call Unit := do
  if ids.isEmpty then Call.refuse .wrongInput "no orders to give"
  else
    let now ← Call.now
    match ← checkBatch now.date none ids with
    | [] =>
        let now ← Call.now
        Call.request (.removeOrders ids .issuedToClient now)
    | errors => Call.fail (.fold errors)

/-- Hands orders out to their common owner and tells each of them once, in ascending order. -/
def give (ids : List UInt64) : Call (List UInt64) :=
  let ids := distinct ids
  announced .issuedToClient ids do
    tryGive ids
    return ids

/-! ## Sending orders back -/

def trySendBack (id : UInt64) : Call Unit := do
  let record ← Call.request (.record id)
  let now ← Call.now
  match record.status with
  | .returned => Call.request (.removeRefund id now)
  | .accepted =>
      let expires ← Call.request (.expiration record.owner id)
      if now ≤ (← later expires.start returnGrace) then
        Call.refuse .notExpired s!"can't return order {id}: expires on {dateText expires}"
      else Call.request (.removeOrders [id] .issuedToCourier now)
  | status =>
      Call.refuse .wrongStatus s!"can't return order {id}: status = {status.words}"

def sendBack (id : UInt64) : Call Unit :=
  announced .issuedToCourier [id] (trySendBack id)

/-! ## Listings -/

def orders (owner first limit : UInt64) : Call (List Slot) := do
  let slots ← Call.request (.orders owner first limit)
  if slots.isEmpty then Call.refuse .notFound s!"user {owner} doesn't have orders"
  else return slots

def refunds (page size : UInt64) : Call (List Slot) := do
  let slots ← Call.request (.refunds page size)
  if slots.isEmpty then
    Call.refuse .notFound
      s!"there are no refunds for page {page} with {size} orders per page"
  else return slots

/-! ## Commands -/

def execute : Command → Call String
  | .accept parcel => do
      let order ← accept parcel
      return s!"accepted: cost {order.cost} package {order.label}"
  | .refund owner id => do
      refund owner id
      return "returned"
  | .give ids => do
      let given ← give ids
      return "issued to client: " ++ String.ofList (Command.idList given)
  | .sendBack id => do
      sendBack id
      return "issued to courier"
  | .orders owner first limit => do
      let slots ← orders owner first limit
      return String.ofList (Slot.listing slots)
  | .refunds page size => do
      let slots ← refunds page size
      return String.ofList (Slot.listing slots)

end Desk

end ParcelDesk
