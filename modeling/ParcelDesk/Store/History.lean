import ParcelDesk.Order
import ParcelDesk.Store.IdMap

/-!
# History

One record for every order ever accepted. Records are never deleted.
-/

namespace ParcelDesk

abbrev History := IdMap Record

namespace History

def find (history : History) (id : UInt64) : Except Error Record :=
  match history.get? id with
  | some record => .ok record
  | none => .error (.refused .notFound s!"order {id} not found")

def put (history : History) (id : UInt64) (record : Record) : Except Error History :=
  match history.get? id with
  | some known =>
      .error (.refused .alreadyExists s!"order {id} has already been {known.status.words}")
  | none => .ok (history.insert id record)

def setStatus (history : History) (id : UInt64) (status : Status) (time : Instant) :
    Except Error History := do
  let record ← history.find id
  .ok (history.insert id { record with status, changed := time })

end History

end ParcelDesk
