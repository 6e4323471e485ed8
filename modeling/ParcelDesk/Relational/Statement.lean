import ParcelDesk.Relational.Rows

/-!
# Statements

What is sent to the server of the relational store, the kind of answer each statement has, and what
it does to the tables. Identifiers are unique in every table; a statement that would insert a
second row for one is refused.
-/

namespace ParcelDesk.Relational

structure ServerError where
  code : String
  detail : String
deriving DecidableEq

namespace ServerError

def duplicate (constraint : String) : ServerError :=
  ⟨"23505", s!"duplicate key value violates unique constraint \"{constraint}\""⟩

def missingTable (name : String) : ServerError :=
  ⟨"42P01", s!"relation \"{name}\" does not exist"⟩

/-- The refusal of whatever follows a refused statement of the same transaction. -/
def aborted : ServerError :=
  ⟨"25P02", "current transaction is aborted, commands ignored until end of transaction block"⟩

def isDuplicate (error : ServerError) : Bool :=
  error.code == "23505"

def failure (error : ServerError) : Error :=
  .failed .database ("error returned from database: " ++ error.detail)

end ServerError

/-- What can be sent to the server about the rows of its tables. -/
inductive Statement where
  | insertHistory (row : HistoryRow)
  | findHistory (id : Int64)
  | findStatus (id : Int64)
  | setStatus (id : Int64) (status : String) (time : Instant)
  | insertSlot (listing : Listing) (row : SlotRow)
  | withdraw (listing : Listing) (id : Int64)
  | findLive (owner id : Int64)
  | hasUser (owner : Int64)
  | position (owner id : Int64)
  | scanUser (owner : Int64) (start : Nat) (limit : Option Nat)
  | scanRefunds (start limit : Nat)

namespace Statement

/-- The kind of answer to a statement; to a change, whether there was a row to change. -/
abbrev Answer : Statement → Type
  | .insertHistory .. => Unit
  | .findHistory .. => Option HistoryRow
  | .findStatus .. => Option String
  | .setStatus .. => Bool
  | .insertSlot .. => Unit
  | .withdraw .. => Bool
  | .findLive .. => Option Columns
  | .hasUser .. => Bool
  | .position .. => Option Nat
  | .scanUser .. => List SlotRow
  | .scanRefunds .. => List SlotRow

def name : Statement → String
  | .insertHistory .. => "insert_history"
  | .findHistory .. => "find_history"
  | .findStatus .. => "find_status"
  | .setStatus .. => "set_status"
  | .insertSlot listing _ => "insert_" ++ listing.name
  | .withdraw listing _ => "tombstone_" ++ listing.name
  | .findLive .. => "find_live"
  | .hasUser .. => "has_user"
  | .position .. => "position"
  | .scanUser .. => "scan_user"
  | .scanRefunds .. => "scan_refunds"

def table : Statement → String
  | .insertHistory .. | .findHistory .. | .findStatus .. | .setStatus .. => "orders_history"
  | .insertSlot listing _ | .withdraw listing _ => listing.name
  | .findLive .. | .hasUser .. | .position .. | .scanUser .. => Listing.orders.name
  | .scanRefunds .. => Listing.refunds.name

def act : (statement : Statement) → Tables → Except ServerError (statement.Answer × Tables)
  | .insertHistory row, tables =>
      if tables.history.any (·.id == row.id) then .error (.duplicate "orders_history_pkey")
      else .ok ((), { tables with history := tables.history ++ [row] })
  | .findHistory id, tables => .ok (tables.history.find? (·.id == id), tables)
  | .findStatus id, tables =>
      .ok ((tables.history.find? (·.id == id)).map (·.status), tables)
  | .setStatus id status time, tables =>
      let change (row : HistoryRow) : HistoryRow :=
        if row.id == id then { row with status, changed := time } else row
      .ok (tables.history.any (·.id == id),
        { tables with history := tables.history.map change })
  | .insertSlot listing row, tables =>
      if (tables.rows listing).any (·.id == row.id) then
        .error (.duplicate (listing.name ++ "_order_id_key"))
      else .ok ((), tables.withRows listing (tables.rows listing ++ [row]))
  | .withdraw listing id, tables =>
      let change (row : SlotRow) : SlotRow :=
        if row.id == id then { row with live := false } else row
      .ok ((tables.rows listing).any (fun row => row.id == id && row.live),
        tables.withRows listing ((tables.rows listing).map change))
  | .findLive owner id, tables =>
      let row := tables.orders.find? fun row => row.owner == owner && row.id == id && row.live
      .ok (row.map (·.parcel), tables)
  | .hasUser owner, tables => .ok (tables.orders.any (·.owner == owner), tables)
  | .position owner id, tables =>
      .ok (tables.orders.findIdx? fun row => row.owner == owner && row.id == id, tables)
  | .scanUser owner start limit, tables =>
      let rows := (tables.orders.drop start).filter fun row => row.owner == owner && row.live
      .ok (match limit with
        | some limit => rows.take limit
        | none => rows, tables)
  | .scanRefunds start limit, tables =>
      .ok (((tables.refunds.drop start).filter (·.live)).take limit, tables)

end Statement

end ParcelDesk.Relational
