import ParcelDesk.Relational.Work

/-!
# Databases

A database keeps the committed tables. A transaction works on its own copy of them, and a commit
puts the copy in place; a transaction that ends otherwise leaves no trace but its mention among the
transactions that have ended.
-/

namespace ParcelDesk.Relational

inductive Isolation where
  | readCommitted
  | serializable
deriving DecidableEq

inductive Access where
  | readWrite
  | readOnly
deriving DecidableEq

structure Mode where
  isolation : Isolation
  access : Access
deriving DecidableEq

namespace Mode

def text (mode : Mode) : String :=
  let isolation := match mode.isolation with
    | .readCommitted => "READ COMMITTED"
    | .serializable => "SERIALIZABLE"
  let access := match mode.access with
    | .readWrite => "READ WRITE"
    | .readOnly => "READ ONLY"
  isolation ++ " " ++ access

def reading : Mode := ⟨.readCommitted, .readOnly⟩

def adding : Mode := ⟨.readCommitted, .readWrite⟩

def moving : Mode := ⟨.serializable, .readWrite⟩

end Mode

/-- A transaction that has ended: how it was opened, and whether it was committed. -/
structure Ended where
  mode : Mode
  committed : Bool
deriving DecidableEq

/-- A database: its committed tables, unless they have yet to be created, what it will refuse, and
the transactions that have ended. -/
structure Database (φ : Type) where
  tables : Option Tables
  faults : φ
  ended : List Ended := []

namespace Database

variable {φ : Type}

def migrate (strike : Faults φ) (db : Database φ) : Except Error Unit × Database φ :=
  match strike .schema db.faults with
  | (some error, faults) => (.error error.failure, { db with faults })
  | (none, faults) => (.ok (), { db with tables := some (db.tables.getD {}), faults })

def start (strike : Faults φ) (db : Database φ) :
    Except Error (Transaction φ) × Database φ :=
  match strike .begin db.faults with
  | (some error, faults) => (.error error.failure, { db with faults })
  | (none, faults) =>
      match strike .configure faults with
      | (some error, faults) => (.error error.failure, { db with faults })
      | (none, faults) => (.ok ⟨db.tables, false, faults⟩, { db with faults })

def rollback (db : Database φ) (mode : Mode) (transaction : Transaction φ) : Database φ :=
  { db with faults := transaction.faults, ended := db.ended ++ [⟨mode, false⟩] }

/-- Puts the copy of a transaction in place. A transaction of which a statement was refused is
ended without a trace, though not refused. -/
def commit (strike : Faults φ) (db : Database φ) (mode : Mode) (transaction : Transaction φ) :
    Except Error Unit × Database φ :=
  if transaction.aborted then (.ok (), db.rollback mode transaction)
  else match strike .commit transaction.faults with
    | (some error, faults) =>
        (.error error.failure, db.rollback mode { transaction with faults })
    | (none, faults) =>
        (.ok (), { tables := transaction.tables, faults, ended := db.ended ++ [⟨mode, true⟩] })

/-- Does a work in a transaction of its own, which is committed if the work succeeds. -/
def transact (strike : Faults φ) (mode : Mode) (work : Work α) (db : Database φ) :
    Except Error α × Database φ :=
  match db.start strike with
  | (.error error, db) => (.error error, db)
  | (.ok transaction, db) =>
      match work.run strike transaction with
      | (.error error, transaction) => (.error error, db.rollback mode transaction)
      | (.ok value, transaction) =>
          match db.commit strike mode transaction with
          | (.ok (), db) => (.ok value, db)
          | (.error error, db) => (.error error, db)

end Database

end ParcelDesk.Relational
