import ParcelDesk.Relational.Statement

/-!
# Works

The work of a transaction is a program that sends one statement at a time and goes on with the
server's answer. Written down as a value it says which statements an operation sends, whatever
the server answers. A server may refuse any statement; from then on it refuses all that follow, so
a work that has met a refusal can change nothing any more.
-/

namespace ParcelDesk.Relational

/-- A program that sends statements. -/
inductive Work (α : Type) where
  | done (value : α)
  | fail (error : Error)
  | send (statement : Statement) (next : Except ServerError statement.Answer → Work α)

namespace Work

def bind : Work α → (α → Work β) → Work β
  | .done value, f => f value
  | .fail error, _ => .fail error
  | .send statement next, f => .send statement fun answer => (next answer).bind f

instance : Monad Work where
  pure := .done
  bind := bind

def attempt : Work α → Work (Except Error α)
  | .done value => .done (.ok value)
  | .fail error => .done (.error error)
  | .send statement next => .send statement fun answer => (next answer).attempt

def ofExcept : Except Error α → Work α
  | .ok value => .done value
  | .error error => .fail error

def refuse (reason : Refusal) (detail : String) : Work α :=
  .fail (.refused reason detail)

def query (statement : Statement) : Work statement.Answer :=
  .send statement fun
    | .ok answer => .done answer
    | .error error => .fail error.failure

/-- Sends a statement that inserts a row; a taken key means that the order is already there. -/
def insert (statement : Statement) (detail : String) : Work Unit :=
  .send statement fun
    | .ok _ => .done ()
    | .error error =>
        if error.isDuplicate then refuse .alreadyExists detail else .fail error.failure

end Work

/-- The places at which a server may refuse to go on for reasons of its own. -/
inductive Point where
  | schema
  | begin
  | configure
  | statement (statement : Statement)
  | commit

namespace Point

def name : Point → String
  | .schema => "schema"
  | .begin => "begin"
  | .configure => "set"
  | .statement sent => sent.name
  | .commit => "commit"

end Point

/-- When a server refuses to go on, and why. What it will refuse later may depend on what it has
been asked. -/
abbrev Faults (φ : Type) := Point → φ → Option ServerError × φ

def Faults.never : Faults Unit := fun _ state => (none, state)

/-- A refusal that has been planned for the next time a point is reached. -/
structure PlannedFault where
  point : String
  error : ServerError

namespace PlannedFault

def plan (fault : PlannedFault) (faults : List PlannedFault) : List PlannedFault :=
  fault :: faults.filter (·.point != fault.point)

/-- Refuses what has been planned, each plan once. -/
def strike : Faults (List PlannedFault)
  | _, [] => (none, [])
  | point, fault :: rest =>
      if fault.point == point.name then (some fault.error, rest)
      else
        let (error, rest) := strike point rest
        (error, fault :: rest)

end PlannedFault

/-- A transaction under way: its own copy of the tables, and whether a statement of it has been
refused. -/
structure Transaction (φ : Type) where
  tables : Option Tables
  aborted : Bool
  faults : φ

namespace Transaction

variable {φ : Type}

def abort (transaction : Transaction φ) (faults : φ) : Transaction φ :=
  { transaction with aborted := true, faults }

def answer (strike : Faults φ) (statement : Statement) (transaction : Transaction φ) :
    Except ServerError statement.Answer × Transaction φ :=
  if transaction.aborted then (.error .aborted, transaction)
  else match transaction.tables with
    | none => (.error (.missingTable statement.table), transaction.abort transaction.faults)
    | some tables =>
        match strike (.statement statement) transaction.faults with
        | (some error, faults) => (.error error, transaction.abort faults)
        | (none, faults) =>
            match statement.act tables with
            | .error error => (.error error, transaction.abort faults)
            | .ok (answer, tables) =>
                (.ok answer, { transaction with tables := some tables, faults })

end Transaction

def Work.run (strike : Faults φ) : Work α → Transaction φ → Except Error α × Transaction φ
  | .done value, transaction => (.ok value, transaction)
  | .fail error, transaction => (.error error, transaction)
  | .send statement next, transaction =>
      let (answer, transaction) := transaction.answer strike statement
      (next answer).run strike transaction

end ParcelDesk.Relational
