import ParcelDesk.Report
import ParcelDesk.Text.Quoted

/-!
# Pools of workers

A pool runs jobs from one bounded queue and puts their outcomes into one bounded queue of results.
Workers that are free stand in two lines: the head of the one looks for signals to stop, the head of
the other for jobs. `size` is a machine word: the number of workers that were started and not asked
to stop, as far as it fits.
-/

namespace ParcelDesk

/-- Work with a label. -/
structure Job (τ : Type) where
  label : String
  body : τ

namespace Job

def words (job : Job τ) : String :=
  "Task \x7b label: " ++ Text.quote job.label.toList ++ " \x7d"

end Job

/-- Where a worker stands. A worker that is free looks for a signal first and for a job then; one
that has run a job reports its outcome, counts the job off and wakes those who wait for the last
one. -/
inductive Worker (τ : Type) where
  | atStop
  | atQueue
  | waiting
  | running (job : Job τ)
  | reporting (outcome : Outcome)
  | counting (sent : Bool)
  | waking (sent : Bool)
  | gone

/-- Who may stand in the line for room among the results. -/
inductive Party where
  | worker (number : Nat)
  | caller (number : Nat)
deriving DecidableEq

inductive Receiver where
  | kept
  | taken
  | dropped
deriving DecidableEq

/-- A pool of workers. -/
structure Pool (τ : Type) where
  capacity : Nat
  size : UInt64 := 0
  workers : List (Worker τ) := []
  isOpen : Bool := true
  jobs : List (Job τ) := []
  jobLine : List Nat := []
  signals : Nat := 0
  stopLine : List Nat := []
  queueLine : List Nat := []
  canReport : Bool := true
  receiver : Receiver := .kept
  results : List Outcome := []
  resultLine : List Party := []
  pending : Nat := 0
  wakings : Nat := 0

namespace Pool

variable {τ : Type}

/-- Whoever stands in a line is served if there is room for all up to that place. -/
def isServed [DecidableEq α] (line : List α) (room : Nat) (who : α) : Bool :=
  who ∈ line.take room

def joining [DecidableEq α] (line : List α) (who : α) : List α :=
  if who ∈ line then line else line ++ [who]

def jobRoom (pool : Pool τ) : Nat :=
  pool.capacity - pool.jobs.length

def resultRoom (pool : Pool τ) : Nat :=
  pool.capacity - pool.results.length

def checkSize (size : UInt64) : Except Error Unit :=
  if 1 ≤ size.toNat ∧ size.toNat ≤ 100 then .ok ()
  else .error (.refused .wrongInput s!"workers count must be between 1 and 100, got {size}")

def start (pool : Pool τ) (count : UInt64) : Except Error (Pool τ) :=
  if pool.canReport then
    .ok { pool with
      workers := pool.workers ++ List.replicate count.toNat .atStop
      size := pool.size + count }
  else .error (.refused .wrongStatus "can't add workers: worker pool is shut down")

/-- A pool of workers with room for as many jobs, and for as many results, as the capacity says;
there is room for one at least. -/
def make (workers : UInt64) (capacity : Nat) : Except Error (Pool τ) := do
  checkSize workers
  start { capacity := max capacity 1 } workers

def addWorkers (pool : Pool τ) (count : UInt64) : Except Error (Pool τ) := do
  checkSize (pool.size + count)
  pool.start count

/-- Asks workers to stop once they are free. -/
def removeWorkers (pool : Pool τ) (count : UInt64) : Except Error (Pool τ) := do
  if pool.size < count then
    .error (.refused .wrongInput
      s!"can't remove {count} workers: current workers count = {pool.size}")
  else
    checkSize (pool.size - count)
    .ok { pool with signals := pool.signals + count.toNat, size := pool.size - count }

def close (pool : Pool τ) : Pool τ :=
  { pool with isOpen := false }

def takeResults (pool : Pool τ) : Bool × Pool τ :=
  match pool.receiver with
  | .kept => (true, { pool with receiver := .taken })
  | _ => (false, pool)

def dropResults (pool : Pool τ) : Pool τ :=
  match pool.receiver with
  | .taken => { pool with receiver := .dropped, results := [] }
  | _ => pool

def isGone : Worker τ → Bool
  | .gone => true
  | _ => false

def isDeserted (pool : Pool τ) : Bool :=
  pool.workers.all isGone

/-- Holds once all results have been read and nobody is left to send more. -/
def hasEnded (pool : Pool τ) : Bool :=
  pool.results.isEmpty && !pool.canReport && pool.isDeserted

def read? (pool : Pool τ) : Option (Outcome × Pool τ) :=
  match pool.receiver, pool.results with
  | .taken, outcome :: rest => some (outcome, { pool with results := rest })
  | _, _ => none

end Pool

end ParcelDesk
