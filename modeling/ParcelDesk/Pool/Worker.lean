import ParcelDesk.Pool.Basic

/-!
# Steps of workers

One step of one worker, as others can see it. Between any two steps of a worker every other party
may take steps of its own.
-/

namespace ParcelDesk

inductive Stride (τ : Type) where
  | going (body : τ)
  | finished (result : Except Error String)
  | crashed

/-- A way of running bodies in a world of type `σ`; none while a body cannot go on. -/
abbrev Engine (τ σ : Type) := τ → σ → Option (Stride τ × σ)

namespace Pool

variable {τ σ : Type}

def move (pool : Pool τ) (number : Nat) (worker : Worker τ) : Pool τ :=
  { pool with workers := pool.workers.set number worker }

def leaveLines (pool : Pool τ) (number : Nat) (worker : Worker τ) : Pool τ :=
  { pool.move number worker with
    stopLine := pool.stopLine.erase number
    queueLine := pool.queueLine.erase number }

/-- Looks for a signal, which only the head of its line can see. -/
def lookForSignal (pool : Pool τ) (number : Nat) : Pool τ :=
  let pool := { pool with stopLine := joining pool.stopLine number }
  if pool.stopLine.head? = some number ∧ 0 < pool.signals then
    { pool.leaveLines number .gone with signals := pool.signals - 1 }
  else pool.move number .atQueue

/-- Looks for a job, which only the head of its line can see. Without one the worker waits, or
leaves if none will come. -/
def lookForJob (pool : Pool τ) (number : Nat) : Pool τ :=
  let pool := { pool with queueLine := joining pool.queueLine number }
  if pool.queueLine.head? = some number then
    match pool.jobs with
    | job :: rest => { pool.leaveLines number (.running job) with jobs := rest }
    | [] => if pool.isOpen then pool.move number .waiting else pool.leaveLines number .gone
  else pool.move number .waiting

def isRoused (pool : Pool τ) (number : Nat) : Bool :=
  (pool.stopLine.head? = some number && 0 < pool.signals) ||
    (pool.queueLine.head? = some number && (!pool.jobs.isEmpty || !pool.isOpen))

/-- Joins the line for room among the results, or puts an outcome there once it is served. -/
def report (pool : Pool τ) (number : Nat) (outcome : Outcome) : Option (Pool τ) :=
  let me := Party.worker number
  if pool.receiver = .dropped then
    some { pool.move number (.counting false) with resultLine := pool.resultLine.erase me }
  else if me ∉ pool.resultLine then
    some { pool with resultLine := pool.resultLine ++ [me] }
  else if isServed pool.resultLine pool.resultRoom me then
    some { pool.move number (.counting true) with
      resultLine := pool.resultLine.erase me
      results := pool.results ++ [outcome] }
  else none

/-- Where a worker goes after a job: it leaves if nobody wanted the outcome. -/
def afterJob (sent : Bool) : Worker τ :=
  if sent then .atStop else .gone

def workerStep (engine : Engine τ σ) (number : Nat) (pool : Pool τ) (world : σ) :
    Option (Pool τ × σ) :=
  match pool.workers[number]? with
  | none | some .gone => none
  | some .atStop => some (pool.lookForSignal number, world)
  | some .atQueue => some (pool.lookForJob number, world)
  | some .waiting => if pool.isRoused number then some (pool.move number .atStop, world) else none
  | some (.running job) =>
      match engine job.body world with
      | none => none
      | some (.going body, world) => some (pool.move number (.running { job with body }), world)
      | some (.finished result, world) =>
          some (pool.move number (.reporting ⟨job.label, result⟩), world)
      | some (.crashed, world) => some (pool.move number .gone, world)
  | some (.reporting outcome) => (pool.report number outcome).map fun pool => (pool, world)
  | some (.counting sent) =>
      let next := if pool.pending = 1 then .waking sent else afterJob sent
      some ({ pool.move number next with pending := pool.pending - 1 }, world)
  | some (.waking sent) =>
      some ({ pool.move number (afterJob sent) with wakings := pool.wakings + 1 }, world)

end Pool

end ParcelDesk
