import ParcelDesk.Desk
import ParcelDesk.Pool.Activity
import ParcelDesk.Pool.Worker
import ParcelDesk.Store.Stock

/-!
# Sessions

A session runs the instructions of a sheet. A clerk takes them one after the other, hands commands
to a pool of workers, and answers requests about the pool itself; a reader takes the outcomes off
the pool. `step` is one step of one of them, and any order of such steps may happen. When the
agenda is empty the clerk waits for the workers to leave, and is gone once they have. The stores are
saved behind the last step, by the program that lets the session go on
(`CommandLine.Program.conclude`).
-/

namespace ParcelDesk

/-- The stores on which commands work, and the news they have told so far. -/
structure Office (σ : Type) where
  stores : σ
  news : List Event := []

namespace Call

/-- Does one step of a call: one request, one look at the clock, or one piece of news. -/
def stride (serve : Server σ) (time : Instant) : Engine (Call String) (Office σ)
  | .done text, office => some (.finished (.ok text), office)
  | .fail error, office => some (.finished (.error error), office)
  | .crash _, office => some (.crashed, office)
  | .readClock next, office => some (.going (next time), office)
  | .announce kind ids error next, office =>
      some (.going next, { office with news := office.news ++ [⟨kind, time, ids, error⟩] })
  | .ask request next, office =>
      match serve request office.stores with
      | (.ok answer, stores) => some (.going (next (.ok answer)), { office with stores })
      | (.error (.error error), stores) =>
          some (.going (next (.error error)), { office with stores })
      | (.error (.crash _), stores) => some (.crashed, { office with stores })

end Call

/-- What the clerk calls the pool for: to hand over a command, to answer a request about the
workers, to put that answer among the outcomes, or to close the session. -/
inductive Errand where
  | submitting
  | answering
  | reporting
  | leaving
deriving DecidableEq

/-- Where the clerk stands. -/
inductive Clerk where
  | ready
  | calling (errand : Errand) (activity : Activity (Call String))
  | gone (result : Except Error Unit)

namespace Clerk

def takeUp : Instruction → Clerk
  | .run command => .calling .submitting (.submit ⟨command.label, Desk.execute command⟩)
  | .setWorkers count => .calling .answering (.resize count)
  | .countWorkers => .calling .answering (.flush .arming)

def answer (size : UInt64) (result : Except Error Unit) : Outcome :=
  ⟨"workers", result.map fun () => s!"workers: {size}"⟩

/-- What the clerk does after a call to a pool that has now this size. -/
def afterCall (size : UInt64) (result : Except Error Unit) : Errand → Clerk
  | .answering => .calling .reporting (.report (answer size result))
  | .leaving => .gone result
  | .submitting | .reporting =>
      match result with
      | .ok () => .ready
      | .error error => .gone (.error error)

end Clerk

/-- A session under way. -/
structure Session (σ : Type) where
  agenda : List Instruction
  clerk : Clerk := .ready
  pool : Pool (Call String)
  office : Office σ
  outcomes : List Outcome := []

/-- Those who take steps in a session. -/
inductive Actor where
  | worker (number : Nat)
  | reader
  | clerk
deriving DecidableEq

namespace Session

variable {σ : Type}

/-- A session before its first step. The queues of the pool have room for twice as many jobs, and
as many outcomes, as there are workers. -/
def make (workers : UInt64) (stores : σ) (agenda : List Instruction) :
    Except Error (Session σ) := do
  let pool ← Pool.make workers (2 * workers.toNat)
  .ok { agenda, pool := pool.takeResults.2, office := { stores } }

def clerkStep (session : Session σ) : Option (Session σ) :=
  match session.clerk with
  | .ready =>
      match session.agenda with
      | [] => some { session with clerk := .calling .leaving .wait }
      | instruction :: agenda => some { session with clerk := .takeUp instruction, agenda }
  | .calling errand activity =>
      (session.pool.activityStep 0 activity).map fun
        | (pool, .going activity) => { session with clerk := .calling errand activity, pool }
        | (pool, .over result) => { session with clerk := .afterCall pool.size result errand, pool }
  | .gone _ => none

def readerStep (session : Session σ) : Option (Session σ) :=
  session.pool.read?.map fun (outcome, pool) =>
    { session with outcomes := session.outcomes ++ [outcome], pool }

def step (serve : Server σ) (time : Instant) (actor : Actor) (session : Session σ) :
    Option (Session σ) :=
  match actor with
  | .worker number =>
      (session.pool.workerStep (Call.stride serve time) number session.office).map
        fun (pool, office) => { session with pool, office }
  | .reader => session.readerStep
  | .clerk => session.clerkStep

end Session

end ParcelDesk
