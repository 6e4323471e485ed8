import ParcelDesk.Report
import ParcelDesk.Session.Basic

/-!
# Runs of sessions

One way in which a session can go: the clerk and the others take turns, and whose turn it is goes on
until there is nothing left to do. So the clerk hands over commands until there is no room for more,
and then the workers do all that was handed over.
-/

namespace ParcelDesk

namespace Session

variable {σ : Type}

def others (session : Session σ) : List Actor :=
  (List.range session.pool.workers.length).map .worker ++ [.reader]

def othersStep (serve : Server σ) (time : Instant) (session : Session σ) : Option (Session σ) :=
  session.others.findSome? fun actor => session.step serve time actor

/-- Lets the session go on, the clerk or the others first, until `stop` holds or nobody can take a
step, or for as many steps and changes of turn as the budget admits. -/
def goOn (serve : Server σ) (time : Instant) (stop : Session σ → Bool) :
    Nat → Bool → Session σ → Session σ
  | 0, _, session => session
  | budget + 1, clerkFirst, session =>
      if stop session then session
      else if clerkFirst then
        match session.clerkStep with
        | some session => goOn serve time stop budget true session
        | none => goOn serve time stop budget false session
      else
        match session.othersStep serve time with
        | some session => goOn serve time stop budget false session
        | none =>
            match session.clerkStep with
            | some session => goOn serve time stop budget true session
            | none => session

/-- Holds when the clerk has taken up all instructions and is ready for more. -/
def isHandled (session : Session σ) : Bool :=
  match session.clerk, session.agenda with
  | .ready, [] => true
  | _, _ => false

def strideBound : Instruction → Nat
  | .run (.give ids) => 4 * ids.length + 16
  | _ => 16

/-- More steps than can be taken in the session: each instruction may start a hundred workers, and
none rouses a worker more often than it takes to stop it. -/
def stepBound (session : Session σ) : Nat :=
  let calls := session.agenda.length + 2
  let workers := session.pool.workers.length + 100 * calls
  calls * (16 * workers + 64) + (session.agenda.map strideBound).foldl (· + ·) 0

/-- Lets the session go on to its end, and tells also how it stood when all its instructions had
been handled. -/
def run (serve : Server σ) (time : Instant) (session : Session σ) : Session σ × Session σ :=
  let budget := session.stepBound
  let handled := session.goOn serve time isHandled budget true
  (handled, handled.goOn serve time (fun _ => false) budget true)

def report (session : Session σ) : List Char :=
  Report.render session.outcomes

end Session

end ParcelDesk
