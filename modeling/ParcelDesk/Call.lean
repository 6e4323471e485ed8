import ParcelDesk.Event
import ParcelDesk.Request

/-!
# Calls

A call of the desk is a program that asks a store one request at a time, reads the clock and tells
news. Written down as a value it can be run against any store, and several of them can be run in
turns. `run` runs one call to its end against one server at one moment.
-/

namespace ParcelDesk

/-- A program that works with a store. -/
inductive Call (α : Type) where
  | done (value : α)
  | fail (error : Error)
  | crash (cause : Crash)
  | readClock (next : Instant → Call α)
  | ask (request : Request) (next : Except Error request.Answer → Call α)
  | announce (kind : Status) (ids : List UInt64) (error : Option String) (next : Call α)

namespace Call

def bind : Call α → (α → Call β) → Call β
  | .done value, f => f value
  | .fail error, _ => .fail error
  | .crash cause, _ => .crash cause
  | .readClock next, f => .readClock fun now => (next now).bind f
  | .ask request next, f => .ask request fun answer => (next answer).bind f
  | .announce kind ids error next, f => .announce kind ids error (next.bind f)

instance : Monad Call where
  pure := .done
  bind := bind

def attempt : Call α → Call (Except Error α)
  | .done value => .done (.ok value)
  | .fail error => .done (.error error)
  | .crash cause => .crash cause
  | .readClock next => .readClock fun now => (next now).attempt
  | .ask request next => .ask request fun answer => (next answer).attempt
  | .announce kind ids error next => .announce kind ids error next.attempt

def ofExcept : Except Error α → Call α
  | .ok value => .done value
  | .error error => .fail error

def refuse (reason : Refusal) (detail : String) : Call α :=
  .fail (.refused reason detail)

def now : Call Instant :=
  .readClock .done

def request (request : Request) : Call request.Answer :=
  .ask request ofExcept

/-- What is left of a call that has ended or been run to its end, the state it left, and the news
it told. -/
structure Ran (σ α : Type) where
  reply : Reply α
  state : σ
  news : List Event

/-- Runs a call to its end. The clock stands still meanwhile. -/
def run (serve : Server σ) (time : Instant) : Call α → σ → Ran σ α
  | .done value, state => ⟨.ok value, state, []⟩
  | .fail error, state => ⟨Reply.fail error, state, []⟩
  | .crash cause, state => ⟨.error (.crash cause), state, []⟩
  | .readClock next, state => (next time).run serve time state
  | .ask request next, state =>
      match serve request state with
      | (.ok answer, state) => (next (.ok answer)).run serve time state
      | (.error (.error error), state) => (next (.error error)).run serve time state
      | (.error (.crash cause), state) => ⟨.error (.crash cause), state, []⟩
  | .announce kind ids error next, state =>
      let ran := next.run serve time state
      { ran with news := ⟨kind, time, ids, error⟩ :: ran.news }

end Call

end ParcelDesk
