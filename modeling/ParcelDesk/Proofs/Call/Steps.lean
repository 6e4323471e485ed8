import ParcelDesk.Session.Basic

namespace ParcelDesk

/-- A request that changed the stores, with the stores before and after it. -/
structure Mutation (σ : Type) where
  request : Request
  before : σ
  after : σ

namespace Call

variable {σ : Type}

/-- What is left of a call after one more step, and the stores then. A call that has ended stays
as it is. -/
def advance (serve : Server σ) (time : Instant) : Call α → σ → Call α × σ
  | .readClock next, state => (next time, state)
  | .ask request next, state =>
      match serve request state with
      | (.ok answer, state) => (next (.ok answer), state)
      | (.error (.error error), state) => (next (.error error), state)
      | (.error (.crash cause), state) => (.crash cause, state)
  | .announce _ _ _ next, state => (next, state)
  | ended, state => (ended, state)

section Ask

variable {serve : Server σ} {request : Request} {next : Except Error request.Answer → Call α}
  {state after : σ}

theorem advance_ask_ok {answer : request.Answer}
    (h : serve request state = (.ok answer, after)) (time : Instant) :
    (ask request next).advance serve time state = (next (.ok answer), after) := by
  rw [advance, h]

theorem advance_ask_fail {error : Error} (h : serve request state = (Reply.fail error, after))
    (time : Instant) :
    (ask request next).advance serve time state = (next (.error error), after) := by
  rw [advance, h]
  rfl

theorem advance_ask_crash {cause : Crash}
    (h : serve request state = (.error (.crash cause), after)) (time : Instant) :
    (ask request next).advance serve time state = (.crash cause, after) := by
  rw [advance, h]

end Ask

def looks (time : Instant) : Call α → List Instant
  | .readClock _ => [time]
  | _ => []

theorem eq_of_mem_looks {call : Call α} {time look : Instant} (h : look ∈ call.looks time) :
    look = time := by
  cases call with
  | readClock next => exact List.mem_singleton.1 h
  | done | fail | crash | ask | announce => cases h

def mutations (serve : Server σ) : Call α → σ → List (Mutation σ)
  | .ask request _, state =>
      match serve request state with
      | (.ok _, after) => if request.changes then [⟨request, state, after⟩] else []
      | (.error _, _) => []
  | _, _ => []

def reply? : Call α → Option (Reply α)
  | .done value => some (.ok value)
  | .fail error => some (Reply.fail error)
  | .crash cause => some (.error (.crash cause))
  | _ => none

/-- A step of a worker on a command leaves the stores as one step of the call does, and what is
left of the command is what is left of the call. -/
theorem stride_eq_advance (serve : Server σ) (time : Instant) (call : Call String)
    (office : Office σ) :
    ∃ went after, call.stride serve time office = some (went, after) ∧
      after.stores = (call.advance serve time office.stores).2 ∧
      ∀ left, went = .going left → left = (call.advance serve time office.stores).1 := by
  cases call with
  | done text => exact ⟨_, _, rfl, rfl, fun left hleft => nomatch hleft⟩
  | fail error => exact ⟨_, _, rfl, rfl, fun left hleft => nomatch hleft⟩
  | crash cause => exact ⟨_, _, rfl, rfl, fun left hleft => nomatch hleft⟩
  | readClock next =>
      refine ⟨_, _, rfl, rfl, ?_⟩
      intro left hleft
      cases hleft
      rfl
  | announce kind ids error next =>
      refine ⟨_, _, rfl, rfl, ?_⟩
      intro left hleft
      cases hleft
      rfl
  | ask request next =>
      rcases hserve : serve request office.stores with ⟨reply, after⟩
      cases reply with
      | ok answer =>
          rw [stride, hserve, advance_ask_ok hserve]
          refine ⟨_, _, rfl, rfl, ?_⟩
          intro left hleft
          cases hleft
          rfl
      | error stop =>
          cases stop with
          | error error =>
              rw [stride, hserve, advance_ask_fail hserve]
              refine ⟨_, _, rfl, rfl, ?_⟩
              intro left hleft
              cases hleft
              rfl
          | crash cause =>
              rw [stride, hserve, advance_ask_crash hserve]
              exact ⟨_, _, rfl, rfl, fun left hleft => nomatch hleft⟩

theorem eq_ofExcept_of_stride {serve : Server σ} {time : Instant} {call : Call String}
    {office after : Office σ} {result : Except Error String}
    (h : call.stride serve time office = some (.finished result, after)) :
    call = ofExcept result ∧ after = office := by
  cases call with
  | done text =>
      cases h
      exact ⟨rfl, rfl⟩
  | fail error =>
      cases h
      exact ⟨rfl, rfl⟩
  | crash | readClock | announce => cases h
  | ask request next =>
      rw [stride] at h
      split at h <;> cases h

/-- Running a call is taking its steps one after the other. -/
theorem run_advance (serve : Server σ) (time : Instant) (call : Call α) (state : σ) :
    (call.run serve time state).reply =
        ((call.advance serve time state).1.run serve time
          (call.advance serve time state).2).reply ∧
      (call.run serve time state).state =
        ((call.advance serve time state).1.run serve time
          (call.advance serve time state).2).state := by
  cases call with
  | done value => exact ⟨rfl, rfl⟩
  | fail error => exact ⟨rfl, rfl⟩
  | crash cause => exact ⟨rfl, rfl⟩
  | readClock next => exact ⟨rfl, rfl⟩
  | announce kind ids error next => exact ⟨rfl, rfl⟩
  | ask request next =>
      rw [run]
      rcases hserve : serve request state with ⟨reply, after⟩
      cases reply with
      | ok answer =>
          rw [advance_ask_ok hserve]
          exact ⟨rfl, rfl⟩
      | error stop =>
          cases stop with
          | error error =>
              rw [advance_ask_fail hserve]
              exact ⟨rfl, rfl⟩
          | crash cause =>
              rw [advance_ask_crash hserve]
              exact ⟨rfl, rfl⟩

end Call

end ParcelDesk
