import ParcelDesk.Proofs.Call.Clock
import ParcelDesk.Proofs.Call.Rules

/-!
# Faults below a call

A server may fail at a request before it has done anything. A call is careful if it makes one change
at most, has its value once that is made, and comes to no value once a request has failed. Above
faults such a call either stops and has changed nothing, or ends as it would have without them.
-/

namespace ParcelDesk

variable {σ ω : Type}

namespace Server

/-- Answers as a server does, but fails inside the engine at the requests at which there is a fault.
The requests are counted. -/
def faltering (faults : Nat → Request → Option String) (serve : Server σ) : Server (σ × Nat) :=
  fun request (state, count) =>
    match faults count request with
    | some detail => (Reply.fail (.internal detail), (state, count + 1))
    | none => ((serve request state).1, ((serve request state).2, count + 1))

/-- A server answers as another one does, or fails and leaves alone what there is to see. -/
def Falters (flaky : Server ω) (serve : Server σ) (view : ω → σ) : Prop :=
  ∀ request state,
    (∃ error, (flaky request state).1 = Reply.fail error ∧
      view (flaky request state).2 = view state) ∨
    ((flaky request state).1 = (serve request (view state)).1 ∧
      view (flaky request state).2 = (serve request (view state)).2)

/-- In this state only a change that succeeds changes anything. -/
def Steady (serve : Server σ) (state : σ) : Prop :=
  ∀ request, (∀ answer, (serve request state).1 = .ok answer → request.changes = false) →
    (serve request state).2 = state

theorem falters_failing (methods : List String) (detail : String) (serve : Server σ) :
    (serve.failing methods detail).Falters serve id := by
  intro request state
  rw [failing]
  split
  · exact .inl ⟨_, rfl, rfl⟩
  · exact .inr ⟨rfl, rfl⟩

theorem falters_faltering (faults : Nat → Request → Option String) (serve : Server σ) :
    (serve.faltering faults).Falters serve Prod.fst := by
  rintro request ⟨state, count⟩
  rw [faltering]
  split
  · exact .inl ⟨_, rfl, rfl⟩
  · exact .inr ⟨rfl, rfl⟩

end Server

namespace Call

/-- How far a careful call is: nothing has gone wrong, a request has failed, or the change is
made. -/
inductive Standing where
  | clean
  | marred
  | changed
deriving DecidableEq

/-- A call is careful from where it stands on, and comes to no values but those in `post`. -/
inductive Careful (post : Standing → α → Prop) : Standing → Call α → Prop where
  | done {standing : Standing} {value : α} (h : post standing value) :
      Careful post standing (.done value)
  | fail {standing : Standing} {error : Error} (hstanding : standing ≠ .changed) :
      Careful post standing (.fail error)
  | crash {standing : Standing} {cause : Crash} (hstanding : standing ≠ .changed) :
      Careful post standing (.crash cause)
  | readClock {standing : Standing} {next : Instant → Call α} (hstanding : standing ≠ .changed)
      (h : ∀ time, Careful post standing (next time)) : Careful post standing (.readClock next)
  | read {standing : Standing} {request : Request} {next : Except Error request.Answer → Call α}
      (hstanding : standing ≠ .changed) (hread : request.changes = false)
      (hok : ∀ answer, Careful post standing (next (.ok answer)))
      (hfail : ∀ error, Careful post .marred (next (.error error))) :
      Careful post standing (.ask request next)
  | change {request : Request} {next : Except Error request.Answer → Call α}
      (hok : ∀ answer, Careful post .changed (next (.ok answer)))
      (hfail : ∀ error, Careful post .marred (next (.error error))) :
      Careful post .clean (.ask request next)

theorem run_ask_ok {serve : Server σ} {request : Request}
    {next : Except Error request.Answer → Call α} {state after : σ} {answer : request.Answer}
    (h : serve request state = (.ok answer, after)) (time : Instant) :
    (ask request next).run serve time state = (next (.ok answer)).run serve time after := by
  rw [run, h]

namespace Careful

variable {post : Standing → α → Prop} {standing : Standing} {call : Call α}

theorem bind {post : Standing → β → Prop} {first : Standing → α → Prop} {next : α → Call β}
    (h : Careful first standing call)
    (hnext : ∀ standing value, first standing value → Careful post standing (next value)) :
    Careful post standing (call >>= next) := by
  change Careful post standing (call.bind next)
  induction h with
  | done h => exact hnext _ _ h
  | fail hstanding => exact .fail hstanding
  | crash hstanding => exact .crash hstanding
  | readClock hstanding h ih => exact .readClock hstanding ih
  | read hstanding hread hok hfail ihok ihfail => exact .read hstanding hread ihok ihfail
  | change hok hfail ihok ihfail => exact .change ihok ihfail

theorem map {post : Standing → β → Prop} (f : α → β)
    (h : Careful (fun standing value => post standing (f value)) standing call) :
    Careful post standing (call >>= fun value => pure (f value)) :=
  h.bind fun _ _ hpost => .done hpost

theorem eq_done (h : Careful post .changed call) : ∃ value, call = .done value := by
  cases h with
  | done h => exact ⟨_, rfl⟩
  | fail hstanding | crash hstanding | readClock hstanding | read hstanding =>
      exact absurd rfl hstanding

theorem news_eq_nil (h : Careful post standing call) (serve : Server σ) (time : Instant)
    (state : σ) : (call.run serve time state).news = [] := by
  induction h generalizing state with
  | done h => rfl
  | fail hstanding => rfl
  | crash hstanding => rfl
  | readClock hstanding h ih => exact ih time state
  | read hstanding hread hok hfail ihok ihfail =>
      rw [run]
      rcases serve _ state with ⟨(error | cause) | answer, after⟩
      · exact ihfail error after
      · rfl
      · exact ihok answer after
  | change hok hfail ihok ihfail =>
      rw [run]
      rcases serve _ state with ⟨(error | cause) | answer, after⟩
      · exact ihfail error after
      · rfl
      · exact ihok answer after

/-- Since a careful call tells no news, it sees the clock each time that somebody looks at it. -/
theorem looksBy_eq (h : Careful post standing call) (serve : Server σ) (clock : Nat → Instant)
    (state : σ) : ∃ count, call.looksBy serve clock state = (List.range count).map clock := by
  induction h generalizing clock state with
  | done h => exact ⟨0, rfl⟩
  | fail hstanding => exact ⟨0, rfl⟩
  | crash hstanding => exact ⟨0, rfl⟩
  | readClock hstanding h ih =>
      obtain ⟨count, hcount⟩ := ih (clock 0) (fun look => clock (look + 1)) state
      refine ⟨count + 1, ?_⟩
      rw [looksBy, hcount, List.range_succ_eq_map, List.map_cons, List.map_map]
      rfl
  | read hstanding hread hok hfail ihok ihfail =>
      rw [looksBy]
      rcases serve _ state with ⟨(error | cause) | answer, after⟩
      · exact ihfail error clock after
      · exact ⟨0, rfl⟩
      · exact ihok answer clock after
  | change hok hfail ihok ihfail =>
      rw [looksBy]
      rcases serve _ state with ⟨(error | cause) | answer, after⟩
      · exact ihfail error clock after
      · exact ⟨0, rfl⟩
      · exact ihok answer clock after

section Run

variable {serve : Server σ} {flaky : Server ω} {view : ω → σ} {state : ω}

def Stops (flaky : Server ω) (view : ω → σ) (time : Instant) (call : Call α) (state : ω) : Prop :=
  ∃ stop, (call.run flaky time state).reply = .error stop ∧
    view (call.run flaky time state).state = view state

theorem view_of_read (hfalters : flaky.Falters serve view) (hsteady : serve.Steady (view state))
    {request : Request} (hread : request.changes = false) :
    view (flaky request state).2 = view state := by
  rcases hfalters request state with ⟨error, -, hview⟩ | ⟨-, hview⟩
  · exact hview
  · exact hview.trans (hsteady request fun _ _ => hread)

theorem view_of_stop (hfalters : flaky.Falters serve view) (hsteady : serve.Steady (view state))
    {request : Request} {stop : Stop} (hstop : (flaky request state).1 = .error stop) :
    view (flaky request state).2 = view state := by
  rcases hfalters request state with ⟨error, -, hview⟩ | ⟨hreply, hview⟩
  · exact hview
  · refine hview.trans (hsteady request fun answer hanswer => ?_)
    cases (hreply.symm.trans hstop).symm.trans hanswer

theorem stops_ask {request : Request} {next : Except Error request.Answer → Call α} {after : ω}
    {reply : Reply request.Answer} {time : Instant}
    (hserve : flaky request state = (reply, after)) (hview : view after = view state)
    (hok : ∀ answer, reply = .ok answer → Stops flaky view time (next (.ok answer)) after)
    (hfail : ∀ error, reply = Reply.fail error →
      Stops flaky view time (next (.error error)) after) :
    Stops flaky view time (.ask request next) state := by
  rw [Stops, run, hserve, ← hview]
  rcases reply with (error | cause) | answer
  · exact hfail error rfl
  · exact ⟨.crash cause, rfl, rfl⟩
  · exact hok answer rfl

theorem stops_of_marred (h : Careful post standing call) (hstanding : standing = .marred)
    (hpost : ∀ value, ¬post .marred value) (hfalters : flaky.Falters serve view)
    (hsteady : serve.Steady (view state)) (time : Instant) :
    Stops flaky view time call state := by
  induction h generalizing state with
  | done h =>
      rw [hstanding] at h
      exact absurd h (hpost _)
  | fail => exact ⟨_, rfl, rfl⟩
  | crash => exact ⟨_, rfl, rfl⟩
  | readClock _ h ih => exact ih time hstanding hsteady
  | @read _ request next _ hread hok hfail ihok ihfail =>
      have hview := view_of_read hfalters hsteady hread
      rcases hserve : flaky request state with ⟨reply, after⟩
      rw [hserve] at hview
      rw [← hview] at hsteady
      exact stops_ask hserve hview (fun answer _ => ihok answer hstanding hsteady)
        fun error _ => ihfail error rfl hsteady
  | change => cases hstanding

def Matches (flaky : Server ω) (serve : Server σ) (view : ω → σ) (time : Instant)
    (call : Call α) (state : ω) : Prop :=
  ∃ value, (call.run flaky time state).reply = .ok value ∧
    (call.run serve time (view state)).reply = .ok value ∧
    (call.run serve time (view state)).state = view (call.run flaky time state).state

theorem matches_ask {request : Request} {next : Except Error request.Answer → Call α} {after : ω}
    {answer : request.Answer} {time : Instant} (hserve : flaky request state = (.ok answer, after))
    (hplain : serve request (view state) = (.ok answer, view after))
    (h : Matches flaky serve view time (next (.ok answer)) after) :
    Matches flaky serve view time (.ask request next) state := by
  rw [Matches, run_ask_ok hserve, run_ask_ok hplain]
  exact h

theorem stops_of_error {request : Request} {next : Except Error request.Answer → Call α}
    {after : ω} {stop : Stop} (hfail : ∀ error, Careful post .marred (next (.error error)))
    (hpost : ∀ value, ¬post .marred value) (hfalters : flaky.Falters serve view)
    (hsteady : serve.Steady (view state)) (hserve : flaky request state = (.error stop, after))
    (time : Instant) : Stops flaky view time (.ask request next) state := by
  have hview : view (flaky request state).2 = view state :=
    view_of_stop hfalters hsteady (congrArg Prod.fst hserve)
  rw [hserve] at hview
  refine stops_ask hserve hview (fun answer hanswer => nomatch hanswer) fun error _ => ?_
  rw [← hview] at hsteady
  exact (hfail error).stops_of_marred rfl hpost hfalters hsteady time

theorem serve_of_ok {request : Request} {answer : request.Answer} {after : ω}
    (hfalters : flaky.Falters serve view) (hserve : flaky request state = (.ok answer, after)) :
    serve request (view state) = (.ok answer, view after) := by
  have hfaulty := hfalters request state
  rw [hserve] at hfaulty
  rcases hfaulty with ⟨error, hreply, -⟩ | ⟨hreply, hstate⟩
  · cases hreply
  · exact Prod.ext hreply.symm hstate.symm

/-- Above faults a careful call stops and has changed nothing, or ends as it does without them. -/
theorem run_falters (h : Careful post standing call) (hstanding : standing = .clean)
    (hpost : ∀ value, ¬post .marred value) (hfalters : flaky.Falters serve view) (state : ω)
    (hsteady : serve.Steady (view state)) (time : Instant) :
    Stops flaky view time call state ∨ Matches flaky serve view time call state := by
  induction h generalizing state with
  | done h => exact .inr ⟨_, rfl, rfl, rfl⟩
  | fail => exact .inl ⟨_, rfl, rfl⟩
  | crash => exact .inl ⟨_, rfl, rfl⟩
  | readClock _ h ih => exact ih time hstanding _ hsteady
  | @read _ request next _ hread hok hfail ihok ihfail =>
      rcases hserve : flaky request state with ⟨stop | answer, after⟩
      · exact .inl (stops_of_error hfail hpost hfalters hsteady hserve time)
      · have hview : view (flaky request state).2 = view state :=
          view_of_read hfalters hsteady hread
        rw [hserve] at hview
        rw [← hview] at hsteady
        rcases ihok answer hstanding after hsteady with hstops | hmatches
        · refine .inl (stops_ask hserve hview (fun other hother => ?_) fun _ hfail => nomatch hfail)
          cases hother
          exact hstops
        · exact .inr (matches_ask hserve (serve_of_ok hfalters hserve) hmatches)
  | @change request next hok hfail ihok ihfail =>
      rcases hserve : flaky request state with ⟨stop | answer, after⟩
      · exact .inl (stops_of_error hfail hpost hfalters hsteady hserve time)
      · -- Nothing follows the change that could stop the call.
        obtain ⟨value, hdone⟩ := (hok answer).eq_done
        refine .inr (matches_ask hserve (serve_of_ok hfalters hserve) ?_)
        rw [hdone]
        exact ⟨value, rfl, rfl, rfl⟩

end Run

end Careful

/-! ## Those who take the news -/

/-- Someone to whom events are told; it may fail. -/
abbrev Sink (ω : Type) := Event → ω → Except Error Unit × ω

/-- Runs a call to its end and tells its news to a sink, if there is one. That a sink has failed is
known to nobody but the sink. -/
def runTo (serve : Server σ) (sink : Option (Sink ω)) (time : Instant) :
    Call α → σ → ω → Reply α × σ × ω
  | .done value, state, hearer => (.ok value, state, hearer)
  | .fail error, state, hearer => (Reply.fail error, state, hearer)
  | .crash cause, state, hearer => (.error (.crash cause), state, hearer)
  | .readClock next, state, hearer => (next time).runTo serve sink time state hearer
  | .ask request next, state, hearer =>
      match serve request state with
      | (.ok answer, state) => (next (.ok answer)).runTo serve sink time state hearer
      | (.error (.error error), state) => (next (.error error)).runTo serve sink time state hearer
      | (.error (.crash cause), state) => (.error (.crash cause), state, hearer)
  | .announce kind ids error next, state, hearer =>
      match sink with
      | none => next.runTo serve sink time state hearer
      | some publish =>
          match publish ⟨kind, time, ids, error⟩ hearer with
          | (.ok (), hearer) => next.runTo serve sink time state hearer
          | (.error _, hearer) => next.runTo serve sink time state hearer

theorem runTo_eq_run (serve : Server σ) (sink : Option (Sink ω)) (time : Instant) (call : Call α)
    (state : σ) (hearer : ω) :
    (call.runTo serve sink time state hearer).1 = (call.run serve time state).reply ∧
      (call.runTo serve sink time state hearer).2.1 = (call.run serve time state).state := by
  induction call generalizing state hearer with
  | done value => exact ⟨rfl, rfl⟩
  | fail error => exact ⟨rfl, rfl⟩
  | crash cause => exact ⟨rfl, rfl⟩
  | readClock next ih => exact ih time state hearer
  | ask request next ih =>
      rw [runTo, run]
      rcases serve request state with ⟨(error | cause) | answer, after⟩
      · exact ih (.error error) after hearer
      · exact ⟨rfl, rfl⟩
      · exact ih (.ok answer) after hearer
  | announce kind ids error next ih =>
      cases sink with
      | none => exact ih state hearer
      | some publish =>
          simp only [runTo]
          rcases publish ⟨kind, time, ids, error⟩ hearer with ⟨(failure | _), hearer⟩
          · exact ih state hearer
          · exact ih state hearer

end Call

end ParcelDesk
