import ParcelDesk.Call

namespace ParcelDesk.Call

variable {σ : Type}

/-- Runs a call to its end while the clock goes on as it likes: it tells `clock look` when it is
looked at, also for the news. -/
def runBy (serve : Server σ) : Call α → (Nat → Instant) → σ → Ran σ α
  | .done value, _, state => ⟨.ok value, state, []⟩
  | .fail error, _, state => ⟨Reply.fail error, state, []⟩
  | .crash cause, _, state => ⟨.error (.crash cause), state, []⟩
  | .readClock next, clock, state =>
      (next (clock 0)).runBy serve (fun look => clock (look + 1)) state
  | .ask request next, clock, state =>
      match serve request state with
      | (.ok answer, state) => (next (.ok answer)).runBy serve clock state
      | (.error (.error error), state) => (next (.error error)).runBy serve clock state
      | (.error (.crash cause), state) => ⟨.error (.crash cause), state, []⟩
  | .announce kind ids error next, clock, state =>
      let ran := next.runBy serve (fun look => clock (look + 1)) state
      { ran with news := ⟨kind, clock 0, ids, error⟩ :: ran.news }

/-- What a call is told in such a run when it looks at the clock. The news look at it as well. -/
def looksBy (serve : Server σ) : Call α → (Nat → Instant) → σ → List Instant
  | .readClock next, clock, state =>
      clock 0 :: (next (clock 0)).looksBy serve (fun look => clock (look + 1)) state
  | .ask request next, clock, state =>
      match serve request state with
      | (.ok answer, state) => (next (.ok answer)).looksBy serve clock state
      | (.error (.error error), state) => (next (.error error)).looksBy serve clock state
      | (.error (.crash _), _) => []
  | .announce _ _ _ next, clock, state => next.looksBy serve (fun look => clock (look + 1)) state
  | _, _, _ => []

variable {serve : Server σ} {request : Request} {next : Except Error request.Answer → Call α}
  {state after : σ}

theorem runBy_ask_ok {answer : request.Answer} (h : serve request state = (.ok answer, after))
    (clock : Nat → Instant) :
    (ask request next).runBy serve clock state = (next (.ok answer)).runBy serve clock after := by
  rw [runBy, h]

theorem runBy_ask_fail {error : Error} (h : serve request state = (Reply.fail error, after))
    (clock : Nat → Instant) :
    (ask request next).runBy serve clock state =
      (next (.error error)).runBy serve clock after := by
  rw [runBy, h]
  rfl

theorem looksBy_ask_ok {answer : request.Answer} (h : serve request state = (.ok answer, after))
    (clock : Nat → Instant) :
    (ask request next).looksBy serve clock state =
      (next (.ok answer)).looksBy serve clock after := by
  rw [looksBy, h]

theorem looksBy_ask_fail {error : Error} (h : serve request state = (Reply.fail error, after))
    (clock : Nat → Instant) :
    (ask request next).looksBy serve clock state =
      (next (.error error)).looksBy serve clock after := by
  rw [looksBy, h]
  rfl

theorem eq_of_mem_looksBy {call : Call α} {clock : Nat → Instant} {look : Instant}
    (h : look ∈ call.looksBy serve clock state) : ∃ turn, look = clock turn := by
  induction call generalizing clock state with
  | done value => cases h
  | fail error => cases h
  | crash cause => cases h
  | readClock next ih =>
      cases h with
      | head => exact ⟨0, rfl⟩
      | tail _ h =>
          obtain ⟨turn, hturn⟩ := ih (clock 0) h
          exact ⟨turn + 1, hturn⟩
  | announce kind ids error next ih =>
      obtain ⟨turn, hturn⟩ := ih h
      exact ⟨turn + 1, hturn⟩
  | ask request next ih =>
      rw [looksBy] at h
      revert h
      rcases serve request state with ⟨(error | cause) | answer, after⟩
      · exact ih (.error error)
      · exact fun h => nomatch h
      · exact ih (.ok answer)

theorem looksBy_map (f : α → β) (call : Call α) (clock : Nat → Instant) (state : σ) :
    (call >>= fun value => pure (f value)).looksBy serve clock state =
      call.looksBy serve clock state := by
  change (call.bind fun value => .done (f value)).looksBy serve clock state = _
  induction call generalizing clock state with
  | done value => rfl
  | fail error => rfl
  | crash cause => rfl
  | readClock next ih => exact congrArg _ (ih (clock 0) _ state)
  | announce kind ids error next ih => exact ih _ state
  | ask request next ih =>
      rw [bind, looksBy, looksBy]
      rcases serve request state with ⟨(error | cause) | answer, after⟩
      · exact ih (.error error) clock after
      · rfl
      · exact ih (.ok answer) clock after

theorem runBy_map (f : α → β) (call : Call α) (clock : Nat → Instant) (state : σ) :
    (call >>= fun value => pure (f value)).runBy serve clock state =
      { call.runBy serve clock state with
        reply := (call.runBy serve clock state).reply.map f } := by
  change (call.bind fun value => .done (f value)).runBy serve clock state = _
  induction call generalizing clock state with
  | done value => rfl
  | fail error => rfl
  | crash cause => rfl
  | readClock next ih => exact ih (clock 0) _ state
  | announce kind ids error next ih => rw [bind, runBy, runBy, ih]
  | ask request next ih =>
      rw [bind, runBy, runBy]
      rcases serve request state with ⟨stop | answer, after⟩
      · cases stop with
        | error error => exact ih (.error error) clock after
        | crash cause => rfl
      · exact ih (.ok answer) clock after

/-- A clock may stand still. -/
theorem runBy_still (serve : Server σ) (time : Instant) (call : Call α) (state : σ) :
    call.runBy serve (fun _ => time) state = call.run serve time state := by
  induction call generalizing state with
  | done value => rfl
  | fail error => rfl
  | crash cause => rfl
  | readClock next ih => exact ih time state
  | announce kind ids error next ih => rw [runBy, run, ih]
  | ask request next ih =>
      rw [runBy, run]
      rcases serve request state with ⟨stop | answer, after⟩
      · cases stop with
        | error error => exact ih (.error error) after
        | crash cause => rfl
      · exact ih (.ok answer) after

theorem run_map (serve : Server σ) (time : Instant) (f : α → β) (call : Call α) (state : σ) :
    (call >>= fun value => pure (f value)).run serve time state =
      { call.run serve time state with reply := (call.run serve time state).reply.map f } := by
  rw [← runBy_still, ← runBy_still, runBy_map]

end ParcelDesk.Call
