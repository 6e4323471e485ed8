import ParcelDesk.Proofs.Desk.Commands
import ParcelDesk.Proofs.Session.Work

/-!
# Work in a row

Jobs that are done one after the other, each from its first step to its last. How far the first of
them has got does not matter to what comes of the row, and every step leaves fewer to take.
-/

namespace ParcelDesk

variable {σ : Type} {serve : Server σ} {time : Instant}

namespace Call

/-- The number of steps that a call takes before its result is there, if it is run alone. -/
def strides (serve : Server σ) (time : Instant) : Call α → σ → Nat
  | .done _, _ | .fail _, _ | .crash _, _ => 0
  | .readClock next, state => (next time).strides serve time state + 1
  | .announce _ _ _ next, state => next.strides serve time state + 1
  | .ask request next, state =>
      match serve request state with
      | (.ok answer, state) => (next (.ok answer)).strides serve time state + 1
      | (.error (.error error), state) => (next (.error error)).strides serve time state + 1
      | (.error (.crash _), _) => 0

/-- What a worker's step makes of the call in its hands: it finds the result there, or the call
crashes, or it has one step less to go and will come to the same. -/
inductive Strode (serve : Server σ) (time : Instant) (call : Call String) (office : Office σ) :
    Stride (Call String) → Office σ → Prop
  | finished (result : Except Error String) (hcall : call = ofExcept result) :
      Strode serve time call office (.finished result) office
  | crashed (cause : Crash) (after : Office σ)
      (hreply : (call.run serve time office.stores).reply = .error (.crash cause)) :
      Strode serve time call office .crashed after
  | going (left : Call String) (after : Office σ)
      (hreply : (call.run serve time office.stores).reply =
        (left.run serve time after.stores).reply)
      (hstate : (call.run serve time office.stores).state =
        (left.run serve time after.stores).state)
      (hstrides : call.strides serve time office.stores =
        left.strides serve time after.stores + 1) :
      Strode serve time call office (.going left) after

theorem exists_strode (serve : Server σ) (time : Instant) (call : Call String)
    (office : Office σ) :
    ∃ went after, call.stride serve time office = some (went, after) ∧
      call.Strode serve time office went after := by
  cases call with
  | done text => exact ⟨_, _, rfl, .finished (.ok text) rfl⟩
  | fail error => exact ⟨_, _, rfl, .finished (.error error) rfl⟩
  | crash cause => exact ⟨_, _, rfl, .crashed cause office rfl⟩
  | readClock next => exact ⟨_, _, rfl, .going (next time) office rfl rfl rfl⟩
  | announce kind ids error next => exact ⟨_, _, rfl, .going next _ rfl rfl rfl⟩
  | ask request next =>
      have hrun := run_advance serve time (.ask request next) office.stores
      rcases hserve : serve request office.stores with ⟨answer | stop, after⟩
      all_goals rw [stride, hserve]
      · cases answer with
        | error error =>
            rw [advance_ask_fail hserve] at hrun
            refine ⟨_, _, rfl, .going _ { office with stores := after } hrun.1 hrun.2 ?_⟩
            rw [strides, hserve]
        | crash cause =>
            rw [advance_ask_crash hserve] at hrun
            exact ⟨_, _, rfl, .crashed cause _ hrun.1⟩
      · rw [advance_ask_ok hserve] at hrun
        refine ⟨_, _, rfl, .going _ { office with stores := after } hrun.1 hrun.2 ?_⟩
        rw [strides, hserve]

end Call

def Command.job (command : Command) : Job (Call String) :=
  ⟨command.label, Desk.execute command⟩

namespace Outcome

def told (outcome : Outcome) : String × Reply String :=
  (outcome.label, Reply.ofExcept outcome.result)

theorem told_ne_crash (outcome : Outcome) (label : String) (cause : Crash) :
    outcome.told ≠ (label, .error (.crash cause)) := by
  obtain ⟨name, result⟩ := outcome
  cases result with
  | ok text => exact fun hsame => nomatch congrArg Prod.snd hsame
  | error error => exact fun hsame => nomatch congrArg Prod.snd hsame

end Outcome

namespace Job

/-- Does jobs one after the other and tells each label with the reply that the job came to. -/
def inTurn (serve : Server σ) (time : Instant) :
    List (Job (Call String)) → σ → List (String × Reply String) × σ
  | [], state => ([], state)
  | job :: rest, state =>
      let ran := job.body.run serve time state
      let (told, final) := inTurn serve time rest ran.state
      ((job.label, ran.reply) :: told, final)

def strides (serve : Server σ) (time : Instant) : List (Job (Call String)) → σ → Nat
  | [], _ => 0
  | job :: rest, state =>
      job.body.strides serve time state +
        strides serve time rest (job.body.run serve time state).state

theorem run_piece (outcome : Outcome) (serve : Server σ) (time : Instant) (state : σ) :
    outcome.piece.body.run serve time state = ⟨Reply.ofExcept outcome.result, state, []⟩ := by
  obtain ⟨label, result⟩ := outcome
  cases result <;> rfl

theorem strides_piece (outcome : Outcome) (serve : Server σ) (time : Instant) (state : σ) :
    outcome.piece.body.strides serve time state = 0 := by
  obtain ⟨label, result⟩ := outcome
  cases result <;> rfl

theorem inTurn_done (serve : Server σ) (time : Instant) (lines : List Outcome)
    (row : List (Job (Call String))) (state : σ) :
    inTurn serve time (lines.map Outcome.piece ++ row) state =
      (lines.map Outcome.told ++ (inTurn serve time row state).1,
        (inTurn serve time row state).2) := by
  induction lines with
  | nil => rfl
  | cons outcome lines ih =>
      simp only [List.map_cons, List.cons_append, inTurn, run_piece, ih]
      rfl

theorem strides_done (serve : Server σ) (time : Instant) (lines : List Outcome)
    (row : List (Job (Call String))) (state : σ) :
    strides serve time (lines.map Outcome.piece ++ row) state =
      strides serve time row state := by
  induction lines with
  | nil => rfl
  | cons outcome lines ih =>
      simp only [List.map_cons, List.cons_append, strides, run_piece, strides_piece, ih,
        Nat.zero_add]

/-- Commands in a row come to the replies that they have when they are run in turn. -/
theorem inTurn_commands (time : Instant) (commands : List Command) (stock : Stock) :
    inTurn Stock.serve time (commands.map Command.job) stock =
      ((commands.map Command.label).zip (Command.inTurn time commands stock).1,
        (Command.inTurn time commands stock).2) := by
  induction commands generalizing stock with
  | nil => rfl
  | cons command rest ih =>
      simp only [List.map_cons, inTurn, ih]
      rfl

end Job

end ParcelDesk
