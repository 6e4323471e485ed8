import ParcelDesk.Proofs.Session.Order
import ParcelDesk.Proofs.Session.Rows

/-!
# Sessions with one worker

Where one worker does all the work, jobs stand in a row: those done, the one in the worker's hands,
those queued, the one that the clerk hands over, and those of the agenda. No step of anyone moves a
job past another, so the outcomes are those of the commands run in turn. There is always someone
who can take a step until all outcomes are read, and only so many steps can be taken.
-/

namespace ParcelDesk

variable {σ : Type} {serve : Server σ} {time : Instant}

namespace Worker

def inHand : Worker (Call String) → List (Job (Call String))
  | .running job => [job]
  | .reporting outcome => [outcome.piece]
  | _ => []

/-- Where the only worker of a pool stands, and who stands in line for room among the results. -/
inductive Posture (pool : Pool (Call String)) : Worker (Call String) → Prop
  | atStop (hline : pool.resultLine = []) : Posture pool .atStop
  | atQueue (hline : pool.resultLine = []) : Posture pool .atQueue
  | waiting (hline : pool.resultLine = []) (hqueue : pool.queueLine = [0]) : Posture pool .waiting
  | running (job : Job (Call String)) (hline : pool.resultLine = []) : Posture pool (.running job)
  | coming (outcome : Outcome) (hline : pool.resultLine = []) : Posture pool (.reporting outcome)
  | inLine (outcome : Outcome) (hline : pool.resultLine = [.worker 0]) :
      Posture pool (.reporting outcome)
  | counting (hline : pool.resultLine = []) : Posture pool (.counting true)
  | waking (hline : pool.resultLine = []) : Posture pool (.waking true)
  | gone (hline : pool.resultLine = []) (hclosed : pool.isOpen = false) (hjobs : pool.jobs = []) :
      Posture pool .gone

/-- More than the number of steps that the worker can take before it takes a job or leaves. One that
waits takes none unless it is roused. -/
def effort (pool : Pool (Call String)) : Worker (Call String) → Nat
  | .gone => 0
  | .waiting => if pool.isOpen && pool.jobs.isEmpty then 0 else 3
  | .atQueue => 1
  | .atStop => 2
  | .waking _ => 4
  | .counting _ => 5
  | .reporting _ => 8 - pool.resultLine.length
  | .running _ => 9

theorem effort_waiting_le (pool : Pool (Call String)) : effort pool .waiting ≤ 3 := by
  rw [effort]
  split <;> omega

end Worker

namespace Clerk

def carries : Clerk → List (Job (Call String))
  | .calling _ (.submit job) | .calling _ (.enqueue job) => [job]
  | _ => []

inductive Hands (pool : Pool (Call String)) : List Command → Clerk → Prop
  | ready (rest : List Command) (hopen : pool.isOpen = true) (hline : pool.jobLine = []) :
      Hands pool rest .ready
  | submit (rest : List Command) (command : Command) (hopen : pool.isOpen = true)
      (hline : pool.jobLine = []) :
      Hands pool rest (.calling .submitting (.submit command.job))
  | enqueue (rest : List Command) (command : Command) (hopen : pool.isOpen = true)
      (hline : pool.jobLine = [0]) :
      Hands pool rest (.calling .submitting (.enqueue command.job))
  | wait : Hands pool [] (.calling .leaving .wait)
  | join (hclosed : pool.isOpen = false) : Hands pool [] (.calling .leaving .join)
  | gone (hworkers : pool.workers = [.gone]) : Hands pool [] (.gone (.ok ()))

/-- What the clerk has yet to do, counted in steps of its own and those it makes a worker take. -/
def effort : Clerk → Nat
  | .ready => 12
  | .calling _ (.submit _) => 29
  | .calling _ (.enqueue _) => 25
  | .calling _ .wait => 8
  | .calling _ .join => 4
  | _ => 0

end Clerk

namespace Pool

variable {pool : Pool (Call String)}

theorem isServed_head {α : Type} [DecidableEq α] {room : Nat} (who : α) (hroom : 0 < room) :
    isServed [who] room who = true := by
  obtain ⟨more, rfl⟩ := Nat.exists_eq_succ_of_ne_zero hroom.ne'
  simp [isServed]

theorem joining_sole {line : List Nat} (h : line = [] ∨ line = [0]) : joining line 0 = [0] := by
  rcases h with rfl | rfl <;> rfl

section Sole

variable (hqueue : pool.queueLine = [] ∨ pool.queueLine = [0])
include hqueue

/-- The only worker is the head of its line and takes the first job, waits for one, or leaves. -/
theorem lookForJob_sole : pool.lookForJob 0 =
    match pool.jobs with
    | job :: jobs => { pool.move 0 (.running job) with
        jobs
        stopLine := pool.stopLine.erase 0
        queueLine := [] }
    | [] =>
        if pool.isOpen then { pool.move 0 .waiting with queueLine := [0] }
        else { pool.move 0 .gone with stopLine := pool.stopLine.erase 0, queueLine := [] } := by
  simp only [lookForJob, joining_sole hqueue, List.head?_cons, if_true]
  split
  next job jobs hjobs => simp [leaveLines, move, hjobs]
  next hjobs =>
    cases hopen : pool.isOpen <;> simp [leaveLines, move, hjobs, hopen]

end Sole

end Pool

namespace Session

/-- A session with one worker and with room for as many jobs, and for as many outcomes, as the
capacity says. -/
def solo (capacity : Nat) (stores : σ) (commands : List Command) : Except Error (Session σ) := do
  let pool ← Pool.make 1 capacity
  .ok { agenda := commands.map .run, pool := pool.takeResults.2, office := { stores } }

def row (session : Session σ) (worker : Worker (Call String)) (rest : List Command) :
    List (Job (Call String)) :=
  session.stream.map Outcome.piece ++
    (worker.inHand ++ (session.pool.jobs ++ (session.clerk.carries ++ rest.map Command.job)))

/-- More than the number of steps that can be taken in the session. -/
def rank (serve : Server σ) (time : Instant) (session : Session σ) (worker : Worker (Call String))
    (rest : List Command) : Nat :=
  Job.strides serve time (session.row worker rest) session.office.stores + 21 * rest.length +
    session.clerk.effort + 9 * session.pool.jobs.length + worker.effort session.pool +
    session.pool.results.length

/-- What holds of a session with one worker at any time: its row comes to the lines. -/
structure Solo (serve : Server σ) (time : Instant) (lines : List Outcome) (final : σ)
    (session : Session σ) (worker : Worker (Call String)) (rest : List Command) : Prop where
  agenda : session.agenda = rest.map .run
  workers : session.pool.workers = [worker]
  roomy : 0 < session.pool.capacity
  signals : session.pool.signals = 0
  receiver : session.pool.receiver = .taken
  queueLine : session.pool.queueLine = [] ∨ session.pool.queueLine = [0]
  posture : worker.Posture session.pool
  hands : session.clerk.Hands session.pool rest
  comes : Job.inTurn serve time (session.row worker rest) session.office.stores =
    (lines.map Outcome.told, final)

def Underway (serve : Server σ) (time : Instant) (lines : List Outcome) (final : σ)
    (session : Session σ) (bound : Nat) : Prop :=
  ∃ worker rest, Solo serve time lines final session worker rest ∧
    session.rank serve time worker rest < bound

/-! ## Steps of the worker -/

end Session

structure Pool.Steady (pool after : Pool (Call String)) : Prop where
  capacity : after.capacity = pool.capacity
  signals : after.signals = pool.signals
  receiver : after.receiver = pool.receiver
  isOpen : after.isOpen = pool.isOpen
  jobLine : after.jobLine = pool.jobLine

theorem Clerk.Hands.keep {clerk : Clerk} {pool after : Pool (Call String)} {rest : List Command}
    (h : clerk.Hands pool rest) (hsteady : pool.Steady after)
    (hgone : pool.workers = [.gone] → after.workers = [.gone]) : clerk.Hands after rest := by
  cases h with
  | ready rest hopen hline =>
      exact .ready rest (hsteady.isOpen.trans hopen) (hsteady.jobLine.trans hline)
  | submit rest command hopen hline =>
      exact .submit rest command (hsteady.isOpen.trans hopen) (hsteady.jobLine.trans hline)
  | enqueue rest command hopen hline =>
      exact .enqueue rest command (hsteady.isOpen.trans hopen) (hsteady.jobLine.trans hline)
  | wait => exact .wait
  | join hclosed => exact .join (hsteady.isOpen.trans hclosed)
  | gone hworkers => exact .gone (hgone hworkers)

namespace Session

variable {session later : Session σ} {worker new : Worker (Call String)} {rest : List Command}
  {lines : List Outcome} {final : σ} {pool : Pool (Call String)} {office : Office σ}

theorem Solo.moved (h : Solo serve time lines final session worker rest)
    (new : Worker (Call String)) : session.pool.workers.set 0 new = [new] := by
  rw [h.workers]
  rfl

theorem Solo.present (h : Solo serve time lines final session worker rest)
    (hstays : Pool.isGone worker = false) : session.pool.workers ≠ [.gone] := by
  rw [h.workers]
  rintro hgone
  obtain rfl := List.singleton_inj.1 hgone
  cases hstays

theorem Solo.turn (h : Solo serve time lines final session worker rest)
    (hstays : Pool.isGone worker = false) (hsteady : session.pool.Steady pool)
    (hworkers : pool.workers = [new])
    (hqueue : pool.queueLine = [] ∨ pool.queueLine = [0]) (hposture : new.Posture pool)
    (hrow : row { session with pool } new rest = session.row worker rest)
    (heffort : 9 * pool.jobs.length + new.effort pool + pool.results.length <
      9 * session.pool.jobs.length + worker.effort session.pool + session.pool.results.length) :
    Underway serve time lines final { session with pool }
      (session.rank serve time worker rest) := by
  refine ⟨new, rest, ⟨h.agenda, hworkers, ?_, ?_, ?_, hqueue, hposture, ?_, ?_⟩, ?_⟩
  · rw [hsteady.capacity]
    exact h.roomy
  · rw [hsteady.signals]
    exact h.signals
  · rw [hsteady.receiver]
    exact h.receiver
  · exact h.hands.keep hsteady fun hgone => absurd hgone (h.present hstays)
  · rw [hrow]
    exact h.comes
  · rw [rank, rank, hrow]
    dsimp only
    omega

/-- The job in the worker's hands goes on by one step; it does not crash, since no line tells of a
crash. -/
theorem Solo.strode {job : Job (Call String)}
    (h : Solo serve time lines final session (.running job) rest)
    (hline : session.pool.resultLine = [])
    (hstep : session.pool.workerStep (Call.stride serve time) 0 session.office =
      some (pool, office)) :
    Underway serve time lines final { session with pool, office }
      (session.rank serve time (.running job) rest) := by
  have hplace : session.pool.workers[0]? = some (.running job) := by rw [h.workers]; rfl
  have hstays : Pool.isGone (.running job : Worker (Call String)) = false := rfl
  obtain ⟨went, after, hstride, hwent⟩ :=
    Call.exists_strode serve time job.body session.office
  simp only [Pool.workerStep, hplace, hstride] at hstep
  cases hwent with
  | finished result hcall =>
      cases hstep
      refine h.turn hstays ⟨rfl, rfl, rfl, rfl, rfl⟩ (h.moved _) h.queueLine (.coming _ hline) ?_ ?_
      · rw [row, row]
        obtain ⟨label, body⟩ := job
        cases hcall
        rfl
      · simp [Pool.move, Worker.effort, hline]
  | crashed cause _ hreply =>
      have hcomes := h.comes
      rw [row, Job.inTurn_done] at hcomes
      have hmem : (job.label, .error (.crash cause)) ∈ lines.map Outcome.told := by
        rw [← (Prod.mk.inj hcomes).1]
        refine List.mem_append_right _ ?_
        simp [Worker.inHand, Job.inTurn, hreply]
      obtain ⟨line, -, htold⟩ := List.mem_map.1 hmem
      exact absurd htold (line.told_ne_crash _ _)
  | going left _ hreply hstate hstrides =>
      cases hstep
      refine ⟨.running { job with body := left }, rest, ⟨h.agenda, h.moved _, h.roomy, h.signals,
        h.receiver, h.queueLine, .running _ hline, ?_, ?_⟩, ?_⟩
      · exact h.hands.keep ⟨rfl, rfl, rfl, rfl, rfl⟩ fun hgone => absurd hgone (h.present hstays)
      · rw [← h.comes, row, row, Job.inTurn_done, Job.inTurn_done]
        simp only [Worker.inHand, List.singleton_append, Job.inTurn, hreply, hstate]
        rfl
      · have hfewer : Job.strides serve time (session.row (.running job) rest)
              session.office.stores =
            Job.strides serve time (session.row (.running { job with body := left }) rest)
              office.stores + 1 := by
          rw [row, row, Job.strides_done, Job.strides_done]
          simp only [Worker.inHand, List.singleton_append, Job.strides, hstate, hstrides]
          omega
        rw [rank, rank, hfewer]
        have hsame : (row { session with
            pool := session.pool.move 0 (.running { job with body := left }), office }
              (.running { job with body := left }) rest) =
            session.row (.running { job with body := left }) rest := rfl
        rw [hsame]
        simp only [Pool.move, Worker.effort]
        omega

theorem Solo.atStop (h : Solo serve time lines final session .atStop rest)
    (hline : session.pool.resultLine = []) :
    Underway serve time lines final { session with pool := session.pool.lookForSignal 0 }
      (session.rank serve time .atStop rest) := by
  have hlook : session.pool.lookForSignal 0 =
      { session.pool.move 0 .atQueue with stopLine := Pool.joining session.pool.stopLine 0 } := by
    rw [Pool.lookForSignal, if_neg]
    · rfl
    · rw [h.signals]
      exact fun hsignal => absurd hsignal.2 (Nat.lt_irrefl 0)
  rw [hlook]
  refine h.turn rfl ⟨rfl, rfl, rfl, rfl, rfl⟩ (h.moved _) h.queueLine (.atQueue hline) rfl ?_
  simp [Pool.move, Worker.effort]

theorem Solo.atQueue (h : Solo serve time lines final session .atQueue rest)
    (hline : session.pool.resultLine = []) :
    Underway serve time lines final { session with pool := session.pool.lookForJob 0 }
      (session.rank serve time .atQueue rest) := by
  rw [Pool.lookForJob_sole h.queueLine]
  split
  next job jobs hjobs =>
    refine h.turn rfl ⟨rfl, rfl, rfl, rfl, rfl⟩ (h.moved _) (.inl rfl) (.running job hline) ?_ ?_
    · rw [row, row, hjobs]
      rfl
    · simp only [Pool.move, Worker.effort, hjobs, List.length_cons]
      omega
  next hjobs =>
    split
    next hopen =>
      refine h.turn rfl ⟨rfl, rfl, rfl, rfl, rfl⟩ (h.moved _) (.inr rfl) (.waiting hline rfl) rfl
        ?_
      simp [Pool.move, Worker.effort, hjobs, hopen]
    next hclosed =>
      refine h.turn rfl ⟨rfl, rfl, rfl, rfl, rfl⟩ (h.moved _) (.inl rfl)
        (.gone hline (Bool.eq_false_iff.2 hclosed) hjobs) rfl ?_
      simp [Pool.move, Worker.effort]

theorem Solo.waiting (h : Solo serve time lines final session .waiting rest)
    (hline : session.pool.resultLine = []) (hroused : session.pool.isRoused 0 = true) :
    Underway serve time lines final { session with pool := session.pool.move 0 .atStop }
      (session.rank serve time .waiting rest) := by
  refine h.turn rfl ⟨rfl, rfl, rfl, rfl, rfl⟩ (h.moved _) h.queueLine (.atStop hline) rfl ?_
  have hidle : (session.pool.isOpen && session.pool.jobs.isEmpty) = false := by
    simp only [Pool.isRoused, h.signals] at hroused
    cases hopen : session.pool.isOpen <;> cases hjobs : session.pool.jobs <;> simp_all
  simp [Pool.move, Worker.effort, hidle]

theorem Solo.coming {outcome : Outcome}
    (h : Solo serve time lines final session (.reporting outcome) rest)
    (hline : session.pool.resultLine = []) :
    Underway serve time lines final
      { session with pool := { session.pool with resultLine := [.worker 0] } }
      (session.rank serve time (.reporting outcome) rest) := by
  refine h.turn rfl ⟨rfl, rfl, rfl, rfl, rfl⟩ h.workers h.queueLine (.inLine outcome rfl) rfl ?_
  simp [Worker.effort, hline]

theorem Solo.reporting {outcome : Outcome}
    (h : Solo serve time lines final session (.reporting outcome) rest)
    (hline : session.pool.resultLine = [.worker 0]) :
    Underway serve time lines final
      { session with pool := { session.pool.move 0 (.counting true) with
          resultLine := []
          results := session.pool.results ++ [outcome] } }
      (session.rank serve time (.reporting outcome) rest) := by
  refine h.turn rfl ⟨rfl, rfl, rfl, rfl, rfl⟩ (h.moved _) h.queueLine (.counting rfl) ?_ ?_
  · simp [row, stream, Worker.inHand, Clerk.carries, Pool.move]
  · simp only [Pool.move, Worker.effort, hline, List.length_append, List.length_singleton]
    omega

theorem Solo.counting (h : Solo serve time lines final session (.counting true) rest)
    (hline : session.pool.resultLine = []) (pending : Nat) :
    Underway serve time lines final
      { session with pool := { session.pool.move 0
          (if session.pool.pending = 1 then .waking true else .atStop) with pending } }
      (session.rank serve time (.counting true) rest) := by
  split
  · refine h.turn rfl ⟨rfl, rfl, rfl, rfl, rfl⟩ (h.moved _) h.queueLine (.waking hline) rfl ?_
    simp [Pool.move, Worker.effort]
  · refine h.turn rfl ⟨rfl, rfl, rfl, rfl, rfl⟩ (h.moved _) h.queueLine (.atStop hline) rfl ?_
    simp [Pool.move, Worker.effort]

theorem Solo.waking (h : Solo serve time lines final session (.waking true) rest)
    (hline : session.pool.resultLine = []) (wakings : Nat) :
    Underway serve time lines final
      { session with pool := { session.pool.move 0 .atStop with wakings } }
      (session.rank serve time (.waking true) rest) := by
  refine h.turn rfl ⟨rfl, rfl, rfl, rfl, rfl⟩ (h.moved _) h.queueLine (.atStop hline) rfl ?_
  simp [Pool.move, Worker.effort]

theorem Solo.workerStep (h : Solo serve time lines final session worker rest) {number : Nat}
    (hstep : session.pool.workerStep (Call.stride serve time) number session.office =
      some (pool, office)) :
    Underway serve time lines final { session with pool, office }
      (session.rank serve time worker rest) := by
  obtain rfl : number = 0 := by
    by_contra hother
    have hnone : session.pool.workers[number]? = none := by
      rw [h.workers]
      exact List.getElem?_eq_none (by rw [List.length_singleton]; omega)
    rw [Pool.workerStep, hnone] at hstep
    cases hstep
  have hplace : session.pool.workers[0]? = some worker := by rw [h.workers]; rfl
  have hreceiver : session.pool.receiver ≠ .dropped := by rw [h.receiver]; decide
  have hstepped := hstep
  rw [Pool.workerStep, hplace] at hstep
  cases h.posture with
  | atStop hline =>
      cases hstep
      exact h.atStop hline
  | atQueue hline =>
      cases hstep
      exact h.atQueue hline
  | waiting hline hqueue =>
      simp only at hstep
      split at hstep
      next hroused =>
        cases hstep
        exact h.waiting hline hroused
      next => cases hstep
  | running job hline => exact h.strode hline hstepped
  | coming outcome hline =>
      simp only [Pool.report, if_neg hreceiver, hline] at hstep
      cases hstep
      exact h.coming hline
  | inLine outcome hline =>
      simp only [Pool.report, if_neg hreceiver, hline, List.mem_singleton, not_true_eq_false,
        if_false] at hstep
      split at hstep
      next hserved =>
        simp only [Option.map_some, List.erase_cons_head] at hstep
        cases hstep
        exact h.reporting hline
      next => cases hstep
  | counting hline =>
      cases hstep
      exact h.counting hline _
  | waking hline =>
      cases hstep
      exact h.waking hline _
  | gone hline hclosed hjobs => cases hstep

end Session
end ParcelDesk
