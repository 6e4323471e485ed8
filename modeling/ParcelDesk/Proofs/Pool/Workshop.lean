import ParcelDesk.Pool.Rest

/-!
# Workshops

A pool with everyone who takes steps around it: its workers, callers, and a reader of the results.
They take their steps in any order. A call that changes the pool as a whole has it to itself while
it is under way. What comes of the steps is noted in a log.
-/

namespace ParcelDesk

variable {τ σ : Type}

/-- A call of a pool. -/
inductive Demand (τ : Type) where
  | submit (job : Job τ)
  | flush
  | report (outcome : Outcome)
  | add (count : UInt64)
  | remove (count : UInt64)
  | resize (size : UInt64)
  | close
  | wait

namespace Demand

def isExclusive : Demand τ → Bool
  | .submit _ | .flush | .report _ => false
  | .add _ | .remove _ | .resize _ | .close | .wait => true

/-- What a call does as it is made: it is over at once, or has to go on step by step. -/
def start (pool : Pool τ) : Demand τ → Pool τ × Progress τ
  | .submit job => (pool, .going (.submit job))
  | .flush => (pool, .going (.flush .arming))
  | .report outcome => (pool, .going (.report outcome))
  | .add count => pool.concluded (pool.addWorkers count)
  | .remove count => pool.concluded (pool.removeWorkers count)
  | .resize size => (pool, .going (.resize size))
  | .close => (pool.close, .over (.ok ()))
  | .wait => (pool, .going .wait)

end Demand

def Progress.isOver : Progress τ → Bool
  | .going _ => false
  | .over _ => true

/-- What is noted of the steps around a pool: that a call returned, and that a worker took a job
off the queue, ended it, put its outcome among the results, or crashed. -/
inductive Entry (τ : Type) where
  | returned (demand : Demand τ) (result : Except Error Unit)
  | took (worker : Nat) (job : Job τ)
  | ended (worker : Nat) (outcome : Outcome)
  | told (worker : Nat) (outcome : Outcome)
  | crashed (worker : Nat)

namespace Entry

def ofProgress (demand : Demand τ) : Progress τ → List (Entry τ)
  | .going _ => []
  | .over result => [.returned demand result]

def ofTurn (number : Nat) : Option (Worker τ) → Option (Worker τ) → List (Entry τ)
  | some .atQueue, some (.running job) => [.took number job]
  | some (.running _), some (.reporting outcome) => [.ended number outcome]
  | some (.running _), some .gone => [.crashed number]
  | some (.reporting outcome), some (.counting true) => [.told number outcome]
  | _, _ => []

def isBy (number : Nat) : Entry τ → Bool
  | .returned _ _ => false
  | .took worker _ | .ended worker _ | .told worker _ | .crashed worker => worker == number

def isCrash : Entry τ → Bool
  | .crashed _ => true
  | _ => false

def isFarewell : Entry τ → Bool
  | .returned .wait _ => true
  | _ => false

def accepted? : Entry τ → Option (Job τ)
  | .returned (.submit job) (.ok ()) => some job
  | _ => none

def taken? : Entry τ → Option (Nat × Job τ)
  | .took worker job => some (worker, job)
  | _ => none

def told? : Entry τ → Option (Nat × Outcome)
  | .told worker outcome => some (worker, outcome)
  | _ => none

def pushed? : Entry τ → Option Outcome
  | .told _ outcome | .returned (.report outcome) (.ok ()) => some outcome
  | _ => none

end Entry

/-- A pool and the world its jobs run in, the calls that were made, the log, and the outcomes that
were read. -/
structure Workshop (τ σ : Type) where
  pool : Pool τ
  world : σ
  calls : List (Demand τ × Progress τ) := []
  log : List (Entry τ) := []
  read : List Outcome := []

namespace Workshop

/-- A step that someone may take: a call is made, the call with this number goes on, the worker with
this number goes on, or an outcome is read. -/
inductive Move (τ : Type) where
  | call (demand : Demand τ)
  | goOn (caller : Nat)
  | work (number : Nat)
  | read

def make (workers : UInt64) (capacity : Nat) (world : σ) : Except Error (Workshop τ σ) := do
  let pool ← Pool.make workers capacity
  .ok { pool := pool.takeResults.2, world }

/-- Holds if a call may be made: of two calls under way neither has the pool to itself. -/
def admits (shop : Workshop τ σ) (demand : Demand τ) : Bool :=
  shop.calls.all fun (other, progress) =>
    progress.isOver || !(demand.isExclusive || other.isExclusive)

def callStep (shop : Workshop τ σ) (demand : Demand τ) : Option (Workshop τ σ) :=
  if shop.admits demand then
    let (pool, progress) := demand.start shop.pool
    some { shop with
      pool
      calls := shop.calls ++ [(demand, progress)]
      log := shop.log ++ Entry.ofProgress demand progress }
  else none

def goOnStep (shop : Workshop τ σ) (caller : Nat) : Option (Workshop τ σ) :=
  match shop.calls[caller]? with
  | some (demand, .going activity) =>
      (shop.pool.activityStep caller activity).map fun (pool, progress) =>
        { shop with
          pool
          calls := shop.calls.set caller (demand, progress)
          log := shop.log ++ Entry.ofProgress demand progress }
  | _ => none

def workStep (engine : Engine τ σ) (shop : Workshop τ σ) (number : Nat) : Option (Workshop τ σ) :=
  (shop.pool.workerStep engine number shop.world).map fun (pool, world) =>
    { shop with
      pool
      world
      log := shop.log ++ Entry.ofTurn number shop.pool.workers[number]? pool.workers[number]? }

def readStep (shop : Workshop τ σ) : Option (Workshop τ σ) :=
  shop.pool.read?.map fun (outcome, pool) => { shop with pool, read := shop.read ++ [outcome] }

def step (engine : Engine τ σ) (shop : Workshop τ σ) : Move τ → Option (Workshop τ σ)
  | .call demand => shop.callStep demand
  | .goOn caller => shop.goOnStep caller
  | .work number => shop.workStep engine number
  | .read => shop.readStep

/-- The workshop after some moves; one that cannot be made is passed over. -/
def follow (engine : Engine τ σ) : List (Move τ) → Workshop τ σ → Workshop τ σ
  | [], shop => shop
  | move :: moves, shop => follow engine moves ((shop.step engine move).getD shop)

theorem Entry.ofTurn_cases (number : Nat) (old new : Option (Worker τ)) :
    Entry.ofTurn number old new = [] ∨
      ∃ entry, entry.isBy number = true ∧ Entry.ofTurn number old new = [entry] := by
  have hself : (number == number) = true := beq_self_eq_true number
  rw [Entry.ofTurn.eq_def]
  split
  next job => exact .inr ⟨.took number job, hself, rfl⟩
  next job outcome => exact .inr ⟨.ended number outcome, hself, rfl⟩
  next job => exact .inr ⟨.crashed number, hself, rfl⟩
  next outcome => exact .inr ⟨.told number outcome, hself, rfl⟩
  next => exact .inl rfl

/-- A step is noted in one entry, or not at all. -/
theorem noted_step {engine : Engine τ σ} {shop later : Workshop τ σ} {move : Move τ}
    (h : shop.step engine move = some later) :
    later.log = shop.log ∨ ∃ entry, later.log = shop.log ++ [entry] := by
  have hprogress (demand : Demand τ) (progress : Progress τ) :
      shop.log ++ Entry.ofProgress demand progress = shop.log ∨
        ∃ entry, shop.log ++ Entry.ofProgress demand progress = shop.log ++ [entry] := by
    rcases progress with activity | result
    · exact .inl (List.append_nil _)
    · exact .inr ⟨_, rfl⟩
  cases move with
  | call demand =>
      rw [step, callStep] at h
      split at h
      · cases h
        exact hprogress _ _
      · cases h
  | goOn caller =>
      rw [step, goOnStep] at h
      split at h
      next =>
        obtain ⟨after, -, rfl⟩ := Option.map_eq_some_iff.1 h
        exact hprogress _ _
      next => cases h
  | work number =>
      obtain ⟨after, -, rfl⟩ := Option.map_eq_some_iff.1 h
      rcases Entry.ofTurn_cases number shop.pool.workers[number]? after.1.workers[number]? with
        hnone | ⟨entry, -, hentry⟩
      · exact .inl ((congrArg _ hnone).trans (List.append_nil _))
      · exact .inr ⟨entry, congrArg _ hentry⟩
  | read =>
      obtain ⟨after, -, rfl⟩ := Option.map_eq_some_iff.1 h
      exact .inl rfl

theorem log_step {engine : Engine τ σ} {shop later : Workshop τ σ} {move : Move τ}
    (h : shop.step engine move = some later) : shop.log <+: later.log := by
  rcases noted_step h with hsame | ⟨entry, hnoted⟩
  · exact hsame ▸ List.prefix_rfl
  · exact ⟨[entry], hnoted.symm⟩

theorem log_follow (engine : Engine τ σ) (moves : List (Move τ)) (shop : Workshop τ σ) :
    shop.log <+: (follow engine moves shop).log := by
  induction moves generalizing shop with
  | nil => exact List.prefix_rfl
  | cons move moves ih =>
      refine List.IsPrefix.trans ?_ (ih _)
      cases hstep : shop.step engine move with
      | none => exact List.prefix_rfl
      | some later => exact log_step hstep

theorem follow_append (engine : Engine τ σ) (first second : List (Move τ)) (shop : Workshop τ σ) :
    follow engine (first ++ second) shop = follow engine second (follow engine first shop) := by
  induction first generalizing shop with
  | nil => rfl
  | cons move first ih => exact ih _

theorem follow_keeps {engine : Engine τ σ} (holds : Workshop τ σ → Prop)
    (hstep : ∀ shop later move, holds shop → shop.step engine move = some later → holds later)
    (moves : List (Move τ)) {shop : Workshop τ σ} (h : holds shop) :
    holds (follow engine moves shop) := by
  induction moves generalizing shop with
  | nil => exact h
  | cons move moves ih =>
      apply ih
      cases hmove : shop.step engine move with
      | none => exact h
      | some later => exact hstep shop later move h hmove

/-- What a log tells was noted in one of the moves, when the log told what comes before it. -/
theorem exists_noted {engine : Engine τ σ} (moves : List (Move τ)) {shop : Workshop τ σ}
    {earlier since : List (Entry τ)} {entry : Entry τ} (hearlier : shop.log <+: earlier)
    (h : (follow engine moves shop).log = earlier ++ entry :: since) :
    ∃ before move later rest, (follow engine before shop).step engine move = some later ∧
      (follow engine before shop).log = earlier ∧ later.log = earlier ++ [entry] ∧
      moves = before ++ move :: rest ∧ follow engine moves shop = follow engine rest later := by
  induction moves generalizing shop with
  | nil =>
      have hlength := hearlier.length_le
      rw [follow] at h
      rw [h, List.length_append, List.length_cons] at hlength
      omega
  | cons move moves ih =>
      -- The move comes before the one that is looked for.
      have hextend {next : Workshop τ σ} (hnext : (shop.step engine move).getD shop = next)
          (hlog : next.log <+: earlier) :
          ∃ before last later rest, (follow engine before shop).step engine last = some later ∧
            (follow engine before shop).log = earlier ∧ later.log = earlier ++ [entry] ∧
            move :: moves = before ++ last :: rest ∧
            follow engine (move :: moves) shop = follow engine rest later := by
        rw [follow, hnext] at h
        obtain ⟨before, last, later, rest, hstep, hbefore, hlater, hmoves, hrest⟩ := ih hlog h
        refine ⟨move :: before, last, later, rest, ?_, ?_, hlater, congrArg _ hmoves, ?_⟩
        · rw [follow, hnext]
          exact hstep
        · rw [follow, hnext]
          exact hbefore
        · rw [follow, hnext]
          exact hrest
      cases hstep : shop.step engine move with
      | none => exact hextend (congrArg (·.getD shop) hstep) hearlier
      | some later =>
          have hnext : (shop.step engine move).getD shop = later := congrArg (·.getD shop) hstep
          rcases noted_step hstep with hsame | ⟨noted, hnoted⟩
          · exact hextend hnext (hsame ▸ hearlier)
          · have hgrown : later.log <+: earlier ++ entry :: since := by
              rw [← h, follow, hnext]
              exact log_follow engine moves later
            obtain ⟨tail, rfl⟩ := hearlier
            rw [hnoted, List.append_assoc, List.prefix_append_right_inj] at hgrown
            cases tail with
            | nil =>
                obtain ⟨rfl, -⟩ := List.cons_prefix_cons.1 hgrown
                rw [List.append_nil]
                exact ⟨[], move, later, moves, hstep, rfl, hnoted, rfl, congrArg _ hnext⟩
            | cons head tail =>
                obtain ⟨rfl, -⟩ := List.cons_prefix_cons.1 hgrown
                refine hextend hnext ?_
                rw [hnoted]
                exact ⟨tail, List.append_assoc _ _ _⟩

end Workshop

end ParcelDesk
