import Mathlib.Logic.Relation
import ParcelDesk.Pool.Worker

/-!
# Acts of workers

All that a worker may do in one step. What a pool keeps or counts is proved act by act.
-/

namespace ParcelDesk

variable {τ σ : Type}

namespace Engine

def Goes (engine : Engine τ σ) (body next : τ) : Prop :=
  ∃ world later, engine body world = some (.going next, later)

def Ends (engine : Engine τ σ) (body : τ) (result : Except Error String) : Prop :=
  ∃ world later, engine body world = some (.finished result, later)

/-- A body may end with this result if it is run, whatever happens to the world meanwhile. -/
def Returns (engine : Engine τ σ) (body : τ) (result : Except Error String) : Prop :=
  ∃ last, Relation.ReflTransGen (Goes engine) body last ∧ Ends engine last result

end Engine

namespace Pool

/-- What a worker does that stood at one place and stands at another in the pool that follows. -/
inductive Act (engine : Engine τ σ) (number : Nat) (pool : Pool τ) :
    Worker τ → Worker τ → Pool τ → Prop where
  | stop (hhead : (joining pool.stopLine number).head? = some number)
      (hsignals : 0 < pool.signals) :
      Act engine number pool .atStop .gone { pool.move number .gone with
        signals := pool.signals - 1
        stopLine := (joining pool.stopLine number).erase number
        queueLine := pool.queueLine.erase number }
  | pass (hnone : (joining pool.stopLine number).head? = some number → pool.signals = 0) :
      Act engine number pool .atStop .atQueue { pool.move number .atQueue with
        stopLine := joining pool.stopLine number }
  | take (job : Job τ) (rest : List (Job τ)) (hjobs : pool.jobs = job :: rest)
      (hhead : (joining pool.queueLine number).head? = some number) :
      Act engine number pool .atQueue (.running job) { pool.move number (.running job) with
        jobs := rest
        stopLine := pool.stopLine.erase number
        queueLine := (joining pool.queueLine number).erase number }
  | await :
      Act engine number pool .atQueue .waiting { pool.move number .waiting with
        queueLine := joining pool.queueLine number }
  | leave (hjobs : pool.jobs = []) (hclosed : pool.isOpen = false) :
      Act engine number pool .atQueue .gone { pool.move number .gone with
        stopLine := pool.stopLine.erase number
        queueLine := (joining pool.queueLine number).erase number }
  | rouse : Act engine number pool .waiting .atStop (pool.move number .atStop)
  | goOn (job : Job τ) (body : τ) (hgoes : Engine.Goes engine job.body body) :
      Act engine number pool (.running job) (.running { job with body })
        (pool.move number (.running { job with body }))
  | finish (job : Job τ) (result : Except Error String)
      (hends : Engine.Ends engine job.body result) :
      Act engine number pool (.running job) (.reporting ⟨job.label, result⟩)
        (pool.move number (.reporting ⟨job.label, result⟩))
  | crash (job : Job τ) : Act engine number pool (.running job) .gone (pool.move number .gone)
  | shrug (outcome : Outcome) (hreceiver : pool.receiver = .dropped) :
      Act engine number pool (.reporting outcome) (.counting false)
        { pool.move number (.counting false) with
          resultLine := pool.resultLine.erase (.worker number) }
  | line (outcome : Outcome) :
      Act engine number pool (.reporting outcome) (.reporting outcome)
        { pool.move number (.reporting outcome) with
          resultLine := pool.resultLine ++ [.worker number] }
  | tell (outcome : Outcome) :
      Act engine number pool (.reporting outcome) (.counting true)
        { pool.move number (.counting true) with
          results := pool.results ++ [outcome]
          resultLine := pool.resultLine.erase (.worker number) }
  | last (sent : Bool) (hpending : pool.pending = 1) :
      Act engine number pool (.counting sent) (.waking sent)
        { pool.move number (.waking sent) with pending := pool.pending - 1 }
  | count (sent : Bool) (hpending : pool.pending ≠ 1) :
      Act engine number pool (.counting sent) (afterJob sent)
        { pool.move number (afterJob sent) with pending := pool.pending - 1 }
  | wake (sent : Bool) :
      Act engine number pool (.waking sent) (afterJob sent)
        { pool.move number (afterJob sent) with wakings := pool.wakings + 1 }

variable {engine : Engine τ σ} {number : Nat} {pool after : Pool τ} {world later : σ}

theorem act_lookForSignal (engine : Engine τ σ) (number : Nat) (pool : Pool τ) :
    ∃ new, pool.Act engine number .atStop new (pool.lookForSignal number) := by
  rw [lookForSignal]
  split
  next h => exact ⟨.gone, .stop h.1 h.2⟩
  next h =>
    refine ⟨.atQueue, .pass fun hhead => ?_⟩
    exact Nat.eq_zero_of_not_pos fun hsome => h ⟨hhead, hsome⟩

theorem act_lookForJob (engine : Engine τ σ) (number : Nat) (pool : Pool τ) :
    ∃ new, pool.Act engine number .atQueue new (pool.lookForJob number) := by
  rw [lookForJob]
  split
  next hhead =>
    split
    next job rest hjobs => exact ⟨.running job, .take job rest hjobs hhead⟩
    next hjobs =>
      split
      next => exact ⟨.waiting, .await⟩
      next hclosed => exact ⟨.gone, .leave hjobs (Bool.eq_false_iff.2 hclosed)⟩
  next => exact ⟨.waiting, .await⟩

theorem act_report (engine : Engine τ σ) {outcome : Outcome}
    (hold : pool.workers[number]? = some (.reporting outcome))
    (h : pool.report number outcome = some after) :
    ∃ new, pool.Act engine number (.reporting outcome) new after := by
  rw [report] at h
  split at h
  next hreceiver =>
    cases h
    exact ⟨_, .shrug outcome hreceiver⟩
  next =>
    split at h
    next =>
      cases h
      have hsame : pool.workers = pool.workers.set number (.reporting outcome) := by
        obtain ⟨hnumber, hplace⟩ := List.getElem?_eq_some_iff.1 hold
        rw [← hplace, List.set_getElem_self]
      have hact : pool.Act engine number (.reporting outcome) _ _ := .line outcome
      rw [move, ← hsame] at hact
      exact ⟨_, hact⟩
    next =>
      split at h
      next =>
        cases h
        exact ⟨_, .tell outcome⟩
      next => cases h

/-- A step of a worker is one of its acts. -/
theorem act_workerStep (h : pool.workerStep engine number world = some (after, later)) :
    ∃ old new, pool.workers[number]? = some old ∧ pool.Act engine number old new after := by
  rw [workerStep] at h
  split at h
  next => cases h
  next => cases h
  next hold =>
    cases h
    obtain ⟨new, hact⟩ := act_lookForSignal engine number pool
    exact ⟨_, new, hold, hact⟩
  next hold =>
    cases h
    obtain ⟨new, hact⟩ := act_lookForJob engine number pool
    exact ⟨_, new, hold, hact⟩
  next hold =>
    split at h
    next =>
      cases h
      exact ⟨_, _, hold, .rouse⟩
    next => cases h
  next job hold =>
    split at h
    next => cases h
    next body _ hengine =>
      cases h
      exact ⟨_, _, hold, .goOn job body ⟨_, _, hengine⟩⟩
    next result _ hengine =>
      cases h
      exact ⟨_, _, hold, .finish job result ⟨_, _, hengine⟩⟩
    next =>
      cases h
      exact ⟨_, _, hold, .crash job⟩
  next outcome hold =>
    obtain ⟨stepped, hreport, hafter⟩ := Option.map_eq_some_iff.1 h
    cases hafter
    obtain ⟨new, hact⟩ := act_report engine hold hreport
    exact ⟨_, new, hold, hact⟩
  next sent hold =>
    cases h
    by_cases hpending : pool.pending = 1
    · rw [if_pos hpending]
      exact ⟨_, _, hold, .last sent hpending⟩
    · rw [if_neg hpending]
      exact ⟨_, _, hold, .count sent hpending⟩
  next sent hold =>
    cases h
    exact ⟨_, _, hold, .wake sent⟩

theorem Act.workers {old new : Worker τ} (h : pool.Act engine number old new after) :
    after.workers = pool.workers.set number new := by
  cases h <;> rfl

theorem Act.getElem?_self {old new : Worker τ} (h : pool.Act engine number old new after)
    (hold : pool.workers[number]? = some old) : after.workers[number]? = some new := by
  rw [h.workers, List.getElem?_set_self', hold]
  rfl

end Pool

end ParcelDesk
