import Mathlib.Algebra.BigOperators.Group.List.Basic
import Mathlib.Algebra.Order.Group.Multiset
import Mathlib.Algebra.Ring.Nat
import ParcelDesk.Proofs.Pool.Acts

/-!
# Outcomes due

A job that was handed to a pool is due until its outcome is among the results: it is queued, run, or
its outcome is about to be reported. A worker counts a job off after its outcome was reported, so
between the two the outcome is out and the job still counts as pending.
-/

namespace ParcelDesk

namespace Worker

variable {τ : Type}

def due : Worker τ → Multiset String
  | .running job => {job.label}
  | .reporting outcome => {outcome.label}
  | _ => 0

def uncounted : Worker τ → Nat
  | .counting _ => 1
  | _ => 0

end Worker

namespace Pool

variable {τ σ : Type} {pool after : Pool τ} {number : Nat}

def dues (pool : Pool τ) : Multiset String :=
  ↑(pool.jobs.map Job.label) + (pool.workers.map Worker.due).sum

def uncounted (pool : Pool τ) : Nat :=
  (pool.workers.map Worker.uncounted).sum

structure SameTerms (pool after : Pool τ) : Prop where
  size : after.size = pool.size
  isOpen : after.isOpen = pool.isOpen
  canReport : after.canReport = pool.canReport
  receiver : after.receiver = pool.receiver

structure SameAccounts (pool after : Pool τ) : Prop where
  dues : after.dues = pool.dues
  uncounted : after.uncounted = pool.uncounted
  pending : after.pending = pool.pending
  results : after.results = pool.results

/-- What a step of a worker does to the accounts of a pool: nothing, or an outcome that was due will
never come, or it comes, or a job is counted off. -/
inductive Turn (pool after : Pool τ) : Prop where
  | quiet (same : pool.SameAccounts after)
  | lost (label : String) (dues : {label} + after.dues = pool.dues)
      (uncounted : after.uncounted = pool.uncounted) (pending : after.pending = pool.pending)
      (results : after.results = pool.results)
  | told (outcome : Outcome) (dues : {outcome.label} + after.dues = pool.dues)
      (uncounted : after.uncounted = 1 + pool.uncounted) (pending : after.pending = pool.pending)
      (results : after.results = pool.results ++ [outcome])
  | counted (dues : after.dues = pool.dues) (uncounted : 1 + after.uncounted = pool.uncounted)
      (pending : after.pending = pool.pending - 1) (results : after.results = pool.results)

theorem Turn.pending_le (h : pool.Turn after) : after.pending ≤ pool.pending := by
  cases h with
  | quiet same => exact same.pending.le
  | lost label dues uncounted pending results => exact pending.le
  | told outcome dues uncounted pending results => exact pending.le
  | counted dues uncounted pending results => omega

/-! ## Workers that move -/

/-- The value of a member may be taken apart from those of the others, whichever member takes its
place. -/
theorem exists_sum_map_set {α M : Type} [AddCommMonoid M] (value : α → M) {members : List α}
    {old : α} (h : members[number]? = some old) :
    ∃ others, (members.map value).sum = value old + others ∧
      ∀ new, ((members.set number new).map value).sum = value new + others := by
  induction members generalizing number with
  | nil => cases h
  | cons head tail ih =>
      cases number with
      | zero =>
          cases h
          exact ⟨(tail.map value).sum, List.sum_cons, fun new => List.sum_cons⟩
      | succ number =>
          obtain ⟨others, hold, hnew⟩ := ih h
          refine ⟨value head + others, ?_, fun new => ?_⟩
          · rw [List.map_cons, List.sum_cons, hold, add_left_comm]
          · rw [List.set_cons_succ, List.map_cons, List.sum_cons, hnew, add_left_comm]

theorem sum_map_set {α M : Type} [AddCommMonoid M] (value : α → M) {members : List α} {old : α}
    (h : members[number]? = some old) (new : α) :
    value old + ((members.set number new).map value).sum =
      value new + (members.map value).sum := by
  obtain ⟨others, hold, hnew⟩ := exists_sum_map_set value h
  rw [hnew, hold, add_left_comm]

variable {old : Worker τ}

theorem due_move (h : pool.workers[number]? = some old) (new : Worker τ) :
    old.due + ((pool.move number new).workers.map Worker.due).sum =
      new.due + (pool.workers.map Worker.due).sum :=
  sum_map_set Worker.due h new

theorem dues_move (h : pool.workers[number]? = some old) (new : Worker τ)
    (hdue : new.due = old.due) : (pool.move number new).dues = pool.dues := by
  have hmove := due_move h new
  rw [hdue] at hmove
  rw [dues, dues, add_left_cancel hmove]
  rfl

theorem dues_move_of_due_eq_zero (h : pool.workers[number]? = some old) (new : Worker τ)
    (hdue : new.due = 0) : old.due + (pool.move number new).dues = pool.dues := by
  have hmove := due_move h new
  rw [hdue, zero_add] at hmove
  rw [dues, dues, add_left_comm, hmove]
  rfl

theorem uncounted_move (h : pool.workers[number]? = some old) (new : Worker τ) :
    old.uncounted + (pool.move number new).uncounted = new.uncounted + pool.uncounted :=
  sum_map_set Worker.uncounted h new

theorem turn_of_move (h : pool.workers[number]? = some old) (new : Worker τ)
    (hdue : new.due = old.due) (hcount : new.uncounted = old.uncounted)
    (hjobs : after.jobs = pool.jobs) (hworkers : after.workers = (pool.move number new).workers)
    (hpending : after.pending = pool.pending) (hresults : after.results = pool.results) :
    pool.Turn after := by
  have huncounted := uncounted_move h new
  rw [hcount] at huncounted
  refine .quiet ⟨?_, ?_, hpending, hresults⟩
  · rw [← dues_move h new hdue, dues, dues, hjobs, hworkers]
    rfl
  · rw [← Nat.add_left_cancel huncounted, uncounted, uncounted, hworkers]

theorem dues_queue (pool : Pool τ) (job : Job τ) (line : List Nat) :
    dues { pool with jobs := pool.jobs ++ [job], jobLine := line } = {job.label} + pool.dues := by
  rw [dues, dues, List.map_append, ← Multiset.coe_add, add_right_comm]
  exact add_comm _ _

/-! ## Steps of workers -/

theorem due_afterJob (sent : Bool) : (afterJob sent : Worker τ).due = 0 := by
  cases sent <;> rfl

theorem uncounted_afterJob (sent : Bool) : (afterJob sent : Worker τ).uncounted = 0 := by
  cases sent <;> rfl

/-- A job that a worker takes off the queue stays due. -/
theorem turn_take {job : Job τ} {rest : List (Job τ)}
    (h : pool.workers[number]? = some .atQueue) (hjobs : pool.jobs = job :: rest)
    (hafter : after.jobs = rest)
    (hworkers : after.workers = (pool.move number (.running job)).workers)
    (hpending : after.pending = pool.pending) (hresults : after.results = pool.results) :
    pool.Turn after := by
  have hdue : ((pool.move number (.running job)).workers.map Worker.due).sum =
      {job.label} + (pool.workers.map Worker.due).sum := by
    simpa only [Worker.due, zero_add] using due_move h (.running job)
  have huncounted : (pool.move number (.running job)).uncounted = pool.uncounted := by
    simpa only [Worker.uncounted, zero_add] using uncounted_move h (.running job)
  refine .quiet ⟨?_, ?_, hpending, hresults⟩
  · rw [dues, dues, hafter, hworkers, hdue, hjobs, List.map_cons, ← Multiset.cons_coe,
      ← Multiset.singleton_add, add_left_comm, add_assoc]
  · rw [← huncounted, uncounted, uncounted, hworkers]

theorem turn_tell {outcome : Outcome} (h : pool.workers[number]? = some (.reporting outcome))
    (line : List Party) :
    pool.Turn { pool.move number (.counting true) with
      results := pool.results ++ [outcome], resultLine := line } := by
  have huncounted : (pool.move number (.counting true)).uncounted = 1 + pool.uncounted := by
    simpa only [Worker.uncounted, zero_add] using uncounted_move h (.counting true)
  exact .told outcome (dues_move_of_due_eq_zero h (.counting true) rfl) huncounted rfl rfl

theorem turn_counting {sent : Bool} (h : pool.workers[number]? = some (.counting sent))
    (new : Worker τ) (hdue : new.due = 0) (hcount : new.uncounted = 0) :
    pool.Turn { pool.move number new with pending := pool.pending - 1 } := by
  refine .counted (dues_move h new hdue) ?_ rfl rfl
  have huncounted := uncounted_move h new
  rw [hcount, zero_add] at huncounted
  exact huncounted

variable {engine : Engine τ σ} {world later : σ} {new : Worker τ}

theorem Act.terms (h : pool.Act engine number old new after) : pool.SameTerms after := by
  cases h <;> exact ⟨rfl, rfl, rfl, rfl⟩

theorem Act.turn (h : pool.Act engine number old new after)
    (hold : pool.workers[number]? = some old) (hreceiver : pool.receiver ≠ .dropped) :
    pool.Turn after := by
  cases h with
  | stop | leave => exact turn_of_move hold .gone rfl rfl rfl rfl rfl rfl
  | pass => exact turn_of_move hold .atQueue rfl rfl rfl rfl rfl rfl
  | await => exact turn_of_move hold .waiting rfl rfl rfl rfl rfl rfl
  | rouse => exact turn_of_move hold .atStop rfl rfl rfl rfl rfl rfl
  | take job rest hjobs => exact turn_take hold hjobs rfl rfl rfl rfl
  | goOn job body => exact turn_of_move hold (.running { job with body }) rfl rfl rfl rfl rfl rfl
  | finish job result =>
      exact turn_of_move hold (.reporting ⟨job.label, result⟩) rfl rfl rfl rfl rfl rfl
  | crash job =>
      exact .lost job.label (dues_move_of_due_eq_zero hold .gone rfl)
        (Nat.add_left_cancel (uncounted_move hold .gone)) rfl rfl
  | shrug outcome hdropped => exact absurd hdropped hreceiver
  | line outcome => exact turn_of_move hold (.reporting outcome) rfl rfl rfl rfl rfl rfl
  | tell outcome => exact turn_tell hold _
  | last sent => exact turn_counting hold (.waking sent) rfl rfl
  | count sent => exact turn_counting hold _ (due_afterJob sent) (uncounted_afterJob sent)
  | wake sent =>
      exact turn_of_move hold _ (due_afterJob sent) (uncounted_afterJob sent) rfl rfl rfl rfl

/-- A worker does one of the things in `Turn`, and leaves the terms as they are. -/
theorem turn_workerStep (hreceiver : pool.receiver ≠ .dropped)
    (h : pool.workerStep engine number world = some (after, later)) :
    pool.Turn after ∧ pool.SameTerms after := by
  obtain ⟨old, new, hold, hact⟩ := act_workerStep h
  exact ⟨hact.turn hold hreceiver, hact.terms⟩

end Pool

end ParcelDesk
