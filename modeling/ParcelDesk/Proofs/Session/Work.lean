import Mathlib.Tactic.Abel
import ParcelDesk.Proofs.Call.Steps
import ParcelDesk.Proofs.Pool.Floor

/-!
# Work in a pool

The work in a pool is queued, in the hands of workers, or done and not read; an outcome counts as
work that is done. Only the steps of a worker on its job change a piece of work, and only the calls
that hand over a job or report an outcome bring one in.
-/

namespace ParcelDesk

variable {σ : Type}

def Outcome.piece (outcome : Outcome) : Job (Call String) :=
  ⟨outcome.label, Call.ofExcept outcome.result⟩

namespace Worker

def pieces : Worker (Call String) → Multiset (Job (Call String))
  | .running job => {job}
  | .reporting outcome => {outcome.piece}
  | _ => 0

theorem pieces_of_isIdle {worker : Worker (Call String)} (h : worker.isIdle = true) :
    worker.pieces = 0 := by
  cases worker with
  | running | reporting => cases h
  | atStop | atQueue | waiting | counting | waking | gone => rfl

theorem sum_pieces_replicate (count : Nat) :
    ((List.replicate count Worker.atStop).map pieces).sum = 0 := by
  rw [List.map_replicate]
  exact (List.sum_replicate _ _).trans (nsmul_zero _)

end Worker

def Demand.gain : Demand (Call String) → Progress (Call String) → Multiset (Job (Call String))
  | .submit job, .over (.ok ()) => {job}
  | .report outcome, .over (.ok ()) => {outcome.piece}
  | _, _ => 0

theorem Demand.gain_of_isQuiet {demand : Demand (Call String)} {result : Except Error Unit}
    (h : demand.isQuiet result = true) : demand.gain (.over result) = 0 := by
  cases demand with
  | submit _ | report _ =>
      cases result with
      | ok => cases h
      | error => rfl
  | flush | add _ | remove _ | resize _ | close | wait => rfl

theorem Demand.gain_going (demand : Demand (Call String)) (activity : Activity (Call String)) :
    demand.gain (.going activity) = 0 := by
  cases demand <;> rfl

/-! ## Work on the floor -/

namespace Floor

/-- The work in a pool: queued, in the hands of workers, or done and not read. -/
def pieces (floor : Floor (Call String)) : Multiset (Job (Call String)) :=
  ↑floor.jobs + (floor.workers.map Worker.pieces).sum + ↑(floor.results.map Outcome.piece)

variable {floor after : Floor (Call String)} {number : Nat}

/-- What a worker has in hand may be taken apart from the rest. -/
theorem exists_others {old : Worker (Call String)} (hold : floor.workers[number]? = some old) :
    ∃ others, floor.pieces = old.pieces + others ∧
      ∀ new, (floor.move number new).pieces = new.pieces + others := by
  obtain ⟨others, hworkers, hset⟩ := Pool.exists_sum_map_set Worker.pieces hold
  refine ⟨floor.jobs + others + floor.results.map Outcome.piece, ?_, fun new => ?_⟩
  · rw [pieces, hworkers, add_left_comm, add_assoc]
  · rw [pieces, move, hset, add_left_comm, add_assoc]

theorem pieces_move {old new : Worker (Call String)} (hold : floor.workers[number]? = some old)
    (hnew : new.pieces = old.pieces) : (floor.move number new).pieces = floor.pieces := by
  obtain ⟨others, hfloor, hmove⟩ := exists_others hold
  rw [hmove, hnew, hfloor]

theorem Pace.pieces {engine : Engine (Call String) σ} {entries : List (Entry (Call String))}
    (h : floor.Pace engine number entries after)
    (hfree : ∀ job, floor.workers[number]? ≠ some (.running job)) :
    after.pieces = floor.pieces := by
  cases h with
  | idle old new hold hidle hnew =>
      exact pieces_move hold
        ((Worker.pieces_of_isIdle hnew).trans (Worker.pieces_of_isIdle hidle).symm)
  | stop hold hsignals => exact pieces_move hold rfl
  | leave hold hjobs hclosed => exact pieces_move hold rfl
  | take job rest hold hjobs =>
      obtain ⟨others, hworkers, hset⟩ := Pool.exists_sum_map_set Worker.pieces hold
      rw [Floor.pieces, Floor.pieces, hjobs, hworkers, ← Multiset.cons_coe,
        ← Multiset.singleton_add]
      change ↑rest + ((floor.workers.set number (.running job)).map Worker.pieces).sum +
        ↑(floor.results.map Outcome.piece) = {job} + ↑rest + (0 + others) + _
      rw [hset]
      change ↑rest + ({job} + others) + _ = _
      abel
  | goOn job body hold => cases hfree job hold
  | finish job result hold => cases hfree job hold
  | crash job hold => cases hfree job hold
  | line outcome hold => rfl
  | tell outcome hold =>
      obtain ⟨others, hworkers, hset⟩ := Pool.exists_sum_map_set Worker.pieces hold
      rw [Floor.pieces, Floor.pieces, hworkers, List.map_append, ← Multiset.coe_add]
      change ↑floor.jobs + ((floor.workers.set number (.counting true)).map Worker.pieces).sum +
        (_ + {outcome.piece}) = ↑floor.jobs + ({outcome.piece} + others) + _
      rw [hset]
      change ↑floor.jobs + (0 + others) + _ = _
      abel

theorem Effect.pieces {demand : Demand (Call String)} {progress : Progress (Call String)}
    (h : floor.Effect demand progress after) :
    after.pieces = demand.gain progress + floor.pieces := by
  cases h with
  | proceed => rw [Demand.gain_going, zero_add]
  | shut =>
      rw [Demand.gain_going, zero_add]
      rfl
  | answer _ _ hquiet => rw [Demand.gain_of_isQuiet hquiet, zero_add]
  | enqueue job hopen =>
      rw [Floor.pieces, Floor.pieces, ← Multiset.coe_add, Demand.gain, Multiset.coe_singleton]
      abel
  | deliver outcome =>
      rw [Floor.pieces, Floor.pieces, List.map_append, ← Multiset.coe_add, Demand.gain,
        List.map_singleton, Multiset.coe_singleton]
      abel
  | hire _ hdemand count =>
      rw [Demand.gain_of_isQuiet (hdemand.isQuiet _), zero_add, Floor.pieces, Floor.pieces,
        List.map_append, List.sum_append, Worker.sum_pieces_replicate, add_zero]
  | release _ hdemand =>
      rw [Demand.gain_of_isQuiet (hdemand.isQuiet _), zero_add]
      rfl
  | close | farewell => exact (zero_add floor.pieces).symm

end Floor

theorem Pool.world_of_free {τ : Type} {number : Nat} {engine : Engine τ σ}
    {pool after : Pool τ} {world final : σ}
    (h : pool.workerStep engine number world = some (after, final))
    (hfree : ∀ job, pool.workers[number]? ≠ some (.running job)) : final = world := by
  rw [Pool.workerStep] at h
  generalize hplace : pool.workers[number]? = place at h
  cases place with
  | none => cases h
  | some worker =>
      cases worker with
      | atStop | atQueue | counting | waking =>
          cases h
          rfl
      | waiting =>
          simp only at h
          split at h
          · cases h
            rfl
          · cases h
      | running job => cases hfree job hplace
      | reporting outcome =>
          obtain ⟨stepped, -, hafter⟩ := Option.map_eq_some_iff.1 h
          cases hafter
          rfl
      | gone => cases h

end ParcelDesk
