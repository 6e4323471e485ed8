import ParcelDesk.Pool.Activity
import ParcelDesk.Pool.Worker

/-!
# Rest

Running a pool until nobody in it can take a step. Workers take their steps in the order of their
numbers, each as far as it gets; this is one of the orders in which they might take them.
-/

namespace ParcelDesk

namespace Pool

variable {τ σ : Type}

def someWorkerStep (engine : Engine τ σ) (pool : Pool τ) (world : σ) : Option (Pool τ × σ) :=
  (List.range pool.workers.length).findSome? fun number => pool.workerStep engine number world

/-- Lets the workers take steps until none can, or as many steps as the budget admits. -/
def settle (engine : Engine τ σ) : Nat → Pool τ → σ → Pool τ × σ
  | 0, pool, world => (pool, world)
  | budget + 1, pool, world =>
      match pool.someWorkerStep engine world with
      | some (pool, world) => settle engine budget pool world
      | none => (pool, world)

/-- Carries a call and the workers on until neither can go on; none if the call is not over then. -/
def perform (engine : Engine τ σ) (caller : Nat) :
    Nat → Activity τ → Pool τ → σ → Option (Except Error Unit) × Pool τ × σ
  | 0, _, pool, world => (none, pool, world)
  | budget + 1, activity, pool, world =>
      match pool.activityStep caller activity with
      | some (pool, .over result) => (some result, settle engine budget pool world)
      | some (pool, .going activity) => perform engine caller budget activity pool world
      | none =>
          match pool.someWorkerStep engine world with
          | some (pool, world) => perform engine caller budget activity pool world
          | none => (none, pool.abandon caller, world)

def drain (engine : Engine τ σ) (budget : Nat) : Nat → Pool τ → σ → List Outcome × Pool τ × σ
  | 0, pool, world => ([], pool, world)
  | count + 1, pool, world =>
      let (pool, world) := settle engine budget pool world
      match pool.read? with
      | none => ([], pool, world)
      | some (outcome, pool) =>
          let (rest, pool, world) := drain engine budget count pool world
          (outcome :: rest, pool, world)

def resultBound (pool : Pool τ) : Nat :=
  pool.results.length + pool.jobs.length + pool.workers.length + 1

/-- More steps than the workers of a pool can take when every job is over after `steps` of its
own. -/
def stepBound (pool : Pool τ) (steps : Nat) : Nat :=
  (steps + 12) * (pool.workers.length + pool.jobs.length + 1)

end Pool

/-! ## Scripted jobs -/

/-- A job of which it is known beforehand what it does: it may wait until its gate is opened, and
then returns its result or crashes. -/
structure Script where
  label : String
  started : Bool
  gated : Bool
  result : Option (Except Error String)

/-- What has happened to scripted jobs: which gates have been opened, and which jobs were
started. -/
structure Stage where
  opened : List String
  started : List String

namespace Script

def engine : Engine Script Stage := fun script stage =>
  if !script.started then
    some (.going { script with started := true },
      { stage with started := stage.started ++ [script.label] })
  else if script.gated ∧ script.label ∉ stage.opened then none
  else match script.result with
    | some result => some (.finished result, stage)
    | none => some (.crashed, stage)

end Script

end ParcelDesk
