import ParcelDesk.Pool.Basic

/-!
# Activities

The calls of a pool that may have to wait: submitting a job, waiting for all outcomes, resizing,
reporting an outcome of one's own, and waiting for the workers to leave. Each goes on step by step,
and between two steps every other party may take steps of its own.
-/

namespace ParcelDesk

/-- Where a caller stands who waits for all outcomes: it notes how often sleepers were woken, then
looks whether a job is pending, and sleeps until they are woken again if so. -/
inductive Flush where
  | arming
  | checking (wakings : Nat)
  | asleep (wakings : Nat)
deriving DecidableEq

/-- A call that may have to wait, and how far it has come. -/
inductive Activity (τ : Type) where
  | submit (job : Job τ)
  | enqueue (job : Job τ)
  | flush (stage : Flush)
  | resize (size : UInt64)
  | resizing (size : UInt64) (stage : Flush)
  | report (outcome : Outcome)
  | deliver (outcome : Outcome)
  | wait
  | join

inductive Progress (τ : Type) where
  | going (activity : Activity τ)
  | over (result : Except Error Unit)

namespace Pool

variable {τ : Type}

/-- A step of waiting for all outcomes; `inr` once there is no job without one. -/
def flushStep (pool : Pool τ) : Flush → Option (Flush ⊕ Unit)
  | .arming => some (.inl (.checking pool.wakings))
  | .checking wakings => if pool.pending = 0 then some (.inr ()) else some (.inl (.asleep wakings))
  | .asleep wakings => if wakings < pool.wakings then some (.inl .arming) else none

def adjust (pool : Pool τ) (size : UInt64) : Except Error (Pool τ) :=
  if pool.size < size then pool.addWorkers (size - pool.size)
  else if size < pool.size then pool.removeWorkers (pool.size - size)
  else .ok pool

/-- A call that turns out to be over, and the pool it has changed if it succeeded. -/
def concluded (pool : Pool τ) : Except Error (Pool τ) → Pool τ × Progress τ
  | .ok pool => (pool, .over (.ok ()))
  | .error error => (pool, .over (.error error))

def refused (pool : Pool τ) (detail : String) : Pool τ × Progress τ :=
  (pool, .over (.error (.refused .wrongStatus detail)))

def activityStep (caller : Nat) (pool : Pool τ) : Activity τ → Option (Pool τ × Progress τ)
  | .submit job =>
      if pool.isOpen then
        some ({ pool with pending := pool.pending + 1, jobLine := pool.jobLine ++ [caller] },
          .going (.enqueue job))
      else some (pool.refused s!"can't submit {job.label}: worker pool is closed")
  | .enqueue job =>
      if isServed pool.jobLine pool.jobRoom caller then
        some ({ pool with
            jobs := pool.jobs ++ [job]
            jobLine := pool.jobLine.erase caller },
          .over (.ok ()))
      else none
  | .flush stage =>
      (pool.flushStep stage).map fun
        | .inl stage => (pool, .going (.flush stage))
        | .inr () => (pool, .over (.ok ()))
  | .resize size =>
      match checkSize size with
      | .error error => some (pool, .over (.error error))
      | .ok () =>
          if pool.isOpen then some (pool, .going (.resizing size .arming))
          else some (pool.refused "can't resize: worker pool is closed")
  | .resizing size stage =>
      (pool.flushStep stage).map fun
        | .inl stage => (pool, .going (.resizing size stage))
        | .inr () => pool.concluded (pool.adjust size)
  | .report outcome =>
      if pool.canReport then
        some ({ pool with resultLine := pool.resultLine ++ [.caller caller] },
          .going (.deliver outcome))
      else some (pool.refused s!"can't report {outcome.label}: worker pool is shut down")
  | .deliver outcome =>
      let me := Party.caller caller
      if pool.receiver = .dropped then
        some ({ pool with resultLine := pool.resultLine.erase me },
          .over (.error (.internal "results receiver is gone")))
      else if isServed pool.resultLine pool.resultRoom me then
        some ({ pool with
            results := pool.results ++ [outcome]
            resultLine := pool.resultLine.erase me },
          .over (.ok ()))
      else none
  | .wait => some ({ pool.close with canReport := false }, .going .join)
  | .join => if pool.isDeserted then some ({ pool with size := 0 }, .over (.ok ())) else none

def abandon (caller : Nat) (pool : Pool τ) : Pool τ :=
  { pool with
    jobLine := pool.jobLine.erase caller
    resultLine := pool.resultLine.erase (.caller caller) }

end Pool

end ParcelDesk
