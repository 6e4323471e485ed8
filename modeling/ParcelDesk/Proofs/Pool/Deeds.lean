import ParcelDesk.Proofs.Pool.Sizes

/-!
# Deeds of callers

All that a call may do in one step. What a pool keeps or counts is proved deed by deed.
-/

namespace ParcelDesk

def Activity.isOpening {τ : Type} : Activity τ → Bool
  | .submit _ | .resize _ | .report _ => true
  | _ => false

namespace Pool

variable {τ : Type} {pool : Pool τ} {changed : Pool τ × Progress τ}

/-- What a step of a call does to the pool, and how far the call is then. -/
inductive Deed (caller : Nat) (pool : Pool τ) : Activity τ → Pool τ × Progress τ → Prop where
  | refuse (activity : Activity τ) (error : Error) (hactivity : activity.isOpening = true) :
      Deed caller pool activity (pool, .over (.error error))
  | submit (job : Job τ) (hopen : pool.isOpen = true) :
      Deed caller pool (.submit job)
        ({ pool with pending := pool.pending + 1, jobLine := pool.jobLine ++ [caller] },
          .going (.enqueue job))
  | enqueue (job : Job τ) :
      Deed caller pool (.enqueue job)
        ({ pool with jobs := pool.jobs ++ [job], jobLine := pool.jobLine.erase caller },
          .over (.ok ()))
  | flush (stage next : Flush) (hflush : pool.flushStep stage = some (.inl next)) :
      Deed caller pool (.flush stage) (pool, .going (.flush next))
  | flushed (stage : Flush) (hpending : pool.pending = 0) :
      Deed caller pool (.flush stage) (pool, .over (.ok ()))
  | resize (size : UInt64) (hopen : pool.isOpen = true) :
      Deed caller pool (.resize size) (pool, .going (.resizing size .arming))
  | resizing (size : UInt64) (stage next : Flush)
      (hflush : pool.flushStep stage = some (.inl next)) :
      Deed caller pool (.resizing size stage) (pool, .going (.resizing size next))
  | resized (size : UInt64) (stage : Flush) (hpending : pool.pending = 0) :
      Deed caller pool (.resizing size stage) (pool.concluded (pool.adjust size))
  | report (outcome : Outcome) :
      Deed caller pool (.report outcome)
        ({ pool with resultLine := pool.resultLine ++ [.caller caller] }, .going (.deliver outcome))
  | deliver (outcome : Outcome) :
      Deed caller pool (.deliver outcome)
        ({ pool with
            results := pool.results ++ [outcome]
            resultLine := pool.resultLine.erase (.caller caller) },
          .over (.ok ()))
  | shrug (outcome : Outcome) (error : Error) :
      Deed caller pool (.deliver outcome)
        ({ pool with resultLine := pool.resultLine.erase (.caller caller) }, .over (.error error))
  | wait : Deed caller pool .wait ({ pool.close with canReport := false }, .going .join)
  | join (hdeserted : pool.isDeserted = true) :
      Deed caller pool .join ({ pool with size := 0 }, .over (.ok ()))

/-- The wait for all outcomes ends while nothing is pending. -/
theorem pending_of_flushed {stage : Flush} {done : Unit}
    (h : pool.flushStep stage = some (.inr done)) : pool.pending = 0 := by
  cases stage with
  | arming => cases h
  | checking wakings =>
      rw [flushStep] at h
      split at h
      next hpending => exact hpending
      next => cases h
  | asleep wakings =>
      rw [flushStep] at h
      split at h
      · cases h
      · cases h

/-- A step of a call is one of its deeds. -/
theorem deed_activityStep {caller : Nat} {activity : Activity τ}
    (h : pool.activityStep caller activity = some changed) :
    pool.Deed caller activity changed := by
  cases activity with
  | submit job =>
      rw [activityStep] at h
      split at h
      next hopen =>
        cases h
        exact .submit job hopen
      next =>
        cases h
        exact .refuse _ _ rfl
  | enqueue job =>
      rw [activityStep] at h
      split at h
      · cases h
        exact .enqueue job
      · cases h
  | flush stage =>
      obtain ⟨flushed, hflush, rfl⟩ := Option.map_eq_some_iff.1 h
      cases flushed with
      | inl next => exact .flush stage next hflush
      | inr done => exact .flushed stage (pending_of_flushed hflush)
  | resize size =>
      rw [activityStep] at h
      split at h
      next =>
        cases h
        exact .refuse _ _ rfl
      next =>
        split at h
        next hopen =>
          cases h
          exact .resize size hopen
        next =>
          cases h
          exact .refuse _ _ rfl
  | resizing size stage =>
      obtain ⟨flushed, hflush, rfl⟩ := Option.map_eq_some_iff.1 h
      cases flushed with
      | inl next => exact .resizing size stage next hflush
      | inr done => exact .resized size stage (pending_of_flushed hflush)
  | report outcome =>
      rw [activityStep] at h
      split at h
      · cases h
        exact .report outcome
      · cases h
        exact .refuse _ _ rfl
  | deliver outcome =>
      simp only [activityStep] at h
      split at h
      · cases h
        exact .shrug outcome _
      · split at h
        · cases h
          exact .deliver outcome
        · cases h
  | wait =>
      cases h
      exact .wait
  | join =>
      rw [activityStep] at h
      split at h
      next hdeserted =>
        cases h
        exact .join hdeserted
      next => cases h

theorem Deed.pending_of_flush {caller : Nat} {stage : Flush} {after : Pool τ}
    {result : Except Error Unit} (h : pool.Deed caller (.flush stage) (after, .over result)) :
    pool.pending = 0 := by
  cases h with
  | refuse _ _ hactivity => cases hactivity
  | flushed _ hpending => exact hpending

theorem Deed.adjust_of_resizing {caller : Nat} {size : UInt64} {stage : Flush} {after : Pool τ}
    (h : pool.Deed caller (.resizing size stage) (after, .over (.ok ()))) :
    pool.pending = 0 ∧ pool.adjust size = .ok after := by
  generalize hchanged : (after, Progress.over (.ok ())) = changed at h
  cases h with
  | refuse _ _ hactivity => cases hactivity
  | resizing => cases hchanged
  | resized _ _ hpending =>
      refine ⟨hpending, ?_⟩
      generalize pool.adjust size = adjusted at hchanged
      cases adjusted with
      | error error => cases hchanged
      | ok pool =>
          cases hchanged
          rfl

end Pool

end ParcelDesk
