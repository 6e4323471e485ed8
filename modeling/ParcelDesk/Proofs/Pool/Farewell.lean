import ParcelDesk.Proofs.Pool.Conduct

/-!
# The end of a pool

Whoever takes which step when, and whichever calls are made: once the workers have been waited for,
every job that was accepted has been run once, and its outcome was put among the results once.
-/

namespace ParcelDesk

namespace Workshop

variable {τ σ : Type} {engine : Engine τ σ} {shop later : Workshop τ σ}

structure Kept (engine : Engine τ σ) (shop : Workshop τ σ) : Prop where
  floor : shop.pool.floor.Kept engine shop.log shop.read
  stands : ∀ (caller : Nat) (demand : Demand τ) (activity : Activity τ),
    shop.calls[caller]? = some (demand, .going activity) → demand.Stands shop.pool.floor activity
  shared : ∀ (caller other : Nat) (first second : Demand τ), caller ≠ other →
    shop.UnderWay caller first → shop.UnderWay other second → first.isExclusive = false

namespace Kept

theorem make {workers : UInt64} {capacity : Nat} {world : σ}
    (h : Workshop.make workers capacity world = .ok shop) : shop.Kept engine := by
  have horderly := Orderly.make h
  obtain ⟨hsize, rfl⟩ := make_eq_ok h
  refine ⟨⟨rfl, rfl, rfl, fun number => ?_, .inr ⟨hsize.1, ?_⟩, ?_⟩, horderly.stands,
    horderly.shared⟩
  · exact .free [] (fun run hrun => absurd hrun List.not_mem_nil) _ fun worker hworker => by
      rw [List.eq_of_mem_replicate (List.mem_of_getElem? hworker)]
      rfl
  · exact ((Worker.presence_hire [] workers.toNat).trans (Nat.zero_add _)).ge
  · rintro ⟨entry, hentry, -⟩
    cases hentry

theorem orderly (h : shop.Kept engine) : shop.Orderly where
  receiver := h.floor.receiver
  heard := by
    intro worker hworker
    obtain ⟨number, hplace⟩ := List.mem_iff_getElem?.1 hworker
    exact (h.floor.places number).not_shunned worker hplace
  stands := h.stands
  shared := h.shared

theorem step {move : Move τ} (h : shop.Kept engine) (hstep : shop.step engine move = some later)
    (hcrash : ∀ entry ∈ later.log, entry.isCrash = false) : later.Kept engine := by
  obtain ⟨horderly, hpasses⟩ := h.orderly.step hstep
  refine ⟨?_, horderly.stands, horderly.shared⟩
  cases hpasses with
  | work number entries hpace hlog hread =>
      rw [hlog] at hcrash
      rw [hlog, hread]
      exact h.floor.pace hpace fun entry hentry => hcrash entry (List.mem_append_right _ hentry)
  | call demand progress heffect hlog hread =>
      rw [hlog, hread]
      exact h.floor.effect heffect
  | read outcome rest hresults hfloor hlog hread =>
      rw [hfloor, hlog, hread]
      exact h.floor.readOff hresults

theorem follow (h : shop.Kept engine) (moves : List (Move τ))
    (hcrash : ∀ entry ∈ (Workshop.follow engine moves shop).log, entry.isCrash = false) :
    (Workshop.follow engine moves shop).Kept engine := by
  induction moves generalizing shop with
  | nil => exact h
  | cons move moves ih =>
      rw [Workshop.follow] at hcrash ⊢
      cases hstep : shop.step engine move with
      | none =>
          rw [hstep] at hcrash
          exact ih h hcrash
      | some later =>
          rw [hstep] at hcrash
          refine ih (h.step hstep fun entry hentry => ?_) hcrash
          exact hcrash entry ((log_follow engine moves later).subset hentry)

end Kept

/-- Every job that was accepted has been run, in one run, and its outcome was put among the results
in that run; nothing else was, beside what callers reported, and nothing is left to do. -/
structure AllDone (engine : Engine τ σ) (shop : Workshop τ σ) : Prop where
  runs : ∃ runs : List (Run τ), Explains engine runs shop.log ∧
    runs.map Run.job = shop.log.filterMap Entry.accepted?
  stream : shop.read ++ shop.pool.results = shop.log.filterMap Entry.pushed?
  jobs : shop.pool.jobs = []
  size : shop.pool.size = 0

/-- Once no worker has a job in hand, the log tells of complete runs of all jobs that were taken off
the queue. -/
theorem Kept.explained (h : shop.Kept engine)
    (hfree : ∀ worker ∈ shop.pool.workers, worker.isFree = true) :
    ∃ runs : List (Run τ), Explains engine runs shop.log ∧
      runs.map Run.job ++ shop.pool.jobs = shop.log.filterMap Entry.accepted? := by
  obtain ⟨runs, hruns⟩ := exists_explains fun number =>
    (h.floor.places number).runs_of_free fun worker hworker =>
      hfree worker (List.mem_of_getElem? hworker)
  refine ⟨runs, hruns, ?_⟩
  rw [h.floor.queue, ← hruns.taken, List.map_map]
  rfl

theorem Kept.allDone (h : shop.Kept engine)
    (hfarewell : ∃ entry ∈ shop.log, entry.isFarewell = true) : shop.AllDone engine := by
  have hdeserted := h.floor.deserted hfarewell
  have hfree : ∀ worker ∈ shop.pool.workers, worker.isFree = true := by
    intro worker hworker
    have hgone := List.all_eq_true.1 hdeserted.workers worker hworker
    cases worker with
    | gone => rfl
    | atStop | atQueue | waiting | running _ | reporting _ | counting _ | waking _ => cases hgone
  obtain ⟨runs, hruns, hjobs⟩ := h.explained hfree
  refine ⟨⟨runs, hruns, ?_⟩, h.floor.stream, hdeserted.jobs, hdeserted.size⟩
  rw [← hjobs, show shop.pool.jobs = [] from hdeserted.jobs, List.append_nil]

variable {workers : UInt64} {capacity : Nat} {world : σ}

/-- Once the workers of a pool have been waited for, all that was accepted is done, if no job has
crashed. -/
theorem allDone_of_farewell (hmake : make workers capacity world = .ok shop)
    (moves : List (Move τ))
    (hcrash : ∀ entry ∈ (follow engine moves shop).log, entry.isCrash = false)
    (hfarewell : ∃ entry ∈ (follow engine moves shop).log, entry.isFarewell = true) :
    (follow engine moves shop).AllDone engine :=
  ((Kept.make hmake).follow moves hcrash).allDone hfarewell

/-- Two workers and two jobs, the second of which fails. One worker is asked to stop while the other
has the first job, and the second job is queued meanwhile. -/
def twoJobs : List (Move Script) :=
  let first : Job Script := ⟨"first", "first", false, false, some (.ok "done")⟩
  let second : Job Script := ⟨"second", "second", false, false, some (.error (.internal "broken"))⟩
  let opening : List (Move Script) :=
    [.call (.submit first), .call (.submit second), .goOn 0, .goOn 0, .work 0, .work 0, .goOn 1,
      .goOn 1, .call (.remove 1), .call .wait, .goOn 3, .work 1]
  let working : List (Move Script) := List.replicate 8 (.work 0)
  opening ++ working ++ [.read] ++ working ++ [.goOn 3]

def twoWorkers : Workshop Script Stage where
  pool := { capacity := 1, size := 2, workers := [.atStop, .atStop], receiver := .taken }
  world := ⟨[], []⟩

theorem allDone_twoJobs : make 2 1 ⟨[], []⟩ = .ok twoWorkers ∧
    (follow Script.engine twoJobs twoWorkers).AllDone Script.engine := by
  have hmake : make 2 1 ⟨[], []⟩ = .ok twoWorkers := by rfl
  refine ⟨hmake, allDone_of_farewell hmake twoJobs ?_ ?_⟩
  · decide +kernel
  · decide +kernel

end Workshop

end ParcelDesk
