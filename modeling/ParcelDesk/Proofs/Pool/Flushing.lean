import ParcelDesk.Proofs.Pool.Pending

/-!
# Waiting for all outcomes

When the wait for all outcomes is over, every job that was accepted so far has been run, and its
outcome stands among the results before all that come later. Nobody waits longer than that: as long
as somebody sleeps who was not woken, a job is pending or a worker is about to wake the sleepers.
-/

namespace ParcelDesk

variable {τ σ : Type}

def Worker.isWaking : Worker τ → Bool
  | .waking _ => true
  | _ => false

def Progress.stage? : Progress τ → Option Flush
  | .going (.flush stage) | .going (.resizing _ stage) => some stage
  | _ => none

namespace Pool

variable {pool after : Pool τ} {number caller : Nat} {engine : Engine τ σ} {world later : σ}

def Stirs (pool : Pool τ) : Prop :=
  0 < pool.pending ∨ ∃ worker ∈ pool.workers, worker.isWaking = true

/-- Someone who waits for all outcomes is awake, or has been woken, or will be. -/
def Attends (pool : Pool τ) : Flush → Prop
  | .arming => True
  | .checking wakings => wakings ≤ pool.wakings
  | .asleep wakings => wakings ≤ pool.wakings ∧ (wakings < pool.wakings ∨ pool.Stirs)

/-- If the sleepers would have been woken, they still will be, or they have been. -/
structure Heeds (pool after : Pool τ) : Prop where
  wakings : pool.wakings ≤ after.wakings
  stirs : pool.Stirs → pool.wakings < after.wakings ∨ after.Stirs

theorem Attends.heed {stage : Flush} (h : pool.Attends stage) (hheeds : pool.Heeds after) :
    after.Attends stage := by
  cases stage with
  | arming => trivial
  | checking wakings => exact Nat.le_trans h hheeds.wakings
  | asleep wakings =>
      refine ⟨h.1.trans hheeds.wakings, ?_⟩
      rcases h.2 with hwoken | hstirs
      · exact .inl (hwoken.trans_le hheeds.wakings)
      · exact (hheeds.stirs hstirs).imp_left h.1.trans_lt

theorem heeds_of_le (hwakings : after.wakings = pool.wakings)
    (hpending : pool.pending ≤ after.pending) (hworkers : pool.workers ⊆ after.workers) :
    pool.Heeds after := by
  refine ⟨hwakings.ge, fun hstirs => .inr ?_⟩
  rcases hstirs with hsome | ⟨worker, hworker, hwaking⟩
  · exact .inl (hsome.trans_le hpending)
  · exact .inr ⟨worker, hworkers hworker, hwaking⟩

/-! ## Steps of workers -/

theorem heeds_of_move {old : Worker τ} (hold : pool.workers[number]? = some old)
    (hwaking : old.isWaking = false) (new : Worker τ) (hwakings : after.wakings = pool.wakings)
    (hworkers : after.workers = pool.workers.set number new)
    (hpending : 0 < pool.pending → 0 < after.pending ∨ new.isWaking = true) :
    pool.Heeds after := by
  refine ⟨hwakings.ge, fun hstirs => .inr ?_⟩
  rcases hstirs with hsome | ⟨worker, hworker, hstill⟩
  · rcases hpending hsome with hsome | hnew
    · exact .inl hsome
    · refine .inr ⟨new, ?_, hnew⟩
      rw [hworkers]
      exact List.mem_set (List.getElem?_eq_some_iff.1 hold).1 new
  · -- The worker that is about to wake the sleepers is another one.
    obtain ⟨other, hother⟩ := List.mem_iff_getElem?.1 hworker
    have hne : number ≠ other := by
      rintro rfl
      cases hold.symm.trans hother
      cases hwaking.symm.trans hstill
    refine .inr ⟨worker, ?_, hstill⟩
    rw [hworkers]
    exact List.mem_of_getElem? ((List.getElem?_set_ne hne).trans hother)

theorem Act.heeds {old new : Worker τ} (h : pool.Act engine number old new after)
    (hold : pool.workers[number]? = some old) : pool.Heeds after := by
  cases h with
  | stop | pass | take | await | leave | rouse | goOn | finish | crash | shrug | line | tell =>
      exact heeds_of_move hold rfl _ rfl rfl .inl
  | last sent hpending =>
      -- The worker that counts off the last job is the one that wakes the sleepers.
      exact heeds_of_move hold rfl _ rfl rfl fun _ => .inr rfl
  | count sent hpending =>
      refine heeds_of_move hold rfl _ rfl rfl fun hsome => .inl ?_
      change 0 < pool.pending - 1
      omega
  | wake sent => exact ⟨Nat.le_succ _, fun _ => .inl (Nat.lt_succ_self _)⟩

/-! ## Steps of calls -/

structure Minds (pool : Pool τ) (changed : Pool τ × Progress τ) : Prop where
  heeds : pool.Heeds changed.1
  attends : ∀ stage ∈ changed.2.stage?, changed.1.Attends stage

theorem minds_of_le {changed : Pool τ × Progress τ} (hwakings : changed.1.wakings = pool.wakings)
    (hpending : pool.pending ≤ changed.1.pending) (hworkers : pool.workers ⊆ changed.1.workers)
    (hstage : changed.2.stage? = none) : pool.Minds changed :=
  ⟨heeds_of_le hwakings hpending hworkers, fun stage hmem => by rw [hstage] at hmem; cases hmem⟩

theorem minds_of_attends {progress : Progress τ} {stage : Flush}
    (hstage : progress.stage? = some stage) (h : pool.Attends stage) :
    pool.Minds (pool, progress) := by
  refine ⟨heeds_of_le rfl le_rfl (List.Subset.refl _), fun other hother => ?_⟩
  cases hstage.symm.trans hother
  exact h

theorem Sized.minds {changed : Except Error (Pool τ)} (h : pool.Sized changed) :
    pool.Minds (pool.concluded changed) := by
  cases h with
  | refuse | keep | release => exact minds_of_le rfl le_rfl (List.Subset.refl _) rfl
  | hire => exact minds_of_le rfl le_rfl (List.subset_append_left _ _) rfl

theorem minds_start (pool : Pool τ) (demand : Demand τ) : pool.Minds (demand.start pool) := by
  cases demand with
  | submit | report | resize | close | wait =>
      exact minds_of_le rfl le_rfl (List.Subset.refl _) rfl
  | flush => exact minds_of_attends rfl trivial
  | add count => exact (sized_addWorkers pool count).minds
  | remove count => exact (sized_removeWorkers pool count).minds

/-- Whoever falls asleep has seen that a job is pending. -/
theorem attends_flushStep {stage next : Flush} (hattends : pool.Attends stage)
    (h : pool.flushStep stage = some (.inl next)) : pool.Attends next := by
  cases stage with
  | arming =>
      cases h
      exact Nat.le_refl _
  | checking wakings =>
      rw [flushStep] at h
      split at h
      next => cases h
      next hpending =>
        cases h
        exact ⟨hattends, .inr (.inl (Nat.pos_of_ne_zero hpending))⟩
  | asleep wakings =>
      rw [flushStep] at h
      split at h
      · cases h
        trivial
      · cases h

theorem Deed.minds {activity : Activity τ} {changed : Pool τ × Progress τ}
    (h : pool.Deed caller activity changed)
    (hattends : ∀ stage ∈ (Progress.going activity).stage?, pool.Attends stage) :
    pool.Minds changed := by
  cases h with
  | submit => exact minds_of_le rfl (Nat.le_succ _) (List.Subset.refl _) rfl
  | flush stage next hflush =>
      exact minds_of_attends rfl (attends_flushStep (hattends stage rfl) hflush)
  | resize => exact minds_of_attends rfl trivial
  | resizing size stage next hflush =>
      exact minds_of_attends rfl (attends_flushStep (hattends stage rfl) hflush)
  | resized size => exact (sized_adjust pool size).minds
  | refuse | enqueue | flushed | report | deliver | shrug | wait | join =>
      exact minds_of_le rfl le_rfl (List.Subset.refl _) rfl

end Pool

theorem told_sublist_pushed (log : List (Entry τ)) :
    ((log.filterMap Entry.told?).map Prod.snd).Sublist (log.filterMap Entry.pushed?) := by
  induction log with
  | nil => exact .slnil
  | cons entry log ih =>
      cases entry with
      | told worker outcome => exact ih.cons_cons outcome
      | took | ended | crashed => exact ih
      | returned demand result =>
          cases hpushed : (Entry.returned demand result).pushed? with
          | none =>
              rw [List.filterMap_cons_none hpushed]
              exact ih
          | some outcome =>
              rw [List.filterMap_cons_some hpushed]
              exact ih.cons outcome

theorem Entry.pushed?_of_isClearance {entry : Entry τ} (h : entry.isClearance = true) :
    entry.pushed? = none := by
  cases entry with
  | returned demand result =>
      cases demand with
      | flush | resize => rfl
      | submit | report | add | remove | close | wait => cases h
  | took | ended | told | crashed => cases h

namespace Workshop

variable {engine : Engine τ σ} {shop later : Workshop τ σ}

/-- Nobody waits for all outcomes without end. -/
def Attended (shop : Workshop τ σ) : Prop :=
  ∀ call ∈ shop.calls, ∀ stage ∈ call.2.stage?, shop.pool.Attends stage

namespace Attended

theorem step {move : Move τ} (h : shop.Attended) (hstep : shop.step engine move = some later) :
    later.Attended := by
  intro call hcall stage hstage
  cases step_of_move hstep with
  | call demand hadmits =>
      have hminds := Pool.minds_start shop.pool demand
      rcases List.mem_append.1 hcall with hold | hnew
      · exact (h call hold stage hstage).heed hminds.heeds
      · rw [List.mem_singleton.1 hnew] at hstage
        exact hminds.attends stage hstage
  | goOn caller demand activity pool progress hcaller hdeed =>
      have hminds := hdeed.minds (h _ (List.mem_of_getElem? hcaller))
      rcases List.mem_or_eq_of_mem_set hcall with hold | rfl
      · exact (h call hold stage hstage).heed hminds.heeds
      · exact hminds.attends stage hstage
  | work number old new pool world hold hact =>
      exact (h call hcall stage hstage).heed (hact.heeds hold)
  | read outcome rest hresults =>
      exact (h call hcall stage hstage).heed (Pool.heeds_of_le rfl le_rfl (List.Subset.refl _))

theorem make {workers : UInt64} {capacity : Nat} {world : σ}
    (h : Workshop.make workers capacity world = .ok shop) : shop.Attended := by
  obtain ⟨-, rfl⟩ := make_eq_ok h
  exact fun _ hcall => absurd hcall List.not_mem_nil

theorem follow (h : shop.Attended) (moves : List (Move τ)) :
    (Workshop.follow engine moves shop).Attended :=
  follow_keeps Attended (fun _ _ _ hattended hstep => hattended.step hstep) moves h

end Attended

/-- All jobs that were accepted have been run, and the outcomes stand among the results before all
that came later. -/
structure Cleared (engine : Engine τ σ) (earlier since : List (Entry τ)) (shop : Workshop τ σ) :
    Prop where
  runs : ∃ runs : List (Run τ), Explains engine runs earlier ∧
    runs.map Run.job = earlier.filterMap Entry.accepted? ∧
    (runs.map Run.outcome).Subperm (earlier.filterMap Entry.pushed?)
  stream : shop.stream =
    earlier.filterMap Entry.pushed? ++ since.filterMap Entry.pushed?

/-- With nothing pending, all jobs that were accepted have been run. -/
theorem exists_runs_of_pending_eq_zero (h : shop.Kept engine) (haccounted : shop.Accounted)
    (hpending : shop.pool.pending = 0) :
    ∃ runs : List (Run τ), Explains engine runs shop.log ∧
      runs.map Run.job = shop.log.filterMap Entry.accepted? ∧
      (runs.map Run.outcome).Subperm (shop.log.filterMap Entry.pushed?) := by
  have hrest := haccounted.atRest hpending
  obtain ⟨runs, hruns, hjobs⟩ := h.explained fun worker hworker => by
    have hburden := hrest.workers worker hworker
    have hheard := h.orderly.heard worker hworker
    cases worker with
    | running | reporting | counting => cases hburden
    | waking sent =>
        cases sent with
        | false => cases hheard
        | true => rfl
    | atStop | atQueue | waiting | gone => rfl
  refine ⟨runs, hruns, ?_, ?_⟩
  · rw [← hjobs, hrest.jobs, List.append_nil]
  · have htold := hruns.told.map Prod.snd
    rw [List.map_map] at htold
    exact htold.symm.subperm.trans (told_sublist_pushed shop.log).subperm

/-- Nobody who waits for all outcomes returns too early, and nobody sleeps too long. -/
structure FlushBarrier (engine : Engine τ σ) (shop : Workshop τ σ) : Prop where
  cleared : ∀ (earlier : List (Entry τ)) (entry : Entry τ) (since : List (Entry τ)),
    shop.log = earlier ++ entry :: since → entry.isClearance = true →
      Cleared engine earlier since shop
  woken : ∀ call ∈ shop.calls, ∀ wakings, call.2.stage? = some (.asleep wakings) →
    shop.pool.pending = 0 → (∀ worker ∈ shop.pool.workers, worker.isWaking = false) →
      wakings < shop.pool.wakings

variable {workers : UInt64} {capacity : Nat} {world : σ}

theorem cleared_of_isClearance (hmake : make workers capacity world = .ok shop)
    (moves : List (Move τ)) {earlier since : List (Entry τ)} {entry : Entry τ}
    (hlog : (follow engine moves shop).log = earlier ++ entry :: since)
    (hclearance : entry.isClearance = true) :
    Cleared engine earlier since (follow engine moves shop) := by
  have hblank : shop.log <+: earlier := by
    rw [log_of_make hmake]
    exact List.nil_prefix
  have hstart : shop.Kept engine := Kept.make hmake
  obtain ⟨before, move, later, -, hstep, hbefore, hlater, -⟩ := exists_noted moves hblank hlog
  have haccounted : (follow engine before shop).Accounted := (Accounted.make hmake).follow before
  have hpending : (follow engine before shop).pool.pending = 0 := by
    rw [← hbefore] at hlater
    exact (hstart.orderly.follow before).pending_of_isClearance hstep hlater hclearance
  have hkept := hstart.follow before (haccounted.isCrash_of_pending_eq_zero hpending)
  refine ⟨?_, ?_⟩
  · rw [← hbefore]
    exact exists_runs_of_pending_eq_zero hkept haccounted hpending
  · have hstream : (follow engine moves shop).stream = _ :=
      hstart.orderly.stream_follow hstart.floor.stream moves
    rw [hstream, hlog, List.filterMap_append,
      List.filterMap_cons_none (Entry.pushed?_of_isClearance hclearance)]

theorem flushBarrier_follow (hmake : make workers capacity world = .ok shop)
    (moves : List (Move τ)) : (follow engine moves shop).FlushBarrier engine where
  cleared _ _ _ hlog hclearance := cleared_of_isClearance hmake moves hlog hclearance
  woken := by
    intro call hcall wakings hasleep hpending hworkers
    have hattended : (follow engine moves shop).Attended := (Attended.make hmake).follow moves
    have hattends := hattended call hcall _ hasleep
    rcases hattends.2 with hwoken | hsome | ⟨worker, hworker, hwaking⟩
    · exact hwoken
    · cases hpending ▸ hsome
    · cases hwaking.symm.trans (hworkers worker hworker)

/-- Somebody falls asleep while a job is run, is woken when the job is counted off, and looks
again. -/
def sleeper : List (Move Script) :=
  [.call (.submit ⟨"slow", "slow", false, false, some (.ok "done")⟩), .goOn 0, .goOn 0,
    .call .flush, .goOn 1, .goOn 1] ++ List.replicate 8 (.work 0) ++ [.goOn 1, .goOn 1, .goOn 1]

theorem flushBarrier_sleeper : make 2 1 ⟨[], []⟩ = .ok twoWorkers ∧
    (follow Script.engine sleeper twoWorkers).FlushBarrier Script.engine ∧
    (∃ entry ∈ (follow Script.engine sleeper twoWorkers).log, entry.isClearance = true) := by
  have hmake : make 2 1 ⟨[], []⟩ = .ok twoWorkers := by rfl
  refine ⟨hmake, flushBarrier_follow hmake sleeper, ?_⟩
  decide +kernel

end Workshop

end ParcelDesk
