import Mathlib.Algebra.Order.BigOperators.Group.List
import Mathlib.Algebra.Order.Group.Nat
import ParcelDesk.Proofs.Pool.Farewell

/-!
# Pending jobs

A job is pending from the moment a caller starts to send it until a worker counts it off. The count
is that of the jobs that are being sent, those that are queued, and those that a worker has in hand,
and of the crashes: nobody counts a job off that has crashed. So the count is stuck for good once a
job has crashed, and only then.
-/

namespace ParcelDesk

variable {τ σ : Type}

def Worker.burden : Worker τ → Nat
  | .running _ | .reporting _ | .counting _ => 1
  | _ => 0

theorem Worker.burden_hire (workers : List (Worker τ)) (count : Nat) :
    ((workers ++ List.replicate count Worker.atStop).map burden).sum =
      (workers.map burden).sum := by
  simp [burden]

def Progress.sending : Progress τ → Nat
  | .going (.enqueue _) => 1
  | _ => 0

def Demand.isFlushing : Demand τ → Bool
  | .flush | .resize _ => true
  | _ => false

def Entry.isClearance : Entry τ → Bool
  | .returned .flush _ | .returned (.resize _) (.ok ()) => true
  | _ => false

namespace Pool

variable {pool after : Pool τ} {number caller : Nat} {engine : Engine τ σ} {world later : σ}

/-- The number of jobs that are queued or in the hands of workers. -/
def load (pool : Pool τ) : Nat :=
  pool.jobs.length + (pool.workers.map Worker.burden).sum

theorem burden_le_load {worker : Worker τ} (hold : pool.workers[number]? = some worker) :
    worker.burden ≤ pool.load := by
  have hmove := sum_map_set Worker.burden hold .gone
  rw [load]
  simp only [Worker.burden] at hmove ⊢
  omega

/-! ## Steps of workers -/

/-- It is enough to count the job that one worker has in hand. -/
theorem balance_of_move {old new : Worker τ} (hold : pool.workers[number]? = some old)
    (hworkers : after.workers = pool.workers.set number new) {crashes : Nat}
    (h : after.pending + (pool.jobs.length + old.burden) =
      pool.pending + (after.jobs.length + new.burden) + crashes) :
    after.pending + pool.load = pool.pending + after.load + crashes := by
  have hmove := sum_map_set Worker.burden hold new
  rw [load, load, hworkers]
  omega

theorem burden_afterJob (sent : Bool) : (afterJob sent : Worker τ).burden = 0 := by
  cases sent <;> rfl

/-- The count of pending jobs and the load change alike, but for a crash. -/
theorem Act.balance {old new : Worker τ} (h : pool.Act engine number old new after)
    (hold : pool.workers[number]? = some old) (hload : pool.load ≤ pool.pending) :
    after.pending + pool.load = pool.pending + after.load +
      (Entry.ofTurn number (some old) (some new)).countP Entry.isCrash := by
  refine balance_of_move hold h.workers ?_
  cases h with
  | stop | pass | await | leave | rouse | goOn | finish | crash | shrug | line | tell => rfl
  | take job rest hjobs =>
      rw [hjobs]
      rfl
  | last sent hpending =>
      change pool.pending - 1 + (pool.jobs.length + 1) = pool.pending + pool.jobs.length
      omega
  | count sent =>
      -- The job that is counted off is part of the load, so there is one to count off.
      have hpending : 1 ≤ pool.pending := (burden_le_load hold).trans hload
      rw [burden_afterJob]
      change pool.pending - 1 + (pool.jobs.length + 1) = pool.pending + pool.jobs.length
      omega
  | wake sent =>
      rw [burden_afterJob]
      rfl

/-! ## Steps of calls -/

/-- The count of pending jobs has changed by what the load has changed and by what a call is
sending. -/
def Accounts (pool : Pool τ) (before : Nat) (changed : Pool τ × Progress τ) : Prop :=
  changed.1.pending + before + pool.load = pool.pending + changed.2.sending + changed.1.load

theorem Sized.accounts {changed : Except Error (Pool τ)} (h : pool.Sized changed) :
    pool.Accounts 0 (pool.concluded changed) := by
  cases h with
  | refuse | keep | release => rfl
  | hire => simp only [Accounts, concluded, Progress.sending, load, Worker.burden_hire]

theorem accounts_start (pool : Pool τ) (demand : Demand τ) :
    pool.Accounts 0 (demand.start pool) := by
  cases demand with
  | submit | flush | report | resize | close | wait => rfl
  | add count => exact (sized_addWorkers pool count).accounts
  | remove count => exact (sized_removeWorkers pool count).accounts

theorem Deed.accounts {activity : Activity τ} {changed : Pool τ × Progress τ}
    (h : pool.Deed caller activity changed) :
    pool.Accounts (Progress.going activity).sending changed := by
  cases h with
  | refuse activity error hactivity =>
      cases activity with
      | enqueue => cases hactivity
      | submit | flush | resize | resizing | report | deliver | wait | join => rfl
  | submit job => exact Nat.add_right_comm _ _ _
  | enqueue job =>
      simp only [Accounts, Progress.sending, load, List.length_append, List.length_singleton]
      omega
  | resized size => exact (sized_adjust pool size).accounts
  | flush | flushed | resize | resizing | report | deliver | shrug | wait | join => rfl

/-- Holds if a call is over after at most this many steps of its own, whatever others do not do. -/
def isNear (caller : Nat) : Nat → Pool τ → Activity τ → Bool
  | 0, _, _ => false
  | steps + 1, pool, activity =>
      match pool.activityStep caller activity with
      | none => false
      | some (_, .over _) => true
      | some (pool, .going activity) => isNear caller steps pool activity

theorem isNear_resizing (hpending : pool.pending = 0) (size : UInt64) :
    pool.isNear caller 2 (.resizing size .arming) = true := by
  have hlast : pool.isNear caller 1 (.resizing size (.checking pool.wakings)) = true := by
    simp only [isNear, activityStep, flushStep, hpending, if_true, Option.map_some]
    cases pool.adjust size <;> rfl
  exact hlast

theorem isNear_of_isFlushing (caller : Nat) {demand : Demand τ} (hpending : pool.pending = 0)
    (hdemand : demand.isFlushing = true) :
    ∃ activity, demand.start pool = (pool, .going activity) ∧
      pool.isNear caller 3 activity = true := by
  cases demand with
  | flush =>
      refine ⟨.flush .arming, rfl, ?_⟩
      simp [isNear, activityStep, flushStep, hpending]
  | resize size =>
      refine ⟨.resize size, rfl, ?_⟩
      have hresizing : pool.isNear caller 2 (.resizing size .arming) = true :=
        isNear_resizing hpending size
      rw [isNear, activityStep]
      cases checkSize size with
      | error error => rfl
      | ok =>
          cases pool.isOpen with
          | false => rfl
          | true => exact hresizing
  | submit | report | add | remove | close | wait => cases hdemand

end Pool

namespace Workshop

variable {engine : Engine τ σ} {shop later : Workshop τ σ} {demand : Demand τ} {caller : Nat}

def sending (shop : Workshop τ σ) : Nat :=
  (shop.calls.map fun call => call.2.sending).sum

/-- Nobody has anything to do with a job: none is being sent, queued, run, reported or counted
off. -/
structure AtRest (shop : Workshop τ σ) : Prop where
  calls : ∀ call ∈ shop.calls, call.2.sending = 0
  jobs : shop.pool.jobs = []
  workers : ∀ worker ∈ shop.pool.workers, worker.burden = 0

def Accounted (shop : Workshop τ σ) : Prop :=
  shop.pool.pending = shop.sending + shop.pool.load + shop.log.countP Entry.isCrash

namespace Accounted

theorem make {workers : UInt64} {capacity : Nat} {world : σ}
    (h : Workshop.make workers capacity world = .ok shop) : shop.Accounted := by
  obtain ⟨-, rfl⟩ := make_eq_ok h
  have hburden := Worker.burden_hire ([] : List (Worker τ)) workers.toNat
  change 0 = 0 + (0 + ((List.replicate workers.toNat Worker.atStop).map Worker.burden).sum) + 0
  rw [← List.nil_append (List.replicate _ _), hburden]
  rfl

theorem countP_ofProgress (demand : Demand τ) (progress : Progress τ) :
    (Entry.ofProgress demand progress).countP Entry.isCrash = 0 := by
  cases progress <;> rfl

theorem step {move : Move τ} (h : shop.Accounted) (hstep : shop.step engine move = some later) :
    later.Accounted := by
  cases step_of_move hstep with
  | call demand hadmits =>
      have haccounts := Pool.accounts_start shop.pool demand
      rw [Pool.Accounts] at haccounts
      simp only [Accounted, sending, List.map_append, List.sum_append, List.map_cons, List.map_nil,
        List.sum_singleton, List.countP_append, countP_ofProgress] at h ⊢
      omega
  | goOn caller demand activity pool progress hcall hdeed =>
      have haccounts := hdeed.accounts
      have hcalls := Pool.sum_map_set (fun call : Demand τ × Progress τ => call.2.sending) hcall
        (demand, progress)
      simp only [Accounted, Pool.Accounts, sending, List.countP_append, countP_ofProgress]
        at h haccounts hcalls ⊢
      omega
  | work number old new pool world hold hact =>
      rw [Accounted] at h
      have hbalance := hact.balance hold (by omega)
      simp only [Accounted, sending, List.countP_append] at h ⊢
      omega
  | read => exact h

theorem follow (h : shop.Accounted) (moves : List (Move τ)) :
    (Workshop.follow engine moves shop).Accounted :=
  follow_keeps Accounted (fun _ _ _ haccounted hstep => haccounted.step hstep) moves h

/-- As long as a job has crashed, a job is pending. -/
theorem isCrash_of_pending_eq_zero (h : shop.Accounted) (hpending : shop.pool.pending = 0) :
    ∀ entry ∈ shop.log, entry.isCrash = false := by
  rw [Accounted] at h
  have hcount : shop.log.countP Entry.isCrash = 0 := by omega
  intro entry hentry
  exact Bool.eq_false_iff.2 (List.countP_eq_zero.1 hcount entry hentry)

theorem atRest (h : shop.Accounted) (hpending : shop.pool.pending = 0) : shop.AtRest := by
  rw [Accounted, Pool.load] at h
  refine ⟨fun call hcall => ?_, List.eq_nil_of_length_eq_zero (by omega), fun worker hworker => ?_⟩
  · have hsending : shop.sending = 0 := by omega
    exact List.sum_eq_zero_iff.1 hsending _ (List.mem_map_of_mem hcall)
  · have hburden : (shop.pool.workers.map Worker.burden).sum = 0 := by omega
    exact List.sum_eq_zero_iff.1 hburden _ (List.mem_map_of_mem hworker)

theorem pending_atRest (h : shop.Accounted) (hrest : shop.AtRest) :
    shop.pool.pending = shop.log.countP Entry.isCrash := by
  have hsending : shop.sending = 0 := by
    refine List.sum_eq_zero fun count hcount => ?_
    obtain ⟨call, hcall, rfl⟩ := List.mem_map.1 hcount
    exact hrest.calls call hcall
  have hburden : (shop.pool.workers.map Worker.burden).sum = 0 := by
    refine List.sum_eq_zero fun count hcount => ?_
    obtain ⟨worker, hworker, rfl⟩ := List.mem_map.1 hcount
    exact hrest.workers worker hworker
  rw [h, Pool.load, hrest.jobs, hsending, hburden]
  exact Nat.zero_add _

end Accounted

/-- A call that has waited for all outcomes returns while no job is pending. -/
theorem Orderly.pending_of_isClearance {move : Move τ} {entry : Entry τ} (h : shop.Orderly)
    (hstep : shop.step engine move = some later) (hlog : later.log = shop.log ++ [entry])
    (hclearance : entry.isClearance = true) : shop.pool.pending = 0 := by
  cases entry with
  | returned demand result =>
      cases demand with
      | flush => exact h.flushed hstep hlog
      | resize size =>
          cases result with
          | ok => exact (h.resized hstep hlog).1
          | error => cases hclearance
      | submit | report | add | remove | close | wait => cases hclearance
  | took | ended | told | crashed => cases hclearance

theorem goOn_of_activityStep (engine : Engine τ σ) {pool : Pool τ} {activity : Activity τ}
    {progress : Progress τ}
    (hcall : shop.calls[caller]? = some (demand, .going activity))
    (hactivity : shop.pool.activityStep caller activity = some (pool, progress)) :
    ∃ later, shop.step engine (.goOn caller) = some later ∧ later.pool = pool ∧
      later.calls[caller]? = some (demand, progress) ∧
      later.log = shop.log ++ Entry.ofProgress demand progress := by
  refine ⟨{ shop with
    pool
    calls := shop.calls.set caller (demand, progress)
    log := shop.log ++ Entry.ofProgress demand progress }, ?_, rfl, ?_, rfl⟩
  · rw [step, goOnStep, hcall]
    exact congrArg (Option.map _) hactivity
  · rw [List.getElem?_set_self', hcall]
    rfl

theorem call_of_start (engine : Engine τ σ) {pool : Pool τ} {progress : Progress τ}
    (hadmits : shop.admits demand = true) (hstart : demand.start shop.pool = (pool, progress)) :
    ∃ later, shop.step engine (.call demand) = some later ∧ later.pool = pool ∧
      later.calls[shop.calls.length]? = some (demand, progress) ∧
      later.log = shop.log ++ Entry.ofProgress demand progress := by
  refine ⟨{ shop with
    pool
    calls := shop.calls ++ [(demand, progress)]
    log := shop.log ++ Entry.ofProgress demand progress }, ?_, rfl, ?_, rfl⟩
  · rw [step, callStep, if_pos hadmits, hstart]
  · exact List.getElem?_concat_length

theorem follow_goOn_of_over {result : Except Error Unit}
    (hcall : shop.calls[caller]? = some (demand, .over result)) (steps : Nat) :
    follow engine (List.replicate steps (.goOn caller)) shop = shop := by
  have hnone : shop.step engine (.goOn caller) = none := by rw [step, goOnStep, hcall]
  induction steps with
  | zero => rfl
  | succ steps ih =>
      rw [List.replicate_succ, follow, hnone]
      exact ih

theorem follow_goOn_of_isNear {steps : Nat} {activity : Activity τ}
    (hcall : shop.calls[caller]? = some (demand, .going activity))
    (hnear : shop.pool.isNear caller steps activity = true) :
    ∃ result, (follow engine (List.replicate steps (.goOn caller)) shop).log =
      shop.log ++ [.returned demand result] := by
  induction steps generalizing shop activity with
  | zero => cases hnear
  | succ steps ih =>
      rw [Pool.isNear] at hnear
      cases hactivity : shop.pool.activityStep caller activity with
      | none =>
          rw [hactivity] at hnear
          cases hnear
      | some stepped =>
          obtain ⟨pool, progress⟩ := stepped
          obtain ⟨later, hstep, rfl, hlater, hlog⟩ := goOn_of_activityStep engine hcall hactivity
          rw [hactivity] at hnear
          rw [List.replicate_succ, follow, hstep]
          rcases progress with next | result
          · obtain ⟨result, hresult⟩ := ih hlater hnear
            refine ⟨result, hresult.trans ?_⟩
            rw [hlog]
            exact congrArg (· ++ _) (List.append_nil _)
          · exact ⟨result, (congrArg log (follow_goOn_of_over hlater steps)).trans hlog⟩

/-- With nothing pending, a call that waits for all outcomes does not have to wait. -/
theorem follow_call_of_isFlushing (hpending : shop.pool.pending = 0)
    (hdemand : demand.isFlushing = true) (hadmits : shop.admits demand = true) :
    ∃ result, (follow engine
      (.call demand :: List.replicate 3 (.goOn shop.calls.length)) shop).log =
        shop.log ++ [.returned demand result] := by
  obtain ⟨activity, hstart, hnear⟩ := Pool.isNear_of_isFlushing shop.calls.length hpending hdemand
  obtain ⟨later, hstep, hpool, hcall, hlog⟩ := call_of_start engine hadmits hstart
  rw [← hpool] at hnear
  obtain ⟨result, hresult⟩ := follow_goOn_of_isNear hcall hnear
  refine ⟨result, ?_⟩
  rw [follow, hstep]
  exact hresult.trans (congrArg (· ++ _) (hlog.trans (List.append_nil _)))

/-- At rest just the jobs that have crashed are pending. With none, a call that waits for all
outcomes is over after its own steps; after a crash it never is. -/
structure CountsCrashes (engine : Engine τ σ) (shop : Workshop τ σ) : Prop where
  pending : shop.AtRest → shop.pool.pending = shop.log.countP Entry.isCrash
  prompt : shop.AtRest → (∀ entry ∈ shop.log, entry.isCrash = false) → ∀ demand : Demand τ,
    demand.isFlushing = true → shop.admits demand = true → ∃ result,
      (follow engine (.call demand :: List.replicate 3 (.goOn shop.calls.length)) shop).log =
        shop.log ++ [.returned demand result]
  stuck : shop.log.Pairwise fun first second => first.isCrash = true → second.isClearance = false

theorem pairwise_stuck (horderly : shop.Orderly) (haccounted : shop.Accounted)
    (hlog : shop.log = []) (moves : List (Move τ)) :
    (follow engine moves shop).log.Pairwise fun first second =>
      first.isCrash = true → second.isClearance = false := by
  refine (follow_keeps (fun shop => (shop.Orderly ∧ shop.Accounted) ∧
    shop.log.Pairwise fun first second => first.isCrash = true → second.isClearance = false)
    ?_ moves ⟨⟨horderly, haccounted⟩, hlog ▸ .nil⟩).2
  rintro shop later move ⟨⟨horderly, haccounted⟩, hpairwise⟩ hstep
  refine ⟨⟨(horderly.step hstep).1, haccounted.step hstep⟩, ?_⟩
  rcases noted_step hstep with hsame | ⟨entry, hnoted⟩
  · rw [hsame]
    exact hpairwise
  · rw [hnoted, List.pairwise_append]
    refine ⟨hpairwise, List.pairwise_singleton _ _, fun first hfirst second hsecond hcrash => ?_⟩
    rw [List.mem_singleton.1 hsecond]
    refine Bool.eq_false_iff.2 fun hclearance => ?_
    have hpending := horderly.pending_of_isClearance hstep hnoted hclearance
    cases hcrash.symm.trans (haccounted.isCrash_of_pending_eq_zero hpending first hfirst)

variable {workers : UInt64} {capacity : Nat} {world : σ}

theorem countsCrashes_follow (hmake : make workers capacity world = .ok shop)
    (moves : List (Move τ)) : (follow engine moves shop).CountsCrashes engine where
  pending := ((Accounted.make hmake).follow moves).pending_atRest
  prompt := by
    intro hrest hcrash demand hdemand hadmits
    have hpending := ((Accounted.make hmake).follow moves).pending_atRest hrest
    refine follow_call_of_isFlushing ?_ hdemand hadmits
    rw [hpending, List.countP_eq_zero]
    exact fun entry hentry => Bool.eq_false_iff.1 (hcrash entry hentry)
  stuck := pairwise_stuck (Orderly.make hmake) (Accounted.make hmake) (log_of_make hmake) moves

theorem countsCrashes_twoJobs : make 2 1 ⟨[], []⟩ = .ok twoWorkers ∧
    (follow Script.engine twoJobs twoWorkers).CountsCrashes Script.engine := by
  have hmake : make 2 1 ⟨[], []⟩ = .ok twoWorkers := by rfl
  exact ⟨hmake, countsCrashes_follow hmake twoJobs⟩

/-- A job crashes, and somebody waits for all outcomes then. -/
def lostJob : List (Move Script) :=
  [.call (.submit ⟨"lost", "lost", false, false, none⟩), .goOn 0, .goOn 0, .work 0, .work 0,
    .work 0, .work 0, .call .flush, .goOn 1, .goOn 1]

theorem pending_of_lostJob : make 2 1 ⟨[], []⟩ = .ok twoWorkers ∧
    (follow Script.engine lostJob twoWorkers).AtRest ∧
    (follow Script.engine lostJob twoWorkers).pool.pending = 1 ∧
    (follow Script.engine lostJob twoWorkers).UnderWay 1 .flush ∧
    (follow Script.engine lostJob twoWorkers).step Script.engine (.goOn 1) = none := by
  refine ⟨rfl, ⟨?_, rfl, ?_⟩, rfl, ⟨.flush (.asleep 0), rfl⟩, rfl⟩
  · decide +kernel
  · decide +kernel

end Workshop

end ParcelDesk
