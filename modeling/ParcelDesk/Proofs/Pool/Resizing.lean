import ParcelDesk.Proofs.Pool.Flushing
import ParcelDesk.Proofs.Pool.Lines

/-!
# Resizing

A pool that has been resized has as many workers as was asked for, and one more for each signal that
nobody has seen yet. Such a worker may still run a job, but only if somebody took a step between the
two looks of a worker, the one for a signal and the one for a job.
-/

namespace ParcelDesk

variable {τ σ : Type}

/-- Holds of the return of a call that has started more workers than a pool can have, which succeeds
only if the new size does not fit a machine word. -/
def Entry.overflows : Entry τ → Bool
  | .returned (.add count) (.ok ()) => decide (100 < count.toNat)
  | _ => false

namespace Pool

variable {engine : Engine τ σ} {number caller : Nat} {pool after : Pool τ} {old new : Worker τ}
  {size count : UInt64}

def running (pool : Pool τ) : Nat :=
  pool.workers.countP Worker.isRunning

theorem running_le_staff (pool : Pool τ) : pool.running ≤ pool.floor.staff := by
  change pool.workers.countP Worker.isRunning ≤ (pool.workers.map Worker.presence).sum
  induction pool.workers with
  | nil => exact Nat.le_refl 0
  | cons worker workers ih =>
      rw [List.countP_cons, List.map_cons, List.sum_cons, Nat.add_comm]
      refine Nat.add_le_add ?_ ih
      cases worker with
      | running => exact Nat.le_refl 1
      | atStop | atQueue | waiting | reporting | counting | waking | gone => exact Nat.zero_le _

/-- No more workers are left than the size and the signals that nobody has seen account for. -/
structure Trim (pool : Pool τ) : Prop where
  size : pool.size.toNat ≤ 100
  staff : pool.floor.staff ≤ pool.size.toNat + pool.signals

/-! ## Steps of workers -/

theorem presence_le_one (worker : Worker τ) : worker.presence ≤ 1 := by
  cases worker with
  | gone => exact Nat.zero_le 1
  | atStop | atQueue | waiting | running | reporting | counting | waking => exact Nat.le_refl 1

/-- A worker that sees a signal leaves; no other signal goes away. -/
theorem Act.presence_le (h : pool.Act engine number old new after) :
    new.presence + pool.signals ≤ old.presence + after.signals := by
  cases h with
  | stop hhead hsignals =>
      change 0 + pool.signals ≤ 1 + (pool.signals - 1)
      omega
  | pass | take | await | leave | rouse | goOn | finish | crash | shrug | line | tell | last | count
  | wake => exact Nat.add_le_add_right (presence_le_one _) _

theorem Act.trim (h : pool.Act engine number old new after)
    (hold : pool.workers[number]? = some old) (htrim : pool.Trim) : after.Trim := by
  have hmove : old.presence + (pool.floor.move number new).staff = _ := Floor.staff_move hold new
  have hafter : after.floor.staff = (pool.floor.move number new).staff :=
    congrArg (fun workers => (workers.map Worker.presence).sum) h.workers
  have hsignals := h.presence_le
  have hbefore := htrim.staff
  refine ⟨h.terms.size ▸ htrim.size, ?_⟩
  rw [h.terms.size]
  omega

/-! ## Steps of calls -/

theorem Trim.hire (h : pool.Trim) (hsize : Allowed (pool.size + count))
    (hfits : (pool.size + count).toNat = pool.size.toNat + count.toNat) :
    Trim { pool with
      workers := pool.workers ++ List.replicate count.toNat .atStop
      size := pool.size + count } := by
  have hstaff := h.staff
  refine ⟨hsize.2, ?_⟩
  change ((pool.workers ++ List.replicate count.toNat Worker.atStop).map Worker.presence).sum ≤
    (pool.size + count).toNat + pool.signals
  rw [Worker.presence_hire, hfits]
  change pool.floor.staff + count.toNat ≤ _
  omega

theorem Trim.release (h : pool.Trim) (hcount : count ≤ pool.size) :
    Trim { pool with
      signals := pool.signals + count.toNat
      size := pool.size - count } := by
  have hstaff := h.staff
  have hsize := h.size
  have hle := UInt64.le_iff_toNat_le.1 hcount
  have hrest : (pool.size - count).toNat = pool.size.toNat - count.toNat :=
    UInt64.toNat_sub_of_le _ _ hcount
  refine ⟨?_, ?_⟩
  · change (pool.size - count).toNat ≤ 100
    omega
  · change pool.floor.staff ≤ (pool.size - count).toNat + (pool.signals + count.toNat)
    omega

theorem trim_addWorkers (h : pool.Trim) (hcount : count.toNat ≤ 100)
    (hadd : pool.addWorkers count = .ok after) : after.Trim := by
  obtain ⟨hsize, -, rfl⟩ := addWorkers_eq_ok hadd
  refine h.hire hsize ?_
  have hbefore := h.size
  rw [UInt64.toNat_add, Nat.mod_eq_of_lt (by omega)]

theorem trim_removeWorkers (h : pool.Trim) (hremove : pool.removeWorkers count = .ok after) :
    after.Trim := by
  obtain ⟨-, hcount, rfl⟩ := removeWorkers_eq_ok hremove
  exact h.release hcount

theorem trim_adjust (h : pool.Trim) (hadjust : pool.adjust size = .ok after) :
    after.Trim ∧ after.size = size := by
  rw [adjust] at hadjust
  split at hadjust
  next hless =>
    obtain ⟨hsize, -, rfl⟩ := addWorkers_eq_ok hadjust
    have hsum : pool.size + (size - pool.size) = size := by grind
    refine ⟨h.hire hsize ?_, hsum⟩
    have hless := UInt64.lt_iff_toNat_lt.1 hless
    rw [hsum, UInt64.toNat_sub_of_le _ _ (UInt64.le_iff_toNat_le.2 hless.le)]
    omega
  next hnotLess =>
    split at hadjust
    next hless =>
      obtain ⟨-, hcount, rfl⟩ := removeWorkers_eq_ok hadjust
      have hrest : pool.size - (pool.size - size) = size := by grind
      exact ⟨h.release hcount, hrest⟩
    next hnotMore =>
      cases hadjust
      refine ⟨h, UInt64.toNat_inj.1 ?_⟩
      rw [UInt64.lt_iff_toNat_lt] at hnotLess hnotMore
      omega

theorem trim_start (h : pool.Trim) (demand : Demand τ)
    (hfits : ∀ entry ∈ Entry.ofProgress demand (demand.start pool).2, entry.overflows = false) :
    (demand.start pool).1.Trim := by
  cases demand with
  | submit | flush | report | resize | close | wait => exact ⟨h.size, h.staff⟩
  | add count =>
      rw [Demand.start] at hfits ⊢
      cases hadd : pool.addWorkers count with
      | error error => exact h
      | ok after =>
          rw [hadd] at hfits
          have hcount := of_decide_eq_false (hfits _ (List.mem_singleton_self _))
          exact trim_addWorkers h (Nat.not_lt.1 hcount) hadd
  | remove count =>
      rw [Demand.start]
      cases hremove : pool.removeWorkers count with
      | error error => exact h
      | ok after => exact trim_removeWorkers h hremove

theorem Deed.trim {activity : Activity τ} {changed : Pool τ × Progress τ}
    (h : pool.Deed caller activity changed) (htrim : pool.Trim) : changed.1.Trim := by
  cases h with
  | resized size =>
      cases hadjust : pool.adjust size with
      | error error => exact htrim
      | ok after => exact (trim_adjust htrim hadjust).1
  | join hdeserted =>
      have hstaff : pool.floor.staff = 0 := Floor.staff_of_deserted hdeserted
      exact ⟨Nat.zero_le _, hstaff.le.trans (Nat.zero_le _)⟩
  | refuse | submit | enqueue | flush | flushed | resize | resizing | report | deliver | shrug
  | wait => exact ⟨htrim.size, htrim.staff⟩

/-! ## Running workers -/

theorem running_of_move (hold : pool.workers[number]? = some old)
    (hworkers : after.workers = pool.workers.set number new)
    (hrunning : new.isRunning = true → old.isRunning = true) : after.running ≤ pool.running := by
  obtain ⟨hnumber, hplace⟩ := List.getElem?_eq_some_iff.1 hold
  rw [running, running, hworkers, List.countP_set hnumber, hplace]
  by_cases hnew : new.isRunning = true
  · have hsome : 0 < pool.workers.countP Worker.isRunning :=
      List.countP_pos_iff.2 ⟨old, List.mem_of_getElem? hold, hrunning hnew⟩
    rw [if_pos hnew, if_pos (hrunning hnew)]
    omega
  · rw [if_neg hnew]
    exact Nat.sub_le _ _

theorem Trim.running_le (h : pool.Trim) (hsignals : pool.signals = 0) :
    pool.running ≤ pool.size.toNat := by
  have hstaff := h.staff
  rw [hsignals, Nat.add_zero] at hstaff
  exact (running_le_staff pool).trans hstaff

/-- With the lines aligned, a job is taken only where a signal would have been seen. -/
theorem signals_of_take (haligned : pool.Aligned) (hold : pool.workers[number]? = some .atQueue)
    (hhead : (joining pool.queueLine number).head? = some number) : pool.signals = 0 := by
  cases haligned with
  | level hnone => cases hnone _ (List.mem_of_getElem? hold)
  | looking other hother hothers hlines hsignals =>
      have hsame : other = number := by
        by_contra hne
        cases hothers _ (List.mem_eraseIdx_iff_getElem?.2 ⟨number, Ne.symm hne, hold⟩)
      subst hsame
      rw [← hlines] at hhead
      exact hsignals hhead

/-- A worker takes a job only if there are no more workers than there should be. -/
theorem Act.running_le (h : pool.Act engine number old new after)
    (hold : pool.workers[number]? = some old) (haligned : pool.Aligned) (htrim : after.Trim) :
    after.running ≤ max pool.running after.size.toNat := by
  have hworkers := h.workers
  cases h with
  | take job rest hjobs hhead =>
      have hsignals : pool.signals = 0 := signals_of_take haligned hold hhead
      exact (htrim.running_le hsignals).trans (Nat.le_max_right _ _)
  | goOn job body =>
      exact (running_of_move hold hworkers fun _ => rfl).trans (Nat.le_max_left _ _)
  | stop | pass | await | leave | rouse | finish | crash | shrug | line | tell | last =>
      exact (running_of_move hold hworkers nofun).trans (Nat.le_max_left _ _)
  | count sent | wake sent =>
      refine (running_of_move hold hworkers ?_).trans (Nat.le_max_left _ _)
      cases sent <;> exact nofun

theorem Sized.running {changed : Except Error (Pool τ)} (h : pool.Sized changed) :
    (pool.concluded changed).1.running = pool.running := by
  cases h with
  | refuse | keep | release => rfl
  | hire count =>
      change (pool.workers ++ List.replicate count.toNat Worker.atStop).countP Worker.isRunning = _
      rw [List.countP_append, List.countP_replicate]
      rfl

theorem running_start (pool : Pool τ) (demand : Demand τ) :
    (demand.start pool).1.running = pool.running := by
  cases demand with
  | submit | flush | report | resize | close | wait => rfl
  | add count => exact (sized_addWorkers pool count).running
  | remove count => exact (sized_removeWorkers pool count).running

theorem Deed.running {activity : Activity τ} {changed : Pool τ × Progress τ}
    (h : pool.Deed caller activity changed) : changed.1.running = pool.running := by
  cases h with
  | resized size => exact (sized_adjust pool size).running
  | refuse | submit | enqueue | flush | flushed | resize | resizing | report | deliver | shrug
  | wait | join => rfl

end Pool

namespace Workshop

variable {engine : Engine τ σ} {shop later : Workshop τ σ} {move : Move τ} {size : UInt64}

theorem trim_step (h : shop.pool.Trim) (hstep : shop.step engine move = some later)
    (hfits : ∀ entry ∈ later.log, entry.overflows = false) : later.pool.Trim := by
  cases step_of_move hstep with
  | call demand =>
      exact Pool.trim_start h demand fun entry hentry =>
        hfits entry (List.mem_append_right _ hentry)
  | goOn caller demand activity pool progress hcall hdeed => exact hdeed.trim h
  | work number old new pool world hold hact => exact hact.trim hold h
  | read => exact ⟨h.size, h.staff⟩

theorem trim_follow (moves : List (Move τ)) (h : shop.pool.Trim)
    (hfits : ∀ entry ∈ (follow engine moves shop).log, entry.overflows = false) :
    (follow engine moves shop).pool.Trim := by
  induction moves generalizing shop with
  | nil => exact h
  | cons move moves ih =>
      rw [follow] at hfits ⊢
      refine ih ?_ hfits
      cases hstep : shop.step engine move with
      | none => exact h
      | some later =>
          rw [hstep] at hfits
          exact trim_step h hstep fun entry hentry =>
            hfits entry ((log_follow engine moves later).subset hentry)

/-- Where the lines are aligned, a step leaves no more jobs being run than there were, or than there
should be. -/
theorem running_step (haligned : shop.pool.Aligned) (htrim : later.pool.Trim)
    (hstep : shop.step engine move = some later) :
    later.pool.running ≤ max shop.pool.running later.pool.size.toNat := by
  cases step_of_move hstep with
  | call demand => exact (Pool.running_start shop.pool demand).le.trans (Nat.le_max_left _ _)
  | goOn caller demand activity pool progress hcall hdeed =>
      exact hdeed.running.le.trans (Nat.le_max_left _ _)
  | work number old new pool world hold hact => exact hact.running_le hold haligned htrim
  | read => exact Nat.le_max_left _ _

def isSteady (engine : Engine τ σ) : List (Move τ) → Workshop τ σ → Bool
  | [], _ => true
  | move :: moves, shop =>
      let later := (shop.step engine move).getD shop
      later.pool.size == shop.pool.size && isSteady engine moves later

theorem size_of_isSteady {moves : List (Move τ)} (h : isSteady engine moves shop = true) :
    (follow engine moves shop).pool.size = shop.pool.size := by
  induction moves generalizing shop with
  | nil => rfl
  | cons move moves ih =>
      rw [isSteady, Bool.and_eq_true, beq_iff_eq] at h
      exact (ih h.2).trans h.1

theorem running_follow {moves : List (Move τ)} (haligned : shop.pool.Aligned)
    (htrim : shop.pool.Trim) (hbrisk : isBrisk engine moves shop = true)
    (hsteady : isSteady engine moves shop = true)
    (hfits : ∀ entry ∈ (follow engine moves shop).log, entry.overflows = false)
    (hrunning : shop.pool.running ≤ shop.pool.size.toNat) :
    (follow engine moves shop).pool.running ≤ shop.pool.size.toNat := by
  induction moves generalizing shop with
  | nil => exact hrunning
  | cons move moves ih =>
      rw [isBrisk, Bool.and_eq_true] at hbrisk
      rw [isSteady, Bool.and_eq_true, beq_iff_eq] at hsteady
      rw [follow] at hfits ⊢
      cases hstep : shop.step engine move with
      | none =>
          rw [hstep] at hbrisk hsteady hfits
          exact ih haligned htrim hbrisk.2 hsteady.2 hfits hrunning
      | some later =>
          rw [hstep] at hbrisk hsteady hfits
          change later.pool.size = shop.pool.size ∧ isSteady engine moves later = true at hsteady
          have htrimmed : later.pool.Trim := trim_step htrim hstep fun entry hentry =>
            hfits entry ((log_follow engine moves later).subset hentry)
          have hlater := running_step haligned htrimmed hstep
          rw [hsteady.1, max_eq_right hrunning] at hlater
          rw [← hsteady.1] at hlater ⊢
          exact ih (aligned_step haligned hbrisk.1 hstep) htrimmed hbrisk.2 hsteady.2 hfits hlater

theorem running_of_atRest (h : shop.AtRest) : shop.pool.running = 0 := by
  refine List.countP_eq_zero.2 fun worker hworker hrunning => ?_
  have hburden := h.workers worker hworker
  cases worker with
  | running => cases hburden
  | atStop | atQueue | waiting | reporting | counting | waking | gone => cases hrunning

variable {workers : UInt64} {capacity : Nat} {world : σ}

theorem trim_and_aligned_of_make (h : make workers capacity world = .ok shop) :
    shop.pool.Trim ∧ shop.pool.Aligned := by
  obtain ⟨hsize, rfl⟩ := make_eq_ok h
  refine ⟨⟨hsize.2, ?_⟩, .level (fun worker hworker => ?_) rfl⟩
  · exact ((Worker.presence_hire [] workers.toNat).trans (Nat.zero_add _)).le
  · rw [List.eq_of_mem_replicate hworker]
    rfl

/-- As many workers are left as was asked for and as there are signals that nobody has seen; fewer
only if the pool has been closed or a job has crashed. -/
structure Staffed (wanted : UInt64) (shop : Workshop τ σ) : Prop where
  size : shop.pool.size = wanted
  most : shop.pool.floor.staff ≤ wanted.toNat + shop.pool.signals
  least : shop.pool.isOpen = true → (∀ entry ∈ shop.log, entry.isCrash = false) →
    wanted.toNat + shop.pool.signals ≤ shop.pool.floor.staff
  running : shop.pool.running ≤ wanted.toNat + shop.pool.signals

/-- After the return of a change of size, and until the size changes again: the pool is staffed, and
runs no more jobs at a time than was asked for if no step comes between the two looks of a
worker. -/
theorem staffed_of_resized (hmake : make workers capacity world = .ok shop)
    (before : List (Move τ)) (move : Move τ) (rest : List (Move τ))
    (hstep : (follow engine before shop).step engine move = some later)
    (hreturned : later.log =
      (follow engine before shop).log ++ [.returned (.resize size) (.ok ())])
    (hsteady : isSteady engine rest later = true)
    (hfits : ∀ entry ∈ (follow engine rest later).log, entry.overflows = false) :
    (follow engine rest later).Staffed size ∧
      (isBrisk engine (before ++ move :: rest) shop = true →
        (follow engine rest later).pool.running ≤ size.toNat) := by
  have hlog := log_follow engine rest later
  have htrim : (follow engine before shop).pool.Trim :=
    trim_follow before (trim_and_aligned_of_make hmake).1 fun entry hentry =>
      hfits entry (hlog.subset (hreturned ▸ List.mem_append_left _ hentry))
  obtain ⟨hpending, hadjust⟩ := ((Orderly.make hmake).follow before).resized hstep hreturned
  obtain ⟨htrimmed, hsize⟩ := Pool.trim_adjust htrim hadjust
  have hlast := trim_follow rest htrimmed hfits
  have hsame : (follow engine rest later).pool.size = size := (size_of_isSteady hsteady).trans hsize
  have hmost := hlast.staff
  rw [hsame] at hmost
  refine ⟨⟨hsame, hmost, ?_, (Pool.running_le_staff _).trans hmost⟩, fun hbrisk => ?_⟩
  · intro hopen hcrash
    have hrun : follow engine (before ++ move :: rest) shop = follow engine rest later := by
      rw [follow_append, follow, hstep]
      rfl
    have hkept : (follow engine rest later).Kept engine := by
      rw [← hrun]
      refine (Kept.make hmake).follow _ ?_
      rw [hrun]
      exact hcrash
    rcases hkept.floor.manned with ⟨hclosed, -⟩ | ⟨-, hmanned⟩
    · cases hopen.symm.trans hclosed
    · exact hsame ▸ hmanned
  · rw [isBrisk_append, Bool.and_eq_true, isBrisk, Bool.and_eq_true, hstep] at hbrisk
    have haligned := aligned_follow before (trim_and_aligned_of_make hmake).2 hbrisk.1
    have hidle : later.pool.running = 0 := by
      have haccounted : (follow engine before shop).Accounted :=
        (Accounted.make hmake).follow before
      have hrunning := (Pool.sized_adjust (follow engine before shop).pool size).running
      rw [hadjust, running_of_atRest (haccounted.atRest hpending)] at hrunning
      exact hrunning
    rw [← hsize]
    exact running_follow (aligned_step haligned hbrisk.2.1 hstep) htrimmed hbrisk.2.2 hsteady hfits
      (hidle.le.trans (Nat.zero_le _))

/-- Of two workers one is asked to stop. -/
def oneTooMany : List (Move Script) :=
  [.call (.resize 1), .goOn 0, .goOn 0]

/-- The one that is first in line sees the signal, and the other runs the job that comes then. -/
def oneLeft : List (Move Script) :=
  [.work 0, .call (.submit ⟨"only", "only", false, false, some (.ok "done")⟩), .goOn 1, .goOn 1,
    .work 1, .work 1]

theorem staffed_oneLeft : make 2 1 ⟨[], []⟩ = .ok twoWorkers ∧
    isBrisk Script.engine (oneTooMany ++ .goOn 0 :: oneLeft) twoWorkers = true ∧
    (follow Script.engine (oneTooMany ++ .goOn 0 :: oneLeft) twoWorkers).Staffed 1 ∧
    (follow Script.engine (oneTooMany ++ .goOn 0 :: oneLeft) twoWorkers).pool.running = 1 := by
  have hmake : make 2 1 ⟨[], []⟩ = .ok twoWorkers := by rfl
  have hstep : (follow Script.engine oneTooMany twoWorkers).step Script.engine (.goOn 0) =
      some (follow Script.engine (oneTooMany ++ [.goOn 0]) twoWorkers) := by rfl
  have hreturned : (follow Script.engine (oneTooMany ++ [.goOn 0]) twoWorkers).log =
      (follow Script.engine oneTooMany twoWorkers).log ++ [.returned (.resize 1) (.ok ())] := by rfl
  have hstaffed := staffed_of_resized hmake oneTooMany (.goOn 0) oneLeft hstep hreturned
    (by decide +kernel) (by decide +kernel)
  exact ⟨hmake, by decide +kernel, hstaffed.1, by decide +kernel⟩

/-- Both workers have looked for a signal when one of them is asked to stop, and both look for a job
then. -/
def lateSignal : List (Move Script) :=
  let first : Job Script := ⟨"first", "first", false, false, some (.ok "done")⟩
  let second : Job Script := ⟨"second", "second", false, false, some (.ok "done")⟩
  [.work 0, .work 1, .call (.resize 1), .goOn 0, .goOn 0, .goOn 0, .call (.submit first), .goOn 1,
    .goOn 1, .work 0, .call (.submit second), .goOn 2, .goOn 2, .work 1]

/-- A worker leaves because nobody wants its outcome, and the pool is resized to the size it seems
to have. -/
def unwanted : List (Move Script) :=
  [.call (.submit ⟨"only", "only", false, false, some (.ok "done")⟩), .goOn 0, .goOn 0] ++
    List.replicate 7 (.work 0) ++ [.call (.resize 2), .goOn 1, .goOn 1, .goOn 1]

def unheard : Workshop Script Stage :=
  { twoWorkers with pool := twoWorkers.pool.dropResults }

theorem resized_amiss :
    ((follow Script.engine lateSignal twoWorkers).log.head? =
        some (.returned (.resize 1) (.ok ())) ∧
      (follow Script.engine lateSignal twoWorkers).pool.size = 1 ∧
      (follow Script.engine lateSignal twoWorkers).pool.running = 2) ∧
    ((follow Script.engine unwanted unheard).log.getLast? =
        some (.returned (.resize 2) (.ok ())) ∧
      (follow Script.engine unwanted unheard).pool.signals = 0 ∧
      (follow Script.engine unwanted unheard).pool.isOpen = true ∧
      (follow Script.engine unwanted unheard).pool.floor.staff = 1) := by
  refine ⟨⟨rfl, ?_, ?_⟩, rfl, ?_, ?_, ?_⟩
  · decide +kernel
  · decide +kernel
  · decide +kernel
  · decide +kernel
  · decide +kernel

end Workshop

end ParcelDesk
