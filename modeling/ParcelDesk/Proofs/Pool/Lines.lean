import ParcelDesk.Proofs.Pool.Conduct

/-!
# The two lines

A worker that looks for a signal and for a job without anybody's taking a step in between stands at
the same place in both lines. So where nobody is between the two looks the lines are the same, and
the worker that can see a job is the one that would have seen a signal.
-/

namespace ParcelDesk

variable {τ σ : Type}

namespace Worker

def isLooking : Worker τ → Bool
  | .atQueue => true
  | _ => false

def isRunning : Worker τ → Bool
  | .running _ => true
  | _ => false

end Worker

namespace Pool

variable {engine : Engine τ σ} {number : Nat} {pool after : Pool τ} {old new : Worker τ}

theorem erase_joining (line : List Nat) (number : Nat) :
    (joining line number).erase number = line.erase number := by
  rw [joining]
  split
  next => rfl
  next hnumber => rw [List.erase_append_right _ hnumber, List.erase_cons_head, List.append_nil,
    List.erase_of_not_mem hnumber]

theorem isLooking_afterJob (sent : Bool) : (afterJob sent : Worker τ).isLooking = false := by
  cases sent <;> rfl

/-- The lines are the same, or one worker has joined the first and not yet the second, and was not
first in it while there was a signal. -/
inductive Aligned (pool : Pool τ) : Prop where
  | level (hnone : ∀ worker ∈ pool.workers, worker.isLooking = false)
      (hlines : pool.stopLine = pool.queueLine)
  | looking (number : Nat) (hold : pool.workers[number]? = some .atQueue)
      (hothers : ∀ worker ∈ pool.workers.eraseIdx number, worker.isLooking = false)
      (hlines : pool.stopLine = joining pool.queueLine number)
      (hsignals : pool.stopLine.head? = some number → pool.signals = 0)

/-! ## Steps of workers -/

theorem isLooking_of_move (hnew : new.isLooking = false)
    (hothers : ∀ worker ∈ pool.workers.eraseIdx number, worker.isLooking = false) :
    ∀ worker ∈ pool.workers.set number new, worker.isLooking = false := by
  intro worker hworker
  obtain ⟨other, hother⟩ := List.mem_iff_getElem?.1 hworker
  by_cases hnumber : other = number
  · rw [hnumber, List.getElem?_set_self'] at hother
    obtain ⟨-, -, rfl⟩ := Option.map_eq_some_iff.1 hother
    exact hnew
  · rw [List.getElem?_set_ne (Ne.symm hnumber)] at hother
    exact hothers worker (List.mem_eraseIdx_iff_getElem?.2 ⟨other, hnumber, hother⟩)

theorem Act.aligned_of_level (h : pool.Act engine number old new after)
    (hold : pool.workers[number]? = some old)
    (hnone : ∀ worker ∈ pool.workers, worker.isLooking = false)
    (hlines : pool.stopLine = pool.queueLine) : after.Aligned := by
  have hothers : ∀ worker ∈ pool.workers.eraseIdx number, worker.isLooking = false :=
    fun worker hworker => hnone worker (List.mem_of_mem_eraseIdx hworker)
  cases h with
  | stop =>
      refine .level (isLooking_of_move rfl hothers) ?_
      change (joining pool.stopLine number).erase number = pool.queueLine.erase number
      rw [erase_joining, hlines]
  | pass hhead =>
      refine .looking number ?_ ?_ (congrArg (joining · number) hlines) hhead
      · exact (List.getElem?_set_self').trans (congrArg (Option.map _) hold)
      · change ∀ worker ∈ (pool.workers.set number .atQueue).eraseIdx number, _
        rw [List.eraseIdx_set_eq]
        exact hothers
  | take | await | leave => cases hnone _ (List.mem_of_getElem? hold)
  | rouse | goOn | finish | crash | shrug | line | tell | last =>
      exact .level (isLooking_of_move rfl hothers) hlines
  | count sent | wake sent =>
      exact .level (isLooking_of_move (isLooking_afterJob sent) hothers) hlines

theorem Act.aligned_of_looking (h : pool.Act engine number .atQueue new after)
    (hothers : ∀ worker ∈ pool.workers.eraseIdx number, worker.isLooking = false)
    (hlines : pool.stopLine = joining pool.queueLine number) : after.Aligned := by
  have herased : pool.stopLine.erase number = (joining pool.queueLine number).erase number :=
    congrArg (List.erase · number) hlines
  cases h with
  | take | leave => exact .level (isLooking_of_move rfl hothers) herased
  | await => exact .level (isLooking_of_move rfl hothers) hlines

/-! ## Steps of calls -/

structure SameLines (pool after : Pool τ) : Prop where
  stopLine : after.stopLine = pool.stopLine
  queueLine : after.queueLine = pool.queueLine
  workers : ∀ worker ∈ after.workers, worker ∈ pool.workers ∨ worker.isLooking = false

theorem Sized.sameLines {changed : Except Error (Pool τ)} (h : pool.Sized changed) :
    pool.SameLines (pool.concluded changed).1 := by
  cases h with
  | refuse | keep | release => exact ⟨rfl, rfl, fun _ => .inl⟩
  | hire count =>
      refine ⟨rfl, rfl, fun worker hworker => ?_⟩
      rcases List.mem_append.1 hworker with hold | hnew
      · exact .inl hold
      · rw [List.eq_of_mem_replicate hnew]
        exact .inr rfl

theorem sameLines_start (pool : Pool τ) (demand : Demand τ) :
    pool.SameLines (demand.start pool).1 := by
  cases demand with
  | submit | flush | report | resize | close | wait => exact ⟨rfl, rfl, fun _ => .inl⟩
  | add count => exact (sized_addWorkers pool count).sameLines
  | remove count => exact (sized_removeWorkers pool count).sameLines

theorem Deed.sameLines {caller : Nat} {activity : Activity τ} {changed : Pool τ × Progress τ}
    (h : pool.Deed caller activity changed) : pool.SameLines changed.1 := by
  cases h with
  | resized size => exact (sized_adjust pool size).sameLines
  | refuse | submit | enqueue | flush | flushed | resize | resizing | report | deliver | shrug
  | wait | join => exact ⟨rfl, rfl, fun _ => .inl⟩

theorem SameLines.aligned (h : pool.SameLines after)
    (hnone : ∀ worker ∈ pool.workers, worker.isLooking = false)
    (hlines : pool.stopLine = pool.queueLine) : after.Aligned := by
  refine .level (fun worker hworker => ?_) ?_
  · rcases h.workers worker hworker with hold | hnew
    · exact hnone worker hold
    · exact hnew
  · rw [h.stopLine, h.queueLine, hlines]

end Pool

namespace Workshop

variable {engine : Engine τ σ} {shop later : Workshop τ σ} {move : Move τ}

/-- Holds of a step that does not come between the two looks of a worker. -/
def isPrompt (shop : Workshop τ σ) : Move τ → Bool
  | .work number => (shop.pool.workers.eraseIdx number).all fun worker => !worker.isLooking
  | .call _ | .goOn _ | .read => shop.pool.workers.all fun worker => !worker.isLooking

/-- Holds if no step comes between the two looks of a worker. -/
def isBrisk (engine : Engine τ σ) : List (Move τ) → Workshop τ σ → Bool
  | [], _ => true
  | move :: moves, shop =>
      shop.isPrompt move && isBrisk engine moves ((shop.step engine move).getD shop)

theorem isBrisk_append (first second : List (Move τ)) (shop : Workshop τ σ) :
    isBrisk engine (first ++ second) shop =
      (isBrisk engine first shop && isBrisk engine second (follow engine first shop)) := by
  induction first generalizing shop with
  | nil => rfl
  | cons move first ih =>
      rw [List.cons_append, isBrisk, isBrisk, ih, Bool.and_assoc]
      rfl

/-- The worker that goes on is the one that is between its two looks, if there is one. -/
theorem aligned_work {number : Nat} {old new : Worker τ} {pool : Pool τ} (h : shop.pool.Aligned)
    (hprompt : shop.isPrompt (.work number) = true)
    (hold : shop.pool.workers[number]? = some old)
    (hact : shop.pool.Act engine number old new pool) : pool.Aligned := by
  cases h with
  | level hnone hlines => exact hact.aligned_of_level hold hnone hlines
  | looking other hother hothers hlines hsignals =>
      have hsame : other = number := by
        by_contra hne
        cases List.all_eq_true.1 hprompt _ (List.mem_eraseIdx_iff_getElem?.2 ⟨other, hne, hother⟩)
      subst hsame
      cases hother.symm.trans hold
      exact hact.aligned_of_looking hothers hlines

theorem aligned_of_sameLines {pool : Pool τ} (h : shop.pool.Aligned)
    (hprompt : (shop.pool.workers.all fun worker => !worker.isLooking) = true)
    (hsame : shop.pool.SameLines pool) : pool.Aligned := by
  cases h with
  | level hnone hlines => exact hsame.aligned hnone hlines
  | looking number hold => cases List.all_eq_true.1 hprompt _ (List.mem_of_getElem? hold)

theorem aligned_step (h : shop.pool.Aligned) (hprompt : shop.isPrompt move = true)
    (hstep : shop.step engine move = some later) : later.pool.Aligned := by
  cases step_of_move hstep with
  | call demand => exact aligned_of_sameLines h hprompt (Pool.sameLines_start shop.pool demand)
  | goOn caller demand activity pool progress hcall hdeed =>
      exact aligned_of_sameLines h hprompt hdeed.sameLines
  | work number old new pool world hold hact => exact aligned_work h hprompt hold hact
  | read => exact aligned_of_sameLines h hprompt ⟨rfl, rfl, fun _ => .inl⟩

theorem aligned_follow (moves : List (Move τ)) (h : shop.pool.Aligned)
    (hbrisk : isBrisk engine moves shop = true) : (follow engine moves shop).pool.Aligned := by
  induction moves generalizing shop with
  | nil => exact h
  | cons move moves ih =>
      rw [isBrisk, Bool.and_eq_true] at hbrisk
      refine ih ?_ hbrisk.2
      cases hstep : shop.step engine move with
      | none => exact h
      | some later => exact aligned_step h hbrisk.1 hstep

end Workshop

end ParcelDesk
