import ParcelDesk.Proofs.Pool.Steps

/-!
# The floor of a pool

What of a pool decides who runs which job: everything but the lines and the counts of those who wait
for each other. A step of a worker or of a call is one of a few steps on the floor, whatever the
lines are.
-/

namespace ParcelDesk

variable {τ σ : Type}

structure Floor (τ : Type) where
  size : UInt64
  workers : List (Worker τ)
  isOpen : Bool
  jobs : List (Job τ)
  signals : Nat
  canReport : Bool
  receiver : Receiver
  results : List Outcome

def Pool.floor (pool : Pool τ) : Floor τ where
  size := pool.size
  workers := pool.workers
  isOpen := pool.isOpen
  jobs := pool.jobs
  signals := pool.signals
  canReport := pool.canReport
  receiver := pool.receiver
  results := pool.results

namespace Worker

def isIdle : Worker τ → Bool
  | .atStop | .atQueue | .waiting | .counting true | .waking true => true
  | _ => false

def isShunned : Worker τ → Bool
  | .counting false | .waking false => true
  | _ => false

theorem isShunned_of_isIdle {worker : Worker τ} (h : worker.isIdle = true) :
    worker.isShunned = false := by
  cases worker with
  | counting sent | waking sent =>
      cases sent
      · cases h
      · rfl
  | atStop | atQueue | waiting | running | reporting | gone => rfl

end Worker

namespace Floor

def move (floor : Floor τ) (number : Nat) (worker : Worker τ) : Floor τ :=
  { floor with workers := floor.workers.set number worker }

/-- What a step of a worker does on the floor, and what is noted of it. -/
inductive Pace (engine : Engine τ σ) (number : Nat) (floor : Floor τ) :
    List (Entry τ) → Floor τ → Prop where
  | idle (old new : Worker τ) (hold : floor.workers[number]? = some old)
      (hidle : old.isIdle = true) (hnew : new.isIdle = true) :
      Pace engine number floor [] (floor.move number new)
  | stop (hold : floor.workers[number]? = some .atStop) (hsignals : 0 < floor.signals) :
      Pace engine number floor []
        { floor.move number .gone with signals := floor.signals - 1 }
  | leave (hold : floor.workers[number]? = some .atQueue) (hjobs : floor.jobs = [])
      (hclosed : floor.isOpen = false) :
      Pace engine number floor [] (floor.move number .gone)
  | take (job : Job τ) (rest : List (Job τ)) (hold : floor.workers[number]? = some .atQueue)
      (hjobs : floor.jobs = job :: rest) :
      Pace engine number floor [.took number job]
        { floor.move number (.running job) with jobs := rest }
  | goOn (job : Job τ) (body : τ) (hold : floor.workers[number]? = some (.running job))
      (hgoes : Engine.Goes engine job.body body) :
      Pace engine number floor [] (floor.move number (.running { job with body }))
  | finish (job : Job τ) (result : Except Error String)
      (hold : floor.workers[number]? = some (.running job))
      (hends : Engine.Ends engine job.body result) :
      Pace engine number floor [.ended number ⟨job.label, result⟩]
        (floor.move number (.reporting ⟨job.label, result⟩))
  | crash (job : Job τ) (hold : floor.workers[number]? = some (.running job)) :
      Pace engine number floor [.crashed number] (floor.move number .gone)
  | line (outcome : Outcome) (hold : floor.workers[number]? = some (.reporting outcome)) :
      Pace engine number floor [] floor
  | tell (outcome : Outcome) (hold : floor.workers[number]? = some (.reporting outcome)) :
      Pace engine number floor [.told number outcome]
        { floor.move number (.counting true) with results := floor.results ++ [outcome] }

end Floor

/-- Where a call stands that is under way. A job is put into the queue while that is open, and the
workers are waited for once nothing more can come. -/
inductive Demand.Stands (floor : Floor τ) : Demand τ → Activity τ → Prop where
  | submit (job : Job τ) : Stands floor (.submit job) (.submit job)
  | enqueue (job : Job τ) (hopen : floor.isOpen = true) :
      Stands floor (.submit job) (.enqueue job)
  | flush (stage : Flush) : Stands floor .flush (.flush stage)
  | report (outcome : Outcome) : Stands floor (.report outcome) (.report outcome)
  | deliver (outcome : Outcome) : Stands floor (.report outcome) (.deliver outcome)
  | resize (size : UInt64) : Stands floor (.resize size) (.resize size)
  | resizing (size : UInt64) (stage : Flush) : Stands floor (.resize size) (.resizing size stage)
  | wait : Stands floor .wait .wait
  | join (hclosed : floor.isOpen = false) (hshut : floor.canReport = false) :
      Stands floor .wait .join

def Demand.isQuiet : Demand τ → Except Error Unit → Bool
  | .submit _, .ok () | .report _, .ok () | .wait, _ => false
  | _, _ => true

structure Demand.Sizing (demand : Demand τ) : Prop where
  isExclusive : demand.isExclusive = true
  isQuiet (result : Except Error Unit) : demand.isQuiet result = true

namespace Floor

/-- What a step of a call does on the floor, and how far the call is then. -/
inductive Effect (floor : Floor τ) : Demand τ → Progress τ → Floor τ → Prop where
  | proceed (demand : Demand τ) (activity : Activity τ) (hstands : demand.Stands floor activity) :
      Effect floor demand (.going activity) floor
  | answer (demand : Demand τ) (result : Except Error Unit)
      (hquiet : demand.isQuiet result = true) : Effect floor demand (.over result) floor
  | enqueue (job : Job τ) (hopen : floor.isOpen = true) :
      Effect floor (.submit job) (.over (.ok ())) { floor with jobs := floor.jobs ++ [job] }
  | deliver (outcome : Outcome) :
      Effect floor (.report outcome) (.over (.ok ()))
        { floor with results := floor.results ++ [outcome] }
  | hire (demand : Demand τ) (hdemand : demand.Sizing) (count : UInt64)
      (hreport : floor.canReport = true) (hsize : Pool.Allowed (floor.size + count)) :
      Effect floor demand (.over (.ok ()))
        { floor with
          workers := floor.workers ++ List.replicate count.toNat .atStop
          size := floor.size + count }
  | release (demand : Demand τ) (hdemand : demand.Sizing) (count : UInt64)
      (hcount : count ≤ floor.size) (hsize : Pool.Allowed (floor.size - count)) :
      Effect floor demand (.over (.ok ()))
        { floor with signals := floor.signals + count.toNat, size := floor.size - count }
  | close : Effect floor .close (.over (.ok ())) { floor with isOpen := false }
  | shut : Effect floor .wait (.going .join) { floor with isOpen := false, canReport := false }
  | farewell (hdeserted : floor.workers.all Pool.isGone = true) (hclosed : floor.isOpen = false)
      (hshut : floor.canReport = false) :
      Effect floor .wait (.over (.ok ())) { floor with size := 0 }

variable {floor after : Floor τ} {demand : Demand τ} {progress : Progress τ}

theorem Effect.stands {activity : Activity τ} (h : floor.Effect demand (.going activity) after) :
    demand.Stands after activity := by
  cases h with
  | proceed _ _ hstands => exact hstands
  | shut => exact .join rfl rfl

theorem Effect.terms (h : floor.Effect demand progress after)
    (hshared : demand.isExclusive = false) :
    after.isOpen = floor.isOpen ∧ after.canReport = floor.canReport := by
  cases h with
  | close | shut => cases hshared
  | proceed | answer | enqueue | deliver | hire | release | farewell => exact ⟨rfl, rfl⟩

theorem Pace.terms {engine : Engine τ σ} {number : Nat} {entries : List (Entry τ)}
    (h : floor.Pace engine number entries after) :
    after.isOpen = floor.isOpen ∧ after.canReport = floor.canReport := by
  cases h <;> exact ⟨rfl, rfl⟩

def Heard (floor : Floor τ) : Prop :=
  ∀ worker ∈ floor.workers, worker.isShunned = false

theorem Heard.move (h : floor.Heard) (number : Nat) {new : Worker τ}
    (hnew : new.isShunned = false) : (floor.move number new).Heard := by
  intro worker hworker
  rcases List.mem_or_eq_of_mem_set hworker with hold | rfl
  · exact h worker hold
  · exact hnew

theorem Heard.pace {engine : Engine τ σ} {number : Nat} {entries : List (Entry τ)}
    (h : floor.Heard) (hpace : floor.Pace engine number entries after) : after.Heard := by
  cases hpace with
  | idle old new hold hidle hnew => exact h.move number (Worker.isShunned_of_isIdle hnew)
  | line => exact h
  | stop | leave | take | goOn | finish | crash | tell => exact h.move number rfl

theorem Heard.effect (h : floor.Heard) (heffect : floor.Effect demand progress after) :
    after.Heard := by
  cases heffect with
  | hire =>
      intro worker hworker
      rcases List.mem_append.1 hworker with hold | hnew
      · exact h worker hold
      · rw [List.eq_of_mem_replicate hnew]
        rfl
  | proceed | answer | enqueue | deliver | release | close | shut | farewell => exact h

end Floor

theorem Demand.Stands.keep {floor after : Floor τ} {demand : Demand τ} {activity : Activity τ}
    (h : demand.Stands floor activity)
    (hterms : after.isOpen = floor.isOpen ∧ after.canReport = floor.canReport) :
    demand.Stands after activity := by
  cases h with
  | submit job => exact .submit job
  | enqueue job hopen => exact .enqueue job (hterms.1.trans hopen)
  | flush stage => exact .flush stage
  | report outcome => exact .report outcome
  | deliver outcome => exact .deliver outcome
  | resize size => exact .resize size
  | resizing size stage => exact .resizing size stage
  | wait => exact .wait
  | join hclosed hshut => exact .join (hterms.1.trans hclosed) (hterms.2.trans hshut)

/-! ## Steps of workers -/

namespace Pool

variable {pool after : Pool τ} {number : Nat} {engine : Engine τ σ} {world later : σ}
  {old new : Worker τ}

theorem Act.pace (h : pool.Act engine number old new after)
    (hold : pool.workers[number]? = some old) (hreceiver : pool.receiver ≠ .dropped)
    (hwanted : old.isShunned = false) :
    pool.floor.Pace engine number (Entry.ofTurn number (some old) (some new)) after.floor := by
  cases h with
  | stop hhead hsignals => exact .stop hold hsignals
  | pass => exact .idle .atStop .atQueue hold rfl rfl
  | take job rest hjobs => exact .take job rest hold hjobs
  | await => exact .idle .atQueue .waiting hold rfl rfl
  | leave hjobs hclosed => exact .leave hold hjobs hclosed
  | rouse => exact .idle .waiting .atStop hold rfl rfl
  | goOn job body hgoes => exact .goOn job body hold hgoes
  | finish job result hends => exact .finish job result hold hends
  | crash job => exact .crash job hold
  | shrug outcome hdropped => exact absurd hdropped hreceiver
  | line outcome =>
      have hsame : pool.floor.move number (.reporting outcome) = pool.floor := by
        obtain ⟨hnumber, hplace⟩ := List.getElem?_eq_some_iff.1 hold
        rw [Floor.move, ← hplace]
        exact congrArg (fun workers => { pool.floor with workers }) (List.set_getElem_self hnumber)
      change pool.floor.Pace engine number [] (pool.floor.move number (.reporting outcome))
      rw [hsame]
      exact .line outcome hold
  | tell outcome => exact .tell outcome hold
  | last sent | count sent | wake sent =>
      cases sent with
      | false => cases hwanted
      | true => exact .idle _ _ hold rfl rfl

/-- A step of a worker keeps to its pace while the results are wanted. -/
theorem pace_workerStep (hreceiver : pool.receiver ≠ .dropped)
    (hwanted : ∀ worker ∈ pool.workers[number]?, worker.isShunned = false)
    (h : pool.workerStep engine number world = some (after, later)) :
    pool.floor.Pace engine number
      (Entry.ofTurn number pool.workers[number]? after.workers[number]?) after.floor := by
  obtain ⟨old, new, hold, hact⟩ := act_workerStep h
  rw [hold, hact.getElem?_self hold]
  exact hact.pace hold hreceiver (hwanted old hold)

/-! ## Steps of calls -/

variable {demand : Demand τ} {progress : Progress τ} {activity : Activity τ} {caller : Nat}

theorem effect_concluded {changed : Except Error (Pool τ)} (hdemand : demand.Sizing)
    (h : pool.Sized changed) :
    pool.floor.Effect demand (pool.concluded changed).2 (pool.concluded changed).1.floor := by
  cases h with
  | refuse | keep => exact .answer demand _ (hdemand.isQuiet _)
  | hire count hreport hsize => exact .hire demand hdemand count hreport hsize
  | release count hcount hsize => exact .release demand hdemand count hcount hsize

theorem effect_start (pool : Pool τ) (demand : Demand τ) :
    pool.floor.Effect demand (demand.start pool).2 (demand.start pool).1.floor := by
  cases demand with
  | submit job => exact .proceed _ _ (.submit job)
  | flush => exact .proceed _ _ (.flush .arming)
  | report outcome => exact .proceed _ _ (.report outcome)
  | add count => exact effect_concluded ⟨rfl, fun _ => rfl⟩ (sized_addWorkers pool count)
  | remove count => exact effect_concluded ⟨rfl, fun _ => rfl⟩ (sized_removeWorkers pool count)
  | resize size => exact .proceed _ _ (.resize size)
  | close => exact .close
  | wait => exact .proceed _ _ .wait

theorem Deed.effect {changed : Pool τ × Progress τ} (h : pool.Deed caller activity changed)
    (hstands : demand.Stands pool.floor activity) :
    pool.floor.Effect demand changed.2 changed.1.floor := by
  cases h with
  | refuse activity error hactivity =>
      cases hstands with
      | submit | resize | report => exact .answer _ _ rfl
      | enqueue | flush | deliver | resizing | wait | join => cases hactivity
  | submit job hopen =>
      cases hstands
      exact .proceed _ _ (.enqueue job hopen)
  | enqueue job =>
      cases hstands with
      | enqueue _ hopen => exact .enqueue job hopen
  | flush stage next =>
      cases hstands
      exact .proceed _ _ (.flush next)
  | flushed stage =>
      cases hstands
      exact .answer _ _ rfl
  | resize size =>
      cases hstands
      exact .proceed _ _ (.resizing size .arming)
  | resizing size stage next =>
      cases hstands
      exact .proceed _ _ (.resizing size next)
  | resized size stage =>
      cases hstands
      exact effect_concluded ⟨rfl, fun _ => rfl⟩ (sized_adjust pool size)
  | report outcome =>
      cases hstands
      exact .proceed _ _ (.deliver outcome)
  | deliver outcome =>
      cases hstands
      exact .deliver outcome
  | shrug outcome error =>
      cases hstands
      exact .answer _ _ rfl
  | wait =>
      cases hstands
      exact .shut
  | join hdeserted =>
      cases hstands with
      | join hclosed hshut => exact .farewell hdeserted hclosed hshut

theorem effect_activityStep (hstands : demand.Stands pool.floor activity)
    (h : pool.activityStep caller activity = some (after, progress)) :
    pool.floor.Effect demand progress after.floor :=
  (deed_activityStep h).effect hstands

end Pool

end ParcelDesk
