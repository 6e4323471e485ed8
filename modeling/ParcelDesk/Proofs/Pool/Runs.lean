import ParcelDesk.Proofs.Pool.Floor

/-!
# Runs of jobs

What is noted of one worker is one run of a job after the other: the job is taken, ends with a
result, and its outcome is told. The runs of all workers, in the order in which the jobs were taken,
are the runs of the jobs in the order in which they were queued.
-/

namespace ParcelDesk

variable {τ σ : Type}

structure Run (τ : Type) where
  worker : Nat
  job : Job τ
  result : Except Error String

namespace Run

def outcome (run : Run τ) : Outcome :=
  ⟨run.job.label, run.result⟩

def entries (run : Run τ) : List (Entry τ) :=
  [.took run.worker run.job, .ended run.worker run.outcome, .told run.worker run.outcome]

/-- A run of one worker with a result that the job may end with. -/
structure Genuine (engine : Engine τ σ) (number : Nat) (run : Run τ) : Prop where
  worker : run.worker = number
  returns : Engine.Returns engine run.job.body run.result

end Run

def Worker.isFree : Worker τ → Bool
  | .running _ | .reporting _ | .counting false | .waking false => false
  | _ => true

theorem Worker.isFree_of_isIdle {worker : Worker τ} (h : worker.isIdle = true) :
    worker.isFree = true := by
  cases worker with
  | running job | reporting outcome => cases h
  | atStop | atQueue | waiting | gone => rfl
  | counting sent | waking sent =>
      cases sent with
      | false => cases h
      | true => rfl

/-- What is noted of a worker that stands at a place: complete runs, and the run that is under
way. -/
inductive Logged (engine : Engine τ σ) (number : Nat) :
    List (Entry τ) → Option (Worker τ) → Prop where
  | free (runs : List (Run τ)) (hruns : ∀ run ∈ runs, run.Genuine engine number)
      (place : Option (Worker τ)) (hfree : ∀ worker ∈ place, worker.isFree = true) :
      Logged engine number (runs.flatMap Run.entries) place
  | running (runs : List (Run τ)) (hruns : ∀ run ∈ runs, run.Genuine engine number)
      (job : Job τ) (body : τ) (hbody : Relation.ReflTransGen (Engine.Goes engine) job.body body) :
      Logged engine number (runs.flatMap Run.entries ++ [.took number job])
        (some (.running ⟨job.label, body⟩))
  | reporting (runs : List (Run τ)) (hruns : ∀ run ∈ runs, run.Genuine engine number)
      (job : Job τ) (result : Except Error String)
      (hresult : Engine.Returns engine job.body result) :
      Logged engine number
        (runs.flatMap Run.entries ++ [.took number job, .ended number ⟨job.label, result⟩])
        (some (.reporting ⟨job.label, result⟩))

namespace Logged

variable {engine : Engine τ σ} {number : Nat} {log entries : List (Entry τ)}
  {floor after : Floor τ}

theorem not_shunned {place : Option (Worker τ)} (h : Logged engine number log place) :
    ∀ worker ∈ place, worker.isShunned = false := by
  intro worker hplace
  cases h with
  | free runs hruns place hfree =>
      have := hfree worker hplace
      cases worker with
      | counting sent | waking sent =>
          cases sent with
          | false => cases this
          | true => rfl
      | atStop | atQueue | waiting | running job | reporting outcome | gone => rfl
  | running runs hruns job body hbody =>
      cases hplace
      rfl
  | reporting runs hruns job result hresult =>
      cases hplace
      rfl

theorem runs_of_free {place : Option (Worker τ)} (h : Logged engine number log place)
    (hfree : ∀ worker ∈ place, worker.isFree = true) :
    ∃ runs : List (Run τ), (∀ run ∈ runs, run.Genuine engine number) ∧
      log = runs.flatMap Run.entries := by
  cases h with
  | free runs hruns place hfree => exact ⟨runs, hruns, rfl⟩
  | running runs hruns job body hbody => cases hfree _ rfl
  | reporting runs hruns job result hresult => cases hfree _ rfl

theorem move {old new : Worker τ} (h : Logged engine number log (some old))
    (hold : old.isFree = true) (hnew : new.isFree = true) :
    Logged engine number log (some new) := by
  obtain ⟨runs, hruns, rfl⟩ := h.runs_of_free fun worker hworker => by cases hworker; exact hold
  exact .free runs hruns _ fun worker hworker => by cases hworker; exact hnew

theorem take {job : Job τ} (h : Logged engine number log (some .atQueue)) :
    Logged engine number (log ++ [.took number job]) (some (.running job)) := by
  obtain ⟨runs, hruns, rfl⟩ := h.runs_of_free fun worker hworker => by cases hworker; rfl
  exact .running runs hruns job job.body .refl

theorem goOn {job : Job τ} {body : τ} (h : Logged engine number log (some (.running job)))
    (hgoes : Engine.Goes engine job.body body) :
    Logged engine number log (some (.running { job with body })) := by
  cases h with
  | free runs hruns place hfree => cases hfree _ rfl
  | running runs hruns job _ hbody => exact .running runs hruns job body (hbody.tail hgoes)

theorem finish {job : Job τ} {result : Except Error String}
    (h : Logged engine number log (some (.running job)))
    (hends : Engine.Ends engine job.body result) :
    Logged engine number (log ++ [.ended number ⟨job.label, result⟩])
      (some (.reporting ⟨job.label, result⟩)) := by
  cases h with
  | free runs hruns place hfree => cases hfree _ rfl
  | running runs hruns job body hbody =>
      rw [List.append_assoc]
      exact .reporting runs hruns job result ⟨body, hbody, hends⟩

theorem tell {outcome : Outcome} (h : Logged engine number log (some (.reporting outcome))) :
    Logged engine number (log ++ [.told number outcome]) (some (.counting true)) := by
  cases h with
  | free runs hruns place hfree => cases hfree _ rfl
  | reporting runs hruns job result hresult =>
      have hlog : runs.flatMap Run.entries ++
            [.took number job, .ended number ⟨job.label, result⟩] ++
            [.told number ⟨job.label, result⟩] =
          (runs ++ [(⟨number, job, result⟩ : Run τ)]).flatMap Run.entries := by
        rw [List.flatMap_append, List.append_assoc]
        rfl
      rw [hlog]
      refine .free _ ?_ _ fun worker hworker => by cases hworker; rfl
      intro run hrun
      rcases List.mem_append.1 hrun with hrun | hrun
      · exact hruns run hrun
      · rw [List.mem_singleton.1 hrun]
        exact ⟨rfl, hresult⟩

theorem pace (h : Logged engine number log floor.workers[number]?)
    (hpace : floor.Pace engine number entries after)
    (hcrash : ∀ entry ∈ entries, entry.isCrash = false) :
    Logged engine number (log ++ entries) after.workers[number]? := by
  have hmoved {old new : Worker τ} {later : List (Entry τ)}
      (hold : floor.workers[number]? = some old)
      (hlogged : Logged engine number log (some old) → Logged engine number later (some new)) :
      Logged engine number later (floor.workers.set number new)[number]? := by
    rw [List.getElem?_set_self', hold]
    exact hlogged (hold ▸ h)
  cases hpace with
  | idle old new hold hidle hnew =>
      rw [List.append_nil]
      exact hmoved hold
        (move · (Worker.isFree_of_isIdle hidle) (Worker.isFree_of_isIdle hnew))
  | stop hold hsignals =>
      rw [List.append_nil]
      exact hmoved hold (move · rfl rfl)
  | leave hold hjobs hclosed =>
      rw [List.append_nil]
      exact hmoved hold (move · rfl rfl)
  | take job rest hold hjobs => exact hmoved hold take
  | goOn job body hold hgoes =>
      rw [List.append_nil]
      exact hmoved hold (goOn · hgoes)
  | finish job result hold hends => exact hmoved hold (finish · hends)
  | crash job hold => cases hcrash _ (List.mem_singleton_self _)
  | line outcome hold =>
      rw [List.append_nil]
      exact h
  | tell outcome hold => exact hmoved hold tell

theorem hire {workers : List (Worker τ)} (h : Logged engine number log workers[number]?)
    (count : Nat) :
    Logged engine number log (workers ++ List.replicate count .atStop)[number]? := by
  cases hplace : workers[number]? with
  | some worker =>
      have hlength := (List.getElem?_eq_some_iff.1 hplace).1
      rw [List.getElem?_append_left hlength]
      exact h
  | none =>
      rw [hplace] at h
      obtain ⟨runs, hruns, rfl⟩ := h.runs_of_free fun worker hworker => by cases hworker
      rw [List.getElem?_append_right (List.getElem?_eq_none_iff.1 hplace)]
      refine .free runs hruns _ fun worker hworker => ?_
      rw [List.eq_of_mem_replicate (List.mem_of_getElem? hworker)]
      rfl

end Logged

/-! ## Workers together -/

def ofNumber (number : Nat) (pairs : List (Nat × α)) : List (Nat × α) :=
  pairs.filter (·.1 == number)

theorem ofNumber_cons_self (number : Nat) (value : α) (pairs : List (Nat × α)) :
    ofNumber number ((number, value) :: pairs) = (number, value) :: ofNumber number pairs :=
  List.filter_cons_of_pos (beq_self_eq_true number)

theorem ofNumber_cons_of_ne {number other : Nat} (h : number ≠ other) (value : α)
    (pairs : List (Nat × α)) :
    ofNumber number ((other, value) :: pairs) = ofNumber number pairs :=
  List.filter_cons_of_neg fun hother => h (eq_of_beq hother).symm

theorem perm_of_ofNumber {first second : List (Nat × α)}
    (h : ∀ number, ofNumber number first = ofNumber number second) : first.Perm second := by
  classical
  refine List.perm_iff_count.2 fun (number, value) => ?_
  have hcount (pairs : List (Nat × α)) :
      (ofNumber number pairs).count (number, value) = pairs.count (number, value) :=
    List.count_filter (beq_self_eq_true number)
  rw [← hcount first, ← hcount second, h]

theorem ofNumber_filterMap {tells : Entry τ → Option (Nat × α)}
    (htells : ∀ entry worker value, tells entry = some (worker, value) →
      ∀ number, entry.isBy number = (worker == number))
    (log : List (Entry τ)) (number : Nat) :
    ofNumber number (log.filterMap tells) =
      (log.filter (Entry.isBy number)).filterMap tells := by
  rw [ofNumber, List.filter_filterMap, List.filterMap_filter]
  congr 1
  funext entry
  cases hentry : tells entry with
  | none => cases entry.isBy number <;> rfl
  | some pair =>
      rw [htells entry pair.1 pair.2 hentry number]
      cases hnumber : pair.1 == number with
      | false => simp only [Option.filter, hnumber, Bool.false_eq_true, if_false]
      | true => simp only [Option.filter, hnumber, if_true]

theorem Entry.eq_of_isBy {entry : Entry τ} {first second : Nat} (hfirst : entry.isBy first = true)
    (hsecond : entry.isBy second = true) : first = second := by
  cases entry with
  | returned _ _ => cases hfirst
  | took _ _ | ended _ _ | told _ _ | crashed _ =>
      exact (eq_of_beq hfirst).symm.trans (eq_of_beq hsecond)

theorem Entry.isBy_of_isFarewell {entry : Entry τ} (h : entry.isFarewell = true) (number : Nat) :
    entry.isBy number = false := by
  cases entry with
  | returned _ _ => rfl
  | took _ _ | ended _ _ | told _ _ | crashed _ => cases h

theorem Entry.isBy_of_taken? {entry : Entry τ} {worker : Nat} {job : Job τ}
    (h : entry.taken? = some (worker, job)) (number : Nat) :
    entry.isBy number = (worker == number) := by
  cases entry with
  | took other _ => cases h; rfl
  | returned _ _ | ended _ _ | told _ _ | crashed _ => cases h

theorem Entry.isBy_of_told? {entry : Entry τ} {worker : Nat} {outcome : Outcome}
    (h : entry.told? = some (worker, outcome)) (number : Nat) :
    entry.isBy number = (worker == number) := by
  cases entry with
  | told other _ => cases h; rfl
  | returned _ _ | took _ _ | ended _ _ | crashed _ => cases h

/-- Lists of pairs, one for each number, are put together in the order of their keys. -/
theorem exists_runs (takings : List (Nat × Job τ)) (done : Nat → List (Run τ))
    (hdone : ∀ number,
      (done number).map (fun run => (run.worker, run.job)) = ofNumber number takings) :
    ∃ runs : List (Run τ), runs.map (fun run => (run.worker, run.job)) = takings ∧
      ∀ number, runs.filter (·.worker == number) = done number := by
  induction takings generalizing done with
  | nil =>
      refine ⟨[], rfl, fun number => ?_⟩
      exact (List.map_eq_nil_iff.1 (hdone number)).symm
  | cons taking takings ih =>
      obtain ⟨worker, job⟩ := taking
      -- The first job taken is that of the first run of its worker.
      have hhead := hdone worker
      rw [ofNumber_cons_self] at hhead
      obtain ⟨run, rest, hfirst, hrun, hrest⟩ := List.map_eq_cons_iff.1 hhead
      have hworker : run.worker = worker := congrArg Prod.fst hrun
      obtain ⟨runs, hruns, hfilter⟩ := ih (Function.update done worker rest) fun number => by
        by_cases hnumber : number = worker
        · rw [hnumber, Function.update_self]
          exact hrest
        · rw [Function.update_of_ne hnumber, hdone, ofNumber_cons_of_ne hnumber]
      refine ⟨run :: runs, ?_, fun number => ?_⟩
      · rw [List.map_cons, hruns, hrun]
      · by_cases hnumber : number = worker
        · rw [List.filter_cons_of_pos (by rw [hworker, hnumber, beq_self_eq_true]), hfilter,
            hnumber, Function.update_self, hfirst]
        · rw [List.filter_cons_of_neg (by rw [hworker, beq_iff_eq]; exact Ne.symm hnumber),
            hfilter, Function.update_of_ne hnumber]

theorem filterMap_taken?_entries (runs : List (Run τ)) :
    (runs.flatMap Run.entries).filterMap Entry.taken? =
      runs.map fun run => (run.worker, run.job) := by
  induction runs with
  | nil => rfl
  | cons run runs ih =>
      rw [List.flatMap_cons, List.filterMap_append, ih]
      rfl

theorem filterMap_told?_entries (runs : List (Run τ)) :
    (runs.flatMap Run.entries).filterMap Entry.told? =
      runs.map fun run => (run.worker, run.outcome) := by
  induction runs with
  | nil => rfl
  | cons run runs ih =>
      rw [List.flatMap_cons, List.filterMap_append, ih]
      rfl

/-- The workers of a log have done these runs and nothing else. -/
structure Explains (engine : Engine τ σ) (runs : List (Run τ)) (log : List (Entry τ)) : Prop where
  returns : ∀ run ∈ runs, Engine.Returns engine run.job.body run.result
  taken : runs.map (fun run => (run.worker, run.job)) = log.filterMap Entry.taken?
  told : (log.filterMap Entry.told?).Perm (runs.map fun run => (run.worker, run.outcome))
  entries : ∀ number, log.filter (Entry.isBy number) =
    (runs.filter (·.worker == number)).flatMap Run.entries

/-- A log in which no worker has a job left is explained by runs. -/
theorem exists_explains {engine : Engine τ σ} {log : List (Entry τ)}
    (h : ∀ number, ∃ runs : List (Run τ), (∀ run ∈ runs, run.Genuine engine number) ∧
      log.filter (Entry.isBy number) = runs.flatMap Run.entries) :
    ∃ runs : List (Run τ), Explains engine runs log := by
  choose done hgenuine hentries using h
  have hdone (number : Nat) : (done number).map (fun run => (run.worker, run.job)) =
      ofNumber number (log.filterMap Entry.taken?) := by
    rw [ofNumber_filterMap fun _ _ _ => Entry.isBy_of_taken?, hentries, filterMap_taken?_entries]
  obtain ⟨runs, htaken, hfilter⟩ := exists_runs _ done hdone
  refine ⟨runs, ⟨fun run hrun => ?_, htaken, perm_of_ofNumber fun number => ?_, fun number => ?_⟩⟩
  · have hmine : run ∈ done run.worker := by
      rw [← hfilter, List.mem_filter]
      exact ⟨hrun, beq_self_eq_true _⟩
    exact (hgenuine _ run hmine).returns
  · rw [ofNumber_filterMap fun _ _ _ => Entry.isBy_of_told?, hentries, filterMap_told?_entries,
      ← hfilter, ofNumber, List.filter_map]
    rfl
  · rw [hentries, hfilter]

end ParcelDesk
