import ParcelDesk.Proofs.Session.Solo

/-!
# One worker, one order

What the clerk and the reader do in a session with one worker, and what comes of all schedules:
there is an end to the steps, and the outcomes are those of the commands run in turn.
-/

namespace ParcelDesk

variable {σ : Type} {serve : Server σ} {time : Instant}

/-- Where the worker stands is left alone by those who change neither its line for jobs nor that for
room among the results. One that has left has left for good. -/
theorem Worker.Posture.keep {worker : Worker (Call String)} {pool after : Pool (Call String)}
    (h : worker.Posture pool) (hline : after.resultLine = pool.resultLine)
    (hqueue : after.queueLine = pool.queueLine)
    (hclosed : pool.isOpen = false → after.isOpen = false ∧ after.jobs = pool.jobs) :
    worker.Posture after := by
  cases h with
  | atStop hnone => exact .atStop (hline.trans hnone)
  | atQueue hnone => exact .atQueue (hline.trans hnone)
  | waiting hnone hfirst => exact .waiting (hline.trans hnone) (hqueue.trans hfirst)
  | running job hnone => exact .running job (hline.trans hnone)
  | coming outcome hnone => exact .coming outcome (hline.trans hnone)
  | inLine outcome hfirst => exact .inLine outcome (hline.trans hfirst)
  | counting hnone => exact .counting (hline.trans hnone)
  | waking hnone => exact .waking (hline.trans hnone)
  | gone hnone hshut hjobs =>
      exact .gone (hline.trans hnone) (hclosed hshut).1 ((hclosed hshut).2.trans hjobs)

structure Pool.Spared (pool after : Pool (Call String)) : Prop where
  workers : after.workers = pool.workers
  capacity : after.capacity = pool.capacity
  signals : after.signals = pool.signals
  receiver : after.receiver = pool.receiver
  queueLine : after.queueLine = pool.queueLine
  resultLine : after.resultLine = pool.resultLine
  results : after.results = pool.results
  closed : pool.isOpen = false → after.isOpen = false ∧ after.jobs = pool.jobs

/-- A job that is queued, or a pool that is closed, makes a worker that waits take three steps. -/
theorem Pool.Spared.effort_le {pool after : Pool (Call String)} (h : pool.Spared after)
    (worker : Worker (Call String)) : worker.effort after ≤ worker.effort pool + 3 := by
  cases worker with
  | waiting => exact (Worker.effort_waiting_le after).trans (Nat.le_add_left _ _)
  | reporting outcome =>
      rw [Worker.effort, Worker.effort, h.resultLine]
      exact Nat.le_add_right _ _
  | _ => exact Nat.le_add_right _ _

namespace Session

variable {session later : Session σ} {worker : Worker (Call String)} {rest left : List Command}
  {lines : List Outcome} {final : σ} {pool : Pool (Call String)} {clerk : Clerk}
  {agenda : List Instruction} {command : Command}

/-! ## Steps of the reader and of the clerk -/

theorem Solo.readerStep (h : Solo serve time lines final session worker rest)
    (hstep : session.readerStep = some later) :
    Underway serve time lines final later (session.rank serve time worker rest) := by
  obtain ⟨⟨outcome, pool⟩, hread, rfl⟩ := Option.map_eq_some_iff.1 hstep
  rw [Pool.read?] at hread
  split at hread
  next outcome' results hreceiver hresults =>
    cases hread
    have hrow : row { session with
        outcomes := session.outcomes ++ [outcome]
        pool := { session.pool with results } } worker rest = session.row worker rest := by
      rw [row, row, stream, stream, hresults, List.append_assoc]
      rfl
    have heffort : worker.effort { session.pool with results } = worker.effort session.pool := by
      cases worker <;> rfl
    refine ⟨worker, rest, ⟨h.agenda, h.workers, h.roomy, h.signals, h.receiver, h.queueLine,
      h.posture.keep rfl rfl fun hclosed => ⟨hclosed, rfl⟩, ?_, ?_⟩, ?_⟩
    · exact h.hands.keep ⟨rfl, rfl, rfl, rfl, rfl⟩ id
    · rw [hrow]
      exact h.comes
    · rw [rank, rank, hrow, heffort, hresults, List.length_cons]
      exact Nat.lt_succ_self _
  next => cases hread

theorem Solo.proceed (h : Solo serve time lines final session worker rest)
    (hspared : session.pool.Spared pool) (hagenda : agenda = left.map .run)
    (hhands : clerk.Hands pool left)
    (hrow : pool.jobs ++ (clerk.carries ++ left.map Command.job) =
      session.pool.jobs ++ (session.clerk.carries ++ rest.map Command.job))
    (hrank : 21 * left.length + clerk.effort + 9 * pool.jobs.length + 3 <
      21 * rest.length + session.clerk.effort + 9 * session.pool.jobs.length) :
    Underway serve time lines final { session with agenda, clerk, pool }
      (session.rank serve time worker rest) := by
  have hsame : row { session with agenda, clerk, pool } worker left = session.row worker rest := by
    rw [row, row, stream, stream, hspared.results]
    dsimp only
    rw [hrow]
  refine ⟨worker, left, ⟨hagenda, hspared.workers.trans h.workers, ?_,
    hspared.signals.trans h.signals, hspared.receiver.trans h.receiver, ?_,
    h.posture.keep hspared.resultLine hspared.queueLine hspared.closed, hhands, ?_⟩, ?_⟩
  · rw [hspared.capacity]
    exact h.roomy
  · rw [hspared.queueLine]
    exact h.queueLine
  · rw [hsame]
    exact h.comes
  · have heffort := hspared.effort_le worker
    rw [rank, rank, hsame, hspared.results]
    dsimp only
    omega

theorem Solo.ready (h : Solo serve time lines final session worker rest)
    (hclerk : session.clerk = .ready) (hopen : session.pool.isOpen = true)
    (hline : session.pool.jobLine = []) (hstep : session.clerkStep = some later) :
    Underway serve time lines final later (session.rank serve time worker rest) := by
  rw [Session.clerkStep, hclerk, h.agenda] at hstep
  cases rest with
  | nil =>
      cases hstep
      refine h.proceed ⟨rfl, rfl, rfl, rfl, rfl, rfl, rfl, (⟨·, rfl⟩)⟩ rfl .wait ?_ ?_
      · rw [hclerk]
        rfl
      · rw [hclerk]
        simp only [Clerk.effort]
        omega
  | cons command rest =>
      cases hstep
      refine h.proceed ⟨rfl, rfl, rfl, rfl, rfl, rfl, rfl, (⟨·, rfl⟩)⟩ rfl
        (.submit rest command hopen hline) ?_ ?_
      · rw [hclerk]
        rfl
      · rw [hclerk]
        simp only [Clerk.takeUp, Clerk.effort, List.length_cons]
        omega

/-- The command counts as pending from here on, though its job is not queued yet. -/
theorem Solo.submit (h : Solo serve time lines final session worker rest)
    (hclerk : session.clerk = .calling .submitting (.submit command.job))
    (hopen : session.pool.isOpen = true) (hline : session.pool.jobLine = []) (pending : Nat) :
    Underway serve time lines final
      { session with
        clerk := .calling .submitting (.enqueue command.job)
        pool := { session.pool with pending, jobLine := session.pool.jobLine ++ [0] } }
      (session.rank serve time worker rest) := by
  refine h.proceed ⟨rfl, rfl, rfl, rfl, rfl, rfl, rfl, (⟨·, rfl⟩)⟩ h.agenda
    (.enqueue rest command hopen ?_) ?_ ?_
  · rw [hline]
    rfl
  · rw [hclerk]
    rfl
  · rw [hclerk]
    simp only [Clerk.effort]
    omega

theorem Solo.enqueue (h : Solo serve time lines final session worker rest)
    (hclerk : session.clerk = .calling .submitting (.enqueue command.job))
    (hopen : session.pool.isOpen = true) (hline : session.pool.jobLine = [0]) :
    Underway serve time lines final
      { session with
        clerk := .ready
        pool := { session.pool with
          jobs := session.pool.jobs ++ [command.job]
          jobLine := session.pool.jobLine.erase 0 } }
      (session.rank serve time worker rest) := by
  refine h.proceed ⟨rfl, rfl, rfl, rfl, rfl, rfl, rfl, fun hclosed => ?_⟩ h.agenda
    (.ready rest hopen ?_) ?_ ?_
  · rw [hopen] at hclosed
    cases hclosed
  · rw [hline]
    rfl
  · rw [hclerk, List.append_assoc]
    rfl
  · rw [hclerk]
    simp only [Clerk.effort, List.length_append, List.length_singleton]
    omega

theorem Solo.close (h : Solo serve time lines final session worker [])
    (hclerk : session.clerk = .calling .leaving .wait) :
    Underway serve time lines final
      { session with
        clerk := .calling .leaving .join
        pool := { session.pool.close with canReport := false } }
      (session.rank serve time worker []) := by
  refine h.proceed ⟨rfl, rfl, rfl, rfl, rfl, rfl, rfl, fun _ => ⟨rfl, rfl⟩⟩ h.agenda
    (.join rfl) ?_ ?_
  · rw [hclerk]
    rfl
  · rw [hclerk]
    simp only [Clerk.effort, Pool.close]
    omega

theorem Solo.leave (h : Solo serve time lines final session worker [])
    (hclerk : session.clerk = .calling .leaving .join)
    (hdeserted : session.pool.isDeserted = true) :
    Underway serve time lines final
      { session with clerk := .gone (.ok ()), pool := { session.pool with size := 0 } }
      (session.rank serve time worker []) := by
  have hgone : worker = .gone := by
    rw [Pool.isDeserted, h.workers] at hdeserted
    cases worker <;> simp_all [Pool.isGone]
  refine h.proceed ⟨rfl, rfl, rfl, rfl, rfl, rfl, rfl, (⟨·, rfl⟩)⟩ h.agenda (.gone ?_) ?_ ?_
  · rw [h.workers, hgone]
  · rw [hclerk]
    rfl
  · rw [hclerk]
    simp only [Clerk.effort]
    omega

theorem Solo.clerkStep (h : Solo serve time lines final session worker rest)
    (hstep : session.clerkStep = some later) :
    Underway serve time lines final later (session.rank serve time worker rest) := by
  have hhands := h.hands
  have hstepped := hstep
  generalize hclerk : session.clerk = clerk at hhands
  rw [Session.clerkStep, hclerk] at hstep
  cases hhands with
  | ready rest hopen hline => exact h.ready hclerk hopen hline hstepped
  | submit rest command hopen hline =>
      simp only [Pool.activityStep, if_pos hopen, Option.map_some] at hstep
      cases hstep
      exact h.submit hclerk hopen hline _
  | enqueue rest command hopen hline =>
      simp only [Pool.activityStep] at hstep
      split at hstep
      next hserved =>
        cases hstep
        exact h.enqueue hclerk hopen hline
      next => cases hstep
  | wait =>
      cases hstep
      exact h.close hclerk
  | join hclosed =>
      simp only [Pool.activityStep] at hstep
      split at hstep
      next hdeserted =>
        cases hstep
        exact h.leave hclerk hdeserted
      next => cases hstep
  | gone hworkers => cases hstep

theorem Solo.step {actor : Actor} (h : Solo serve time lines final session worker rest)
    (hstep : session.step serve time actor = some later) :
    Underway serve time lines final later (session.rank serve time worker rest) := by
  cases actor with
  | worker number =>
      obtain ⟨⟨pool, office⟩, hworker, rfl⟩ := Option.map_eq_some_iff.1 hstep
      exact h.workerStep hworker
  | reader => exact h.readerStep hstep
  | clerk => exact h.clerkStep hstep

/-! ## Schedules -/

/-- The number of those moves that are steps; in the others someone lets the turn pass. -/
def turns (serve : Server σ) : List (Actor × Instant) → Session σ → Nat
  | [], _ => 0
  | (actor, time) :: moves, session =>
      match session.step serve time actor with
      | some later => turns serve moves later + 1
      | none => turns serve moves session

/-- Along any schedule the row comes to the same, and the bound is not passed. -/
theorem Underway.follow {bound : Nat} (actors : List Actor)
    (h : Underway serve time lines final session bound) :
    ∃ left, session.turns serve (actors.map (·, time)) + left ≤ bound ∧
      Underway serve time lines final (session.follow serve (actors.map (·, time))) left := by
  induction actors generalizing session bound with
  | nil => exact ⟨bound, (Nat.zero_add bound).le, h⟩
  | cons actor actors ih =>
      rw [List.map_cons, turns, Session.follow]
      cases hstep : session.step serve time actor with
      | none => exact ih h
      | some later =>
          obtain ⟨worker, rest, hsolo, hrank⟩ := h
          obtain ⟨left, hleft, hlater⟩ := ih (hsolo.step hstep)
          exact ⟨left, by simp only; omega, hlater⟩

/-- The outcomes on the stream are the first of the lines. -/
theorem Solo.stream_prefix (h : Solo serve time lines final session worker rest) :
    session.stream.map Outcome.told <+: lines.map Outcome.told := by
  have hcomes := h.comes
  rw [row, Job.inTurn_done] at hcomes
  exact ⟨_, (Prod.mk.inj hcomes).1⟩

theorem Solo.over (h : Solo serve time lines final session worker rest)
    {result : Except Error Unit} (hclerk : session.clerk = .gone result) :
    result = .ok () ∧ session.stream.map Outcome.told = lines.map Outcome.told ∧
      session.office.stores = final := by
  have hhands := h.hands
  rw [hclerk] at hhands
  cases hhands with
  | gone hworkers =>
      obtain rfl : worker = .gone := List.singleton_inj.1 (h.workers.symm.trans hworkers)
      have hjobs : session.pool.jobs = [] := by
        cases h.posture with
        | gone hline hclosed hjobs => exact hjobs
      have hcomes := h.comes
      rw [row, hclerk, hjobs, Job.inTurn_done] at hcomes
      obtain ⟨htold, hfinal⟩ := Prod.mk.inj hcomes
      refine ⟨rfl, ?_, hfinal⟩
      simpa [Worker.inHand, Clerk.carries, Job.inTurn] using htold

theorem Solo.worker_of_stuck (h : Solo serve time lines final session worker rest)
    (hresults : session.pool.results = [])
    (hstuck : session.pool.workerStep (Call.stride serve time) 0 session.office = none) :
    session.pool.jobs = [] ∧
      (worker = .waiting ∧ session.pool.isOpen = true ∨ worker = .gone) := by
  have hplace : session.pool.workers[0]? = some worker := by rw [h.workers]; rfl
  have hreceiver : session.pool.receiver ≠ .dropped := by rw [h.receiver]; decide
  rw [Pool.workerStep, hplace] at hstuck
  cases h.posture with
  | atStop hline => cases hstuck
  | atQueue hline => cases hstuck
  | waiting hline hqueue =>
      simp only at hstuck
      split at hstuck
      next => cases hstuck
      next hidle =>
        simp only [Pool.isRoused, hqueue] at hidle
        cases hjobs : session.pool.jobs <;> cases hopen : session.pool.isOpen <;> simp_all
  | running job hline =>
      obtain ⟨went, after, hstride, -⟩ := Call.exists_strode serve time job.body session.office
      simp only [hstride] at hstuck
      split at hstuck <;> simp_all
  | coming outcome hline =>
      simp only [Pool.report, if_neg hreceiver, hline] at hstuck
      cases hstuck
  | inLine outcome hline =>
      have hroom : 0 < session.pool.resultRoom := by
        rw [Pool.resultRoom, hresults]
        exact h.roomy
      simp only [Pool.report, if_neg hreceiver, hline, List.mem_singleton, not_true_eq_false,
        if_false, Pool.isServed_head _ hroom, if_true] at hstuck
      cases hstuck
  | counting hline => cases hstuck
  | waking hline => cases hstuck
  | gone hline hclosed hjobs => exact ⟨hjobs, .inr rfl⟩

/-- Where nobody can take a step the clerk has left. -/
theorem Solo.over_of_stuck (h : Solo serve time lines final session worker rest)
    (hstuck : ∀ actor, session.step serve time actor = none) :
    session.clerk = .gone (.ok ()) ∧ session.pool.results = [] := by
  have hresults : session.pool.results = [] := by
    have hread := Option.map_eq_none_iff.1 (hstuck .reader)
    rw [Pool.read?, h.receiver] at hread
    cases hresults : session.pool.results with
    | nil => rfl
    | cons outcome results =>
        rw [hresults] at hread
        cases hread
  obtain ⟨hjobs, hworker⟩ := h.worker_of_stuck hresults
    (Option.map_eq_none_iff.1 (hstuck (.worker 0)))
  refine ⟨?_, hresults⟩
  have hhands := h.hands
  have hclerkStuck : session.clerkStep = none := hstuck .clerk
  generalize hclerk : session.clerk = clerk at hhands
  rw [Session.clerkStep, hclerk] at hclerkStuck
  cases hhands with
  | ready rest hopen hline =>
      rw [h.agenda] at hclerkStuck
      cases rest <;> cases hclerkStuck
  | submit rest command hopen hline =>
      simp only [Pool.activityStep, if_pos hopen] at hclerkStuck
      cases hclerkStuck
  | enqueue rest command hopen hline =>
      have hroom : 0 < session.pool.jobRoom := by
        rw [Pool.jobRoom, hjobs]
        exact h.roomy
      simp only [Pool.activityStep, hline, Pool.isServed_head _ hroom, if_true] at hclerkStuck
      cases hclerkStuck
  | wait => cases hclerkStuck
  | join hclosed =>
      have hgone : worker = .gone := by
        rcases hworker with ⟨-, hopen⟩ | hgone
        · rw [hclosed] at hopen
          cases hopen
        · exact hgone
      have hdeserted : session.pool.isDeserted = true := by
        rw [Pool.isDeserted, h.workers, hgone]
        rfl
      simp only [Pool.activityStep, if_pos hdeserted] at hclerkStuck
      cases hclerkStuck
  | gone hworkers => rfl

theorem solo_of_make (capacity : Nat) (stores : σ) (commands : List Command)
    (hcomes : Job.inTurn serve time (commands.map Command.job) stores =
      (lines.map Outcome.told, final)) :
    ∃ start, solo capacity stores commands = .ok start ∧
      Solo serve time lines final start .atStop commands := by
  refine ⟨_, rfl, rfl, rfl, ?_, rfl, rfl, .inl rfl, .atStop rfl, .ready _ rfl rfl, hcomes⟩
  exact lt_max_of_lt_right Nat.one_pos

/-- Where no command crashes, the replies of commands run in turn are told by outcomes. -/
theorem exists_lines {replies : List (Reply String)}
    (hcalm : ∀ reply ∈ replies, ∀ cause, reply ≠ .error (.crash cause)) (labels : List String) :
    ∃ lines : List Outcome, lines.map Outcome.told = labels.zip replies := by
  induction replies generalizing labels with
  | nil => exact ⟨[], (List.zip_nil_right).symm⟩
  | cons reply replies ih =>
      cases labels with
      | nil => exact ⟨[], rfl⟩
      | cons label labels =>
          obtain ⟨lines, hlines⟩ := ih (fun reply hmem => hcalm reply (.tail _ hmem)) labels
          obtain ⟨result, rfl⟩ : ∃ result, reply = Reply.ofExcept result := by
            match reply, hcalm reply (.head _) with
            | .ok text, _ => exact ⟨.ok text, rfl⟩
            | .error (.error error), _ => exact ⟨.error error, rfl⟩
            | .error (.crash cause), hcrash => exact absurd rfl (hcrash cause)
          exact ⟨⟨label, result⟩ :: lines, congrArg _ hlines⟩

/-- One worker keeps to the order of the commands. Whatever the capacity of the queues, if no
command crashes: at any point of any schedule of clerk, worker and reader the outcomes so far are
the first of those that the commands have when they are run in turn; only so many steps can be
taken; once the clerk has left all outcomes are there, and the stock is the one that the commands in
turn leave; and where nobody can take a step the clerk has left and all outcomes are read. -/
theorem sole_worker_in_turn (capacity : Nat) (stock : Stock) (commands : List Command)
    (time : Instant)
    (hcalm : ∀ reply ∈ (Command.inTurn time commands stock).1,
      ∀ cause, reply ≠ .error (.crash cause)) :
    ∃ start bound, solo capacity stock commands = .ok start ∧ ∀ actors : List Actor,
      let now := start.follow Stock.serve (actors.map (·, time))
      let told := (commands.map Command.label).zip (Command.inTurn time commands stock).1
      let final := (Command.inTurn time commands stock).2
      now.stream.map Outcome.told <+: told ∧
        start.turns Stock.serve (actors.map (·, time)) < bound ∧
        (∀ result, now.clerk = .gone result →
          result = .ok () ∧ now.stream.map Outcome.told = told ∧ now.office.stores = final) ∧
        ((∀ actor, now.step Stock.serve time actor = none) →
          now.clerk = .gone (.ok ()) ∧ now.outcomes.map Outcome.told = told ∧
            now.office.stores = final) := by
  obtain ⟨lines, hlines⟩ := exists_lines hcalm (commands.map Command.label)
  have hcomes := Job.inTurn_commands time commands stock
  rw [← hlines] at hcomes
  obtain ⟨start, hstart, hsolo⟩ := solo_of_make capacity stock commands hcomes
  refine ⟨start, start.rank Stock.serve time .atStop commands + 1, hstart, fun actors => ?_⟩
  obtain ⟨left, hturns, worker, rest, hnow, hleft⟩ :=
    Underway.follow actors ⟨_, _, hsolo, Nat.lt_succ_self _⟩
  rw [← hlines]
  refine ⟨hnow.stream_prefix, by omega, fun result => hnow.over, fun hstuck => ?_⟩
  obtain ⟨hclerk, hresults⟩ := hnow.over_of_stuck hstuck
  obtain ⟨-, htold, hfinal⟩ := hnow.over hclerk
  rw [stream, hresults, List.append_nil] at htold
  exact ⟨hclerk, htold, hfinal⟩

/-- An order is accepted twice, and both outcomes are read. -/
theorem sole_worker_in_turn_accepting :
    let command : Command :=
      .accept ⟨31, 432, ⟨21929, by decide, by decide⟩, .box, false, 100, 50⟩
    let noon : Instant := ⟨1894276800, 0, by decide, by decide, by decide⟩
    let actors := (List.replicate 20 [Actor.clerk, .worker 0, .reader]).flatten
    let replies := (Command.inTurn noon [command, command] .empty).1
    (∀ reply ∈ replies, ∀ cause, reply ≠ .error (.crash cause)) ∧
      ∃ start bound, solo 1 Stock.empty [command, command] = .ok start ∧
        start.turns Stock.serve (actors.map (·, noon)) < bound ∧
        (start.follow Stock.serve (actors.map (·, noon))).outcomes.length = 2 ∧
        (start.follow Stock.serve (actors.map (·, noon))).stream.map Outcome.told <+:
          [command.label, command.label].zip replies := by
  intro command noon actors replies
  have hcalm : ∀ reply ∈ replies, ∀ cause, reply ≠ .error (.crash cause) := by
    intro reply hreply cause hcrash
    subst hcrash
    rcases List.mem_pair.1 hreply with hcrash | hcrash <;> cases hcrash
  obtain ⟨start, bound, hstart, hall⟩ :=
    sole_worker_in_turn 1 .empty [command, command] noon hcalm
  obtain ⟨hstream, hturns, -⟩ := hall actors
  cases hstart
  exact ⟨hcalm, _, bound, rfl, hturns, by decide +kernel, hstream⟩

end Session
end ParcelDesk
