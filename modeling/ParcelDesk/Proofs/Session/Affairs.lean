import ParcelDesk.Proofs.Pool.Closing
import ParcelDesk.Proofs.Session.Order
import ParcelDesk.Proofs.Session.Work

/-!
# The affairs of a session

What of a session decides what becomes of its instructions: the work in hand, the instructions that
nobody has dealt with yet, and the stores. A step of anyone in the session is one of a few steps in
its affairs, whatever pool and clerk do beside that.
-/

namespace ParcelDesk

variable {σ : Type}

structure Affairs (σ : Type) where
  pieces : Multiset (Job (Call String))
  waiting : List Instruction
  stores : σ

/-- A step in the affairs of a session: nothing happens to them, a piece of work goes on by one step
or is lost by a crash, a command is handed over, or the clerk answers a request. -/
inductive Affairs.Step (serve : Server σ) (time : Instant) (crashed : Prop) (affairs : Affairs σ) :
    Affairs σ → Prop
  | rest : Step serve time crashed affairs affairs
  | goOn (label : String) (body : Call String) (others : Multiset (Job (Call String)))
      (hpieces : affairs.pieces = {⟨label, body⟩} + others) :
      Step serve time crashed affairs
        { affairs with
          pieces := {⟨label, (body.advance serve time affairs.stores).1⟩} + others
          stores := (body.advance serve time affairs.stores).2 }
  | crash (hcrashed : crashed) (label : String) (body : Call String)
      (others : Multiset (Job (Call String)))
      (hpieces : affairs.pieces = {⟨label, body⟩} + others) :
      Step serve time crashed affairs
        { affairs with
          pieces := others
          stores := (body.advance serve time affairs.stores).2 }
  | send (command : Command) (later : List Instruction)
      (hwaiting : affairs.waiting = .run command :: later) :
      Step serve time crashed affairs
        { affairs with
          pieces := {⟨command.label, Desk.execute command⟩} + affairs.pieces
          waiting := later }
  | answer (request : Instruction) (later : List Instruction) (result : Except Error String)
      (hasks : request.asksPool = true) (hwaiting : affairs.waiting = request :: later) :
      Step serve time crashed affairs
        { affairs with
          pieces := {Outcome.piece ⟨"workers", result⟩} + affairs.pieces
          waiting := later }

/-! ## What the clerk is about -/

inductive Errand.Aims (agenda : List Instruction) :
    Errand → Demand (Call String) → Option Instruction → Prop
  | submitting (command : Command) :
      Aims agenda .submitting (.submit ⟨command.label, Desk.execute command⟩) (some (.run command))
  | answering (request : Instruction) (demand : Demand (Call String))
      (hasks : request.asksPool = true) (hquiet : ∀ result, demand.isQuiet result = true) :
      Aims agenda .answering demand (some request)
  | reporting (request : Instruction) (result : Except Error String)
      (hasks : request.asksPool = true) :
      Aims agenda .reporting (.report ⟨"workers", result⟩) (some request)
  | leaving (hnone : agenda = []) : Aims agenda .leaving .wait none

/-- Where the clerk stands, with the instruction with which it is not through. It has left in peace
only if nothing was on the agenda any more. -/
inductive Clerk.Engaged (floor : Floor (Call String)) (agenda : List Instruction) :
    Clerk → Option Instruction → Prop
  | ready : Engaged floor agenda .ready none
  | calling (errand : Errand) (demand : Demand (Call String)) (activity : Activity (Call String))
      (carried : Option Instruction) (hstands : demand.Stands floor activity)
      (haims : errand.Aims agenda demand carried) :
      Engaged floor agenda (.calling errand activity) carried
  | gone (hnone : agenda = []) : Engaged floor agenda (.gone (.ok ())) none
  | failed (error : Error) (carried : Option Instruction) :
      Engaged floor agenda (.gone (.error error)) carried

theorem Clerk.Engaged.keep {floor after : Floor (Call String)} {agenda : List Instruction}
    {clerk : Clerk} {carried : Option Instruction} (h : clerk.Engaged floor agenda carried)
    (hterms : after.isOpen = floor.isOpen ∧ after.canReport = floor.canReport) :
    clerk.Engaged after agenda carried := by
  cases h with
  | ready => exact .ready
  | calling errand demand activity _ hstands haims =>
      exact .calling errand demand activity carried (hstands.keep hterms) haims
  | gone hnone => exact .gone hnone
  | failed error => exact .failed error carried

theorem Clerk.Engaged.takeUp (floor : Floor (Call String)) (agenda : List Instruction)
    (request : Instruction) : (Clerk.takeUp request).Engaged floor agenda (some request) := by
  cases request with
  | run command => exact .calling _ _ _ _ (.submit _) (.submitting command)
  | setWorkers count =>
      exact .calling _ (.resize count) _ _ (.resize count) (.answering _ _ rfl fun _ => rfl)
  | countWorkers => exact .calling _ .flush _ _ (.flush .arming) (.answering _ _ rfl fun _ => rfl)

namespace Session

variable {session later : Session σ} {carried : Option Instruction} {number : Nat}
  {serve : Server σ} {time : Instant} {crashed : Prop}

/-- Holds if someone's step from one session to the other left a command in the midst of it. -/
def crashes (session : Session σ) (actor : Actor) (later : Session σ) : Bool :=
  match actor with
  | .worker number =>
      (Entry.ofTurn number session.pool.workers[number]? later.pool.workers[number]?).any
        Entry.isCrash
  | .reader | .clerk => false

/-- Holds if no command crashes on the way. -/
def isCalm (serve : Server σ) : List (Actor × Instant) → Session σ → Bool
  | [], _ => true
  | (actor, time) :: moves, session =>
      match session.step serve time actor with
      | none => isCalm serve moves session
      | some later => !session.crashes actor later && isCalm serve moves later

def pieces (session : Session σ) : Multiset (Job (Call String)) :=
  ↑session.pool.jobs + (session.pool.workers.map Worker.pieces).sum +
    ↑(session.stream.map Outcome.piece)

theorem pieces_eq (session : Session σ) :
    session.pieces = session.pool.floor.pieces + ↑(session.outcomes.map Outcome.piece) := by
  rw [pieces, stream, List.map_append, ← Multiset.coe_add, Floor.pieces, add_comm
    (↑(session.outcomes.map Outcome.piece) : Multiset (Job (Call String))), ← add_assoc]
  rfl

def affairs (session : Session σ) (carried : Option Instruction) : Affairs σ where
  pieces := session.pieces
  waiting := carried.toList ++ session.agenda
  stores := session.office.stores

/-- What always holds of a session, with the instruction that the clerk is not through with. -/
structure Staffed (session : Session σ) (carried : Option Instruction) : Prop where
  receiver : session.pool.receiver = .taken
  heard : session.pool.floor.Heard
  engaged : session.clerk.Engaged session.pool.floor session.agenda carried

structure Attended (session : Session σ) : Prop where
  manned : session.pool.floor.Manned
  deserted : session.clerk = .gone (.ok ()) → session.pool.floor.Deserted

/-! ## Steps of workers -/

theorem Staffed.pace (h : session.Staffed carried) {pool : Pool (Call String)} {office : Office σ}
    (hstep : session.pool.workerStep (Call.stride serve time) number session.office =
      some (pool, office)) :
    session.pool.floor.Pace (Call.stride serve time) number
      (Entry.ofTurn number session.pool.workers[number]? pool.workers[number]?) pool.floor := by
  have hreceiver : session.pool.receiver ≠ .dropped := by
    rw [h.receiver]
    exact Receiver.noConfusion
  exact Pool.pace_workerStep hreceiver
    (fun worker hworker => h.heard worker (List.mem_of_getElem? hworker)) hstep

theorem Staffed.work (h : session.Staffed carried) {pool : Pool (Call String)} {office : Office σ}
    (hstep : session.pool.workerStep (Call.stride serve time) number session.office =
      some (pool, office)) :
    Staffed { session with pool, office } carried := by
  have hpace := h.pace hstep
  exact ⟨hpace.booked.receiver.trans h.receiver, h.heard.pace hpace, h.engaged.keep hpace.terms⟩

/-- A worker goes on with its job: what is left of it is in its place among the work, or lost. -/
theorem step_running {job : Job (Call String)} {pool : Pool (Call String)} {office : Office σ}
    (hplace : session.pool.workers[number]? = some (.running job))
    (hstep : session.pool.workerStep (Call.stride serve time) number session.office =
      some (pool, office))
    (hcrashed : session.crashes (.worker number) { session with pool, office } = true → crashed) :
    (session.affairs carried).Step serve time crashed
      (affairs { session with pool, office } carried) := by
  have hworker : session.pool.floor.workers[number]? = some (.running job) := hplace
  obtain ⟨others, hfloor, hmove⟩ := Floor.exists_others hworker
  have hbefore : session.pieces = {⟨job.label, job.body⟩} +
      (others + ↑(session.outcomes.map Outcome.piece)) := by
    rw [pieces_eq, hfloor, add_assoc]
    rfl
  have hafter (new : Worker (Call String)) (office : Office σ) :
      affairs { session with pool := session.pool.move number new, office } carried =
        { session.affairs carried with
          pieces := new.pieces + (others + ↑(session.outcomes.map Outcome.piece))
          stores := office.stores } := by
    rw [← add_assoc, ← hmove new, affairs, pieces_eq]
    rfl
  obtain ⟨went, after, hstride, hstores, hleft⟩ :=
    Call.stride_eq_advance serve time job.body session.office
  rw [Pool.workerStep, hplace] at hstep
  simp only [hstride] at hstep
  cases went with
  | going body =>
      cases hstep
      rw [hafter, hstores, hleft body rfl]
      exact .goOn job.label job.body _ hbefore
  | finished result =>
      -- The job has come to its result before, and now counts as the outcome.
      obtain ⟨hbody, hoffice⟩ := Call.eq_ofExcept_of_stride hstride
      cases hstep
      have hsame : affairs { session with
          pool := session.pool.move number (.reporting ⟨job.label, result⟩)
          office } carried = session.affairs carried := by
        rw [hafter, hoffice, affairs, hbefore, hbody]
        rfl
      rw [hsame]
      exact .rest
  | crashed =>
      cases hstep
      have hgone : (session.pool.workers.set number .gone)[number]? =
          some (.gone : Worker (Call String)) := by
        rw [List.getElem?_set_self', hplace]
        rfl
      rw [hafter, hstores]
      change (session.affairs carried).Step serve time crashed { session.affairs carried with
        pieces := 0 + _, stores := _ }
      rw [zero_add]
      refine .crash (hcrashed ?_) job.label job.body _ hbefore
      rw [crashes, hplace]
      change (Entry.ofTurn number _ (session.pool.workers.set number .gone)[number]?).any _ = true
      rw [hgone]
      rfl

theorem step_worker (h : session.Staffed carried) {pool : Pool (Call String)} {office : Office σ}
    (hstep : session.pool.workerStep (Call.stride serve time) number session.office =
      some (pool, office))
    (hcrashed : session.crashes (.worker number) { session with pool, office } = true → crashed) :
    (session.affairs carried).Step serve time crashed
      (affairs { session with pool, office } carried) := by
  by_cases hfree : ∀ job, session.pool.workers[number]? ≠ some (.running job)
  · have hsame : affairs { session with pool, office } carried = session.affairs carried := by
      rw [Pool.world_of_free hstep hfree]
      have hpieces := (h.pace hstep).pieces hfree
      rw [affairs, affairs, pieces_eq, pieces_eq, hpieces]
    rw [hsame]
    exact .rest
  · simp only [not_forall, not_not] at hfree
    obtain ⟨job, hplace⟩ := hfree
    exact step_running hplace hstep hcrashed

/-! ## Steps of the reader -/

theorem Staffed.readerStep (h : session.Staffed carried)
    (hstep : session.readerStep = some later) :
    later.Staffed carried ∧ later.affairs carried = session.affairs carried := by
  obtain ⟨⟨outcome, pool⟩, hread, hlater⟩ := Option.map_eq_some_iff.1 hstep
  rw [Pool.read?] at hread
  split at hread
  next outcome' rest hreceiver hresults =>
    cases hread
    cases hlater
    have hstream : stream { session with
        outcomes := session.outcomes ++ [outcome]
        pool := { session.pool with results := rest } } = session.stream := by
      rw [stream, stream, hresults, List.append_assoc]
      rfl
    refine ⟨⟨h.receiver, h.heard, h.engaged.keep ⟨rfl, rfl⟩⟩, ?_⟩
    rw [affairs, pieces, hstream]
    rfl
  next => cases hread

/-! ## Steps of the clerk -/

theorem affairs_of_effect {demand : Demand (Call String)} {progress : Progress (Call String)}
    {pool : Pool (Call String)} (h : session.pool.floor.Effect demand progress pool.floor)
    (clerk : Clerk) (next : Option Instruction) :
    affairs { session with clerk, pool } next =
      ⟨demand.gain progress + session.pieces, next.toList ++ session.agenda,
        session.office.stores⟩ := by
  rw [affairs, pieces_eq, pieces_eq, h.pieces, add_assoc]

theorem affairs_of_no_gain {demand : Demand (Call String)} {progress : Progress (Call String)}
    {pool : Pool (Call String)} (h : session.pool.floor.Effect demand progress pool.floor)
    (hgain : demand.gain progress = 0) (clerk : Clerk) :
    affairs { session with clerk, pool } carried = session.affairs carried := by
  rw [affairs_of_effect h, hgain, zero_add]
  rfl

theorem Staffed.goOn (h : session.Staffed carried) {errand : Errand}
    {demand : Demand (Call String)} {activity : Activity (Call String)} {pool : Pool (Call String)}
    (haims : errand.Aims session.agenda demand carried)
    (heffect : session.pool.floor.Effect demand (.going activity) pool.floor) :
    Staffed { session with clerk := .calling errand activity, pool } carried where
  receiver := heffect.booked.receiver.trans h.receiver
  heard := h.heard.effect heffect
  engaged := .calling errand demand activity carried heffect.stands haims

/-- A call of the clerk is over. What it has left in the pool is the step in the affairs; a call
that has failed, or was for something else, has left nothing there. -/
theorem Staffed.callOver (h : session.Staffed carried) {errand : Errand}
    {demand : Demand (Call String)} {result : Except Error Unit} {pool : Pool (Call String)}
    (haims : errand.Aims session.agenda demand carried)
    (heffect : session.pool.floor.Effect demand (.over result) pool.floor) :
    ∃ next, Staffed { session with clerk := .afterCall pool.size result errand, pool } next ∧
      (session.affairs carried).Step serve time crashed
        (affairs { session with clerk := .afterCall pool.size result errand, pool } next) := by
  have hreceiver := heffect.booked.receiver.trans h.receiver
  have hheard := h.heard.effect heffect
  cases haims with
  | submitting command =>
      cases result with
      | ok done =>
          refine ⟨none, ⟨hreceiver, hheard, .ready⟩, ?_⟩
          rw [affairs_of_effect heffect]
          exact .send command session.agenda rfl
      | error error =>
          refine ⟨_, ⟨hreceiver, hheard, .failed error (some (.run command))⟩, ?_⟩
          rw [affairs_of_no_gain heffect rfl]
          exact .rest
  | answering request demand hasks hquiet =>
      refine ⟨some request, ⟨hreceiver, hheard,
        .calling _ _ _ _ (.report _) (.reporting request _ hasks)⟩, ?_⟩
      rw [affairs_of_no_gain heffect (Demand.gain_of_isQuiet (hquiet result))]
      exact .rest
  | reporting request answer hasks =>
      cases result with
      | ok done =>
          refine ⟨none, ⟨hreceiver, hheard, .ready⟩, ?_⟩
          rw [affairs_of_effect heffect]
          exact .answer request session.agenda answer hasks rfl
      | error error =>
          refine ⟨_, ⟨hreceiver, hheard, .failed error (some request)⟩, ?_⟩
          rw [affairs_of_no_gain heffect rfl]
          exact .rest
  | leaving hnone =>
      refine ⟨none, ⟨hreceiver, hheard, ?_⟩, ?_⟩
      · cases result with
        | ok done => exact .gone hnone
        | error error => exact .failed error none
      · rw [affairs_of_no_gain heffect rfl]
        exact .rest

theorem Staffed.clerkStep (h : session.Staffed carried)
    (hstep : session.clerkStep = some later) :
    ∃ next, later.Staffed next ∧
      (session.affairs carried).Step serve time crashed (later.affairs next) := by
  have hengaged := h.engaged
  generalize hclerk : session.clerk = clerk at hengaged
  rw [Session.clerkStep, hclerk] at hstep
  cases hengaged with
  | ready =>
      simp only at hstep
      split at hstep
      next hagenda =>
        cases hstep
        refine ⟨none, ⟨h.receiver, h.heard, ?_⟩, .rest⟩
        exact .calling _ _ _ _ .wait (.leaving hagenda)
      next request agenda hagenda =>
        cases hstep
        refine ⟨some request, ⟨h.receiver, h.heard, .takeUp _ _ request⟩, ?_⟩
        -- What the clerk takes up still counts as waiting: it moves from the agenda to its hands.
        have hsame : affairs { session with clerk := .takeUp request, agenda } (some request) =
            session.affairs none := by
          rw [affairs, affairs, hagenda]
          rfl
        rw [hsame]
        exact .rest
  | calling errand demand activity _ hstands haims =>
      obtain ⟨⟨pool, progress⟩, hactivity, hlater⟩ := Option.map_eq_some_iff.1 hstep
      have heffect := Pool.effect_activityStep hstands hactivity
      rcases progress with activity | result
      · cases hlater
        refine ⟨carried, h.goOn haims heffect, ?_⟩
        rw [affairs_of_no_gain heffect (Demand.gain_going _ _)]
        exact .rest
      · cases hlater
        exact h.callOver haims heffect
  | gone | failed => cases hstep

/-- Every step in a session is a step in its affairs. -/
theorem Staffed.step {actor : Actor} (h : session.Staffed carried)
    (hstep : session.step serve time actor = some later)
    (hcrashed : session.crashes actor later = true → crashed) :
    ∃ next, later.Staffed next ∧
      (session.affairs carried).Step serve time crashed (later.affairs next) := by
  cases actor with
  | worker number =>
      obtain ⟨⟨pool, office⟩, hworker, rfl⟩ := Option.map_eq_some_iff.1 hstep
      exact ⟨carried, h.work hworker, step_worker h hworker hcrashed⟩
  | reader =>
      obtain ⟨hlater, hsame⟩ := h.readerStep hstep
      refine ⟨carried, hlater, ?_⟩
      rw [hsame]
      exact .rest
  | clerk => exact h.clerkStep hstep

/-! ## Sessions in which no command crashes -/

theorem Attended.effect (h : session.Attended) {demand : Demand (Call String)}
    {progress : Progress (Call String)} {pool : Pool (Call String)} {clerk : Clerk}
    (heffect : session.pool.floor.Effect demand progress pool.floor)
    (hgone : clerk = .gone (.ok ()) →
      ∃ entry ∈ Entry.ofProgress demand progress, entry.isFarewell = true) :
    Attended { session with clerk, pool } where
  manned := h.manned.effect heffect
  deserted hclerk := heffect.deserted (h.manned.effect heffect) (hgone hclerk)

theorem Attended.step {actor : Actor} (h : session.Attended) (hstaffed : session.Staffed carried)
    (hstep : session.step serve time actor = some later)
    (hcalm : session.crashes actor later = false) : later.Attended := by
  cases actor with
  | worker number =>
      obtain ⟨⟨pool, office⟩, hworker, rfl⟩ := Option.map_eq_some_iff.1 hstep
      have hpace := hstaffed.pace hworker
      refine ⟨h.manned.pace hpace fun entry hentry => ?_,
        fun hgone => (h.deserted hgone).pace hpace⟩
      exact Bool.eq_false_iff.2 (List.any_eq_false.1 hcalm entry hentry)
  | reader =>
      obtain ⟨⟨outcome, pool⟩, hread, hlater⟩ := Option.map_eq_some_iff.1 hstep
      rw [Pool.read?] at hread
      split at hread
      next =>
        cases hread
        cases hlater
        refine ⟨h.manned, fun hgone => ?_⟩
        have hdeserted := h.deserted hgone
        exact ⟨hdeserted.size, hdeserted.workers, hdeserted.jobs, hdeserted.isOpen,
          hdeserted.canReport⟩
      next => cases hread
  | clerk =>
      have hengaged := hstaffed.engaged
      change session.clerkStep = _ at hstep
      generalize hclerk : session.clerk = clerk at hengaged
      rw [Session.clerkStep, hclerk] at hstep
      cases hengaged with
      | ready =>
          simp only at hstep
          split at hstep
          next =>
            cases hstep
            refine ⟨h.manned, ?_⟩
            intro hgone
            cases hgone
          next request agenda hagenda =>
            cases hstep
            refine ⟨h.manned, ?_⟩
            intro hgone
            cases request <;> cases hgone
      | calling errand demand activity _ hstands haims =>
          obtain ⟨⟨pool, progress⟩, hactivity, hlater⟩ := Option.map_eq_some_iff.1 hstep
          have heffect := Pool.effect_activityStep hstands hactivity
          rcases progress with activity | result
          · cases hlater
            refine h.effect heffect ?_
            intro hgone
            cases hgone
          · cases hlater
            refine h.effect heffect ?_
            intro hgone
            cases haims with
            | submitting | reporting => cases result <;> cases hgone
            | answering => cases hgone
            | leaving => exact ⟨_, List.mem_singleton_self _, rfl⟩
      | gone | failed => cases hstep

/-! ## Sessions as they go -/

theorem Staffed.follow {holds : Affairs σ → Prop} (h : session.Staffed carried)
    (hstart : holds (session.affairs carried))
    (hkept : ∀ time affairs after, holds affairs → affairs.Step serve time True after →
      holds after)
    (moves : List (Actor × Instant)) :
    ∃ next, (session.follow serve moves).Staffed next ∧
      holds ((session.follow serve moves).affairs next) := by
  induction moves generalizing session carried with
  | nil => exact ⟨carried, h, hstart⟩
  | cons move moves ih =>
      rw [Session.follow]
      cases hstep : session.step serve move.2 move.1 with
      | none => exact ih h hstart
      | some later =>
          obtain ⟨next, hlater, haffairs⟩ := h.step hstep fun _ => True.intro
          exact ih hlater (hkept _ _ _ hstart haffairs)

theorem Attended.follow {holds : Affairs σ → Prop} (h : session.Attended)
    (hstaffed : session.Staffed carried) (hstart : holds (session.affairs carried))
    (hkept : ∀ affairs after, holds affairs → affairs.Step serve time False after → holds after)
    (moves : List Actor) (hcalm : session.isCalm serve (moves.map (·, time)) = true) :
    ∃ next, (session.follow serve (moves.map (·, time))).Staffed next ∧
      (session.follow serve (moves.map (·, time))).Attended ∧
      holds ((session.follow serve (moves.map (·, time))).affairs next) := by
  induction moves generalizing session carried with
  | nil => exact ⟨carried, hstaffed, h, hstart⟩
  | cons actor moves ih =>
      rw [List.map_cons, isCalm] at hcalm
      rw [List.map_cons, Session.follow]
      cases hstep : session.step serve time actor with
      | none =>
          rw [hstep] at hcalm
          exact ih h hstaffed hstart hcalm
      | some later =>
          rw [hstep] at hcalm
          obtain ⟨hcrashes, hcalm⟩ := Bool.and_eq_true_iff.1 hcalm
          have hcrashes : session.crashes actor later = false := by simpa using hcrashes
          have hnever : session.crashes actor later = true → False := by
            rw [hcrashes]
            exact Bool.noConfusion
          obtain ⟨next, hlater, haffairs⟩ := hstaffed.step hstep hnever
          exact ih (h.step hstaffed hstep hcrashes) hlater (hkept _ _ hstart haffairs) hcalm

theorem staffed_of_make {workers : UInt64} {stores : σ} {agenda : List Instruction}
    (h : make workers stores agenda = .ok session) :
    session.Staffed none ∧ session.Attended ∧ session.affairs none = ⟨0, agenda, stores⟩ := by
  by_cases hsize : Pool.Allowed workers
  · rw [make, Pool.make, Pool.checkSize_of_allowed hsize] at h
    cases h
    refine ⟨⟨rfl, ?_, .ready⟩, ⟨.inr ?_, ?_⟩, ?_⟩
    · intro worker hworker
      rw [List.eq_of_mem_replicate hworker]
      rfl
    · change 1 ≤ (0 + workers).toNat ∧ (0 + workers).toNat + 0 ≤ _
      rw [UInt64.zero_add]
      exact ⟨hsize.1, ((Worker.presence_hire [] workers.toNat).trans (Nat.zero_add _)).ge⟩
    · intro hgone
      cases hgone
    · rw [affairs, pieces]
      change (⟨0 + ((List.replicate workers.toNat Worker.atStop).map Worker.pieces).sum + 0,
        agenda, stores⟩ : Affairs σ) = _
      rw [Worker.sum_pieces_replicate]
      rfl
  · rw [make, Pool.make_of_not_allowed hsize] at h
    cases h

end Session

end ParcelDesk
