import ParcelDesk.Proofs.Session.Books
import ParcelDesk.Session.Basic

/-!
# Order of answers

Whatever the order in which clerk, workers and reader take their steps, requests about the pool are
answered in their places among the outcomes. This is kept up step by step, together with where the
clerk stands and with the books of the pool.
-/

namespace ParcelDesk

open Instruction (granted)

variable {σ : Type} {initial : UInt64} {handled ongoing : List Instruction}

namespace Clerk

def inHand : Clerk → Nat
  | .ready | .calling .leaving _ | .gone _ => 0
  | .calling _ _ => 1

def sending : Clerk → Nat
  | .calling _ (.enqueue _) => 1
  | _ => 0

end Clerk

namespace Pool

variable {τ : Type} {pool after : Pool τ} {size : UInt64}

structure Serving (pool : Pool τ) (size : UInt64) : Prop where
  size : pool.size = size
  isOpen : pool.isOpen = true
  canReport : pool.canReport = true

theorem SameTerms.serving (h : pool.SameTerms after) (hserving : pool.Serving size) :
    after.Serving size :=
  ⟨h.size.trans hserving.size, h.isOpen.trans hserving.isOpen, h.canReport.trans hserving.canReport⟩

end Pool

inductive Stands (initial : UInt64) (handled : List Instruction) (pool : Pool (Call String)) :
    List Instruction → Clerk → Prop where
  | ready (serving : pool.Serving (granted initial handled)) : Stands initial handled pool [] .ready
  | submit (command : Command) (body : Call String)
      (serving : pool.Serving (granted initial handled)) :
      Stands initial handled pool [.run command]
        (.calling .submitting (.submit ⟨command.label, body⟩))
  | enqueue (command : Command) (body : Call String)
      (serving : pool.Serving (granted initial handled)) :
      Stands initial handled pool [.run command]
        (.calling .submitting (.enqueue ⟨command.label, body⟩))
  | flush (stage : Flush) (serving : pool.Serving (granted initial handled)) :
      Stands initial handled pool [.countWorkers] (.calling .answering (.flush stage))
  | resize (count : UInt64) (serving : pool.Serving (granted initial handled)) :
      Stands initial handled pool [.setWorkers count] (.calling .answering (.resize count))
  | resizing (count : UInt64) (stage : Flush) (serving : pool.Serving (granted initial handled))
      (allowed : Pool.Allowed count) :
      Stands initial handled pool [.setWorkers count] (.calling .answering (.resizing count stage))
  | report (request : Instruction) (asks : request.asksPool = true)
      (serving : pool.Serving (granted initial (handled ++ [request])))
      (idle : request.isRefused = false → pool.pending = 0) :
      Stands initial handled pool [request]
        (.calling .reporting (.report ⟨"workers", request.verdict (granted initial handled)⟩))
  | deliver (request : Instruction) (asks : request.asksPool = true)
      (serving : pool.Serving (granted initial (handled ++ [request])))
      (idle : request.isRefused = false → pool.pending = 0) :
      Stands initial handled pool [request]
        (.calling .reporting (.deliver ⟨"workers", request.verdict (granted initial handled)⟩))
  | leaving : Stands initial handled pool [] (.calling .leaving .wait)
  | joining : Stands initial handled pool [] (.calling .leaving .join)
  | gone (result : Except Error Unit) : Stands initial handled pool [] (.gone result)

theorem Stands.length {pool : Pool (Call String)} {clerk : Clerk}
    (h : Stands initial handled pool ongoing clerk) : ongoing.length = clerk.inHand := by
  cases h <;> rfl

/-- Where the clerk stands is left alone by those who change neither the terms of the pool nor make
a job pending. -/
theorem Stands.keep {pool after : Pool (Call String)} {clerk : Clerk}
    (h : Stands initial handled pool ongoing clerk) (hterms : pool.SameTerms after)
    (hpending : pool.pending = 0 → after.pending = 0) :
    Stands initial handled after ongoing clerk := by
  cases h with
  | ready serving => exact .ready (hterms.serving serving)
  | submit command body serving => exact .submit command body (hterms.serving serving)
  | enqueue command body serving => exact .enqueue command body (hterms.serving serving)
  | flush stage serving => exact .flush stage (hterms.serving serving)
  | resize count serving => exact .resize count (hterms.serving serving)
  | resizing count stage serving allowed =>
      exact .resizing count stage (hterms.serving serving) allowed
  | report request asks serving idle =>
      exact .report request asks (hterms.serving serving) fun h => hpending (idle h)
  | deliver request asks serving idle =>
      exact .deliver request asks (hterms.serving serving) fun h => hpending (idle h)
  | leaving => exact .leaving
  | joining => exact .joining
  | gone result => exact .gone result

theorem Stands.answered {pool : Pool (Call String)} {request : Instruction}
    {result : Except Error Unit} (hasks : request.asksPool = true)
    (hserving : pool.Serving (request.resized (granted initial handled)))
    (hidle : request.isRefused = false → pool.pending = 0)
    (hverdict : (result.map fun () => s!"workers: {pool.size}") =
      request.verdict (granted initial handled)) :
    Stands initial handled pool [request] (Clerk.afterCall pool.size result .answering) := by
  rw [← Instruction.granted_append] at hserving
  rw [Clerk.afterCall, Clerk.answer, hverdict]
  exact .report request hasks hserving hidle

namespace Session

variable {agenda : List Instruction} {session later : Session σ}

def stream (session : Session σ) : List Outcome :=
  session.outcomes ++ session.pool.results

def finished (session : Session σ) (agenda : List Instruction) : List Instruction :=
  agenda.take (agenda.length - (session.agenda.length + session.clerk.inHand))

/-- Lets those named take a step one after the other, at the times named; one who cannot take a step
lets the turn pass. -/
def follow (serve : Server σ) : List (Actor × Instant) → Session σ → Session σ
  | [], session => session
  | (actor, time) :: moves, session =>
      follow serve moves ((session.step serve time actor).getD session)

/-- What holds of a session on its way through an agenda. -/
structure Course (initial : UInt64) (agenda handled ongoing : List Instruction)
    (session : Session σ) : Prop where
  agenda : agenda = handled ++ ongoing ++ session.agenda
  stands : Stands initial handled session.pool ongoing session.clerk
  balanced : ∃ lost, Balanced handled session.stream session.pool session.clerk.sending lost
  orderly : Orderly initial handled session.stream
  receiver : session.pool.receiver = .taken

/-! ## Steps of workers and of the reader -/

theorem Course.turn {pool : Pool (Call String)} {office : Office σ}
    (h : Course initial agenda handled ongoing session) (hturn : session.pool.Turn pool)
    (hterms : session.pool.SameTerms pool) :
    Course initial agenda handled ongoing { session with pool, office } := by
  obtain ⟨lost, hbalanced⟩ := h.balanced
  obtain ⟨more, lost, hresults, hmore, hbalanced⟩ := hbalanced.turn hturn
  have hstream : stream { session with pool, office } = session.stream ++ more := by
    rw [stream, stream, hresults, List.append_assoc]
  refine ⟨h.agenda, h.stands.keep hterms ?_, ⟨lost, ?_⟩, ?_, hterms.receiver.trans h.receiver⟩
  · intro hnone
    exact Nat.eq_zero_of_le_zero (hnone ▸ hturn.pending_le)
  · rw [hstream]
    exact hbalanced
  · rw [hstream]
    exact h.orderly.told hmore

theorem Course.readerStep (h : Course initial agenda handled ongoing session)
    (hstep : session.readerStep = some later) :
    Course initial agenda handled ongoing later := by
  obtain ⟨⟨outcome, pool⟩, hread, hlater⟩ := Option.map_eq_some_iff.1 hstep
  rw [Pool.read?] at hread
  split at hread
  next outcome' rest hreceiver hresults =>
    cases hread
    cases hlater
    have hstream : stream { session with
        outcomes := session.outcomes ++ [outcome]
        pool := { session.pool with results := rest } } = session.stream := by
      rw [stream, stream, hresults, List.append_assoc]
      rfl
    obtain ⟨lost, hbalanced⟩ := h.balanced
    refine ⟨h.agenda, h.stands.keep ⟨rfl, rfl, rfl, rfl⟩ id, ⟨lost, ?_⟩, ?_, h.receiver⟩
    · rw [hstream]
      exact ⟨hbalanced.labels, hbalanced.pending⟩
    · rw [hstream]
      exact h.orderly
  next => cases hread

/-! ## Steps of the clerk -/

theorem pending_of_flushStep {pool : Pool (Call String)} {stage : Flush}
    (h : pool.flushStep stage = some (.inr ())) : pool.pending = 0 := by
  cases stage with
  | arming => cases h
  | checking wakings =>
      rw [Pool.flushStep] at h
      split at h
      · assumption
      · cases h
  | asleep wakings =>
      rw [Pool.flushStep] at h
      split at h <;> cases h

namespace Course

theorem proceed (h : Course initial agenda handled ongoing session) {was clerk : Clerk}
    {pool : Pool (Call String)} (hclerk : session.clerk = was)
    (hstands : Stands initial handled pool ongoing clerk)
    (haccounts : session.pool.SameAccounts pool)
    (hreceiver : pool.receiver = session.pool.receiver) (hsending : clerk.sending = was.sending) :
    Course initial agenda handled ongoing { session with clerk, pool } := by
  have hstream : stream { session with clerk, pool } = session.stream := by
    rw [stream, stream, haccounts.results]
  obtain ⟨lost, hbalanced⟩ := h.balanced
  rw [hclerk, ← hsending] at hbalanced
  refine ⟨h.agenda, hstands, ⟨lost, ?_⟩, ?_, hreceiver.trans h.receiver⟩
  · rw [hstream]
    exact hbalanced.same haccounts
  · rw [hstream]
    exact h.orderly

theorem takeUp (h : Course initial agenda handled [] session) (hready : session.clerk = .ready)
    (hserving : session.pool.Serving (granted initial handled)) {request : Instruction}
    {rest : List Instruction} (hagenda : session.agenda = request :: rest) :
    Course initial agenda handled [request]
      { session with clerk := .takeUp request, agenda := rest } := by
  have hsending : (Clerk.takeUp request).sending = session.clerk.sending := by
    rw [hready]
    cases request <;> rfl
  obtain ⟨lost, hbalanced⟩ := h.balanced
  rw [← hsending] at hbalanced
  refine ⟨?_, ?_, ⟨lost, hbalanced⟩, h.orderly, h.receiver⟩
  · rw [h.agenda, hagenda, List.append_nil, List.append_assoc]
    rfl
  · cases request with
    | run command => exact .submit command _ hserving
    | setWorkers count => exact .resize count hserving
    | countWorkers => exact .flush .arming hserving

theorem submit {command : Command} {body : Call String}
    (h : Course initial agenda handled [.run command] session)
    (hsending : session.clerk.sending = 0)
    (hserving : session.pool.Serving (granted initial handled)) (line : List Nat) :
    Course initial agenda handled [.run command]
      { session with
        clerk := .calling .submitting (.enqueue ⟨command.label, body⟩)
        pool := { session.pool with pending := session.pool.pending + 1, jobLine := line } } := by
  obtain ⟨lost, hbalanced⟩ := h.balanced
  rw [hsending] at hbalanced
  exact ⟨h.agenda, .enqueue command body ⟨hserving.size, hserving.isOpen, hserving.canReport⟩,
    ⟨lost, hbalanced.submit rfl rfl rfl⟩, h.orderly, h.receiver⟩

theorem enqueue {command : Command} {body : Call String} {line : List Nat}
    (h : Course initial agenda handled [.run command] session)
    (hsending : session.clerk.sending = 1)
    (hserving : session.pool.Serving (granted initial handled)) :
    Course initial agenda (handled ++ [.run command]) []
      { session with
        clerk := .ready
        pool := { session.pool with
          jobs := session.pool.jobs ++ [⟨command.label, body⟩]
          jobLine := line } } := by
  obtain ⟨lost, hbalanced⟩ := h.balanced
  rw [hsending] at hbalanced
  have hdues := session.pool.dues_queue ⟨command.label, body⟩ line
  refine ⟨?_, .ready ?_, ⟨lost, hbalanced.enqueue command hdues rfl rfl⟩,
    h.orderly.command command, h.receiver⟩
  · rw [List.append_nil]
    exact h.agenda
  · rw [Instruction.granted_append]
    exact ⟨hserving.size, hserving.isOpen, hserving.canReport⟩

theorem deliver {request : Instruction} {line : List Party}
    (h : Course initial agenda handled [request] session)
    (hsending : session.clerk.sending = 0) (hasks : request.asksPool = true)
    (hserving : session.pool.Serving (granted initial (handled ++ [request])))
    (hidle : request.isRefused = false → session.pool.pending = 0) :
    Course initial agenda (handled ++ [request]) []
      { session with
        clerk := .ready
        pool := { session.pool with
          results := session.pool.results ++
            [⟨"workers", request.verdict (granted initial handled)⟩]
          resultLine := line } } := by
  obtain ⟨lost, hbalanced⟩ := h.balanced
  rw [hsending] at hbalanced
  -- No command made after the request has been handed over, so the books hold none of its outcomes.
  have hplaced : Placed initial handled request session.stream
      ⟨"workers", request.verdict (granted initial handled)⟩ :=
    ⟨rfl, h.orderly.once, hbalanced.labels_le,
      fun hrefused => hbalanced.labels_of_pending (hidle hrefused)⟩
  refine ⟨?_, .ready ⟨hserving.size, hserving.isOpen, hserving.canReport⟩, ⟨lost, ?_⟩, ?_,
    h.receiver⟩
  · rw [List.append_nil]
    exact h.agenda
  · rw [stream, ← List.append_assoc]
    exact hbalanced.answer hasks rfl rfl rfl rfl
  · rw [stream, ← List.append_assoc]
    exact h.orderly.answer hasks hplaced

theorem flush {stage : Flush} (h : Course initial agenda handled [.countWorkers] session)
    (hclerk : session.clerk = .calling .answering (.flush stage))
    (hserving : session.pool.Serving (granted initial handled))
    (hstep : session.clerkStep = some later) :
    Course initial agenda handled [.countWorkers] later := by
  rw [clerkStep, hclerk] at hstep
  simp only [Pool.activityStep, Option.map_map] at hstep
  obtain ⟨progress, hflush, hlater⟩ := Option.map_eq_some_iff.1 hstep
  cases progress with
  | inl stage =>
      cases hlater
      exact h.proceed hclerk (.flush stage hserving) ⟨rfl, rfl, rfl, rfl⟩ rfl rfl
  | inr done =>
      cases hlater
      refine h.proceed hclerk (.answered rfl hserving (fun _ => pending_of_flushStep hflush) ?_)
        ⟨rfl, rfl, rfl, rfl⟩ rfl rfl
      rw [hserving.size]
      rfl

theorem resize {count : UInt64} (h : Course initial agenda handled [.setWorkers count] session)
    (hclerk : session.clerk = .calling .answering (.resize count))
    (hserving : session.pool.Serving (granted initial handled))
    (hstep : session.clerkStep = some later) :
    Course initial agenda handled [.setWorkers count] later := by
  rw [clerkStep, hclerk] at hstep
  by_cases hallowed : Pool.Allowed count
  · simp only [Pool.activityStep, Pool.checkSize_of_allowed hallowed, if_pos hserving.isOpen]
      at hstep
    cases hstep
    exact h.proceed hclerk (.resizing count .arming hserving hallowed) ⟨rfl, rfl, rfl, rfl⟩ rfl rfl
  · simp only [Pool.activityStep, Pool.checkSize_of_not_allowed hallowed] at hstep
    cases hstep
    refine h.proceed hclerk (.answered rfl ?_ ?_ ?_) ⟨rfl, rfl, rfl, rfl⟩ rfl rfl
    · rw [Instruction.resized, if_neg hallowed]
      exact hserving
    · intro hrefused
      simp [Instruction.isRefused, hallowed] at hrefused
    · rw [Instruction.verdict, if_neg hallowed]
      rfl

theorem resizing {count : UInt64} {stage : Flush}
    (h : Course initial agenda handled [.setWorkers count] session)
    (hclerk : session.clerk = .calling .answering (.resizing count stage))
    (hserving : session.pool.Serving (granted initial handled)) (hallowed : Pool.Allowed count)
    (hstep : session.clerkStep = some later) :
    Course initial agenda handled [.setWorkers count] later := by
  rw [clerkStep, hclerk] at hstep
  simp only [Pool.activityStep, Option.map_map] at hstep
  obtain ⟨progress, hflush, hlater⟩ := Option.map_eq_some_iff.1 hstep
  cases progress with
  | inl stage =>
      cases hlater
      exact h.proceed hclerk (.resizing count stage hserving hallowed) ⟨rfl, rfl, rfl, rfl⟩ rfl rfl
  | inr done =>
      -- The flush found no job pending, and changing the size makes none pending.
      obtain ⟨pool, hadjust, haccounts, hterms⟩ :=
        Pool.adjust_of_allowed hallowed hserving.canReport
      simp only [Function.comp_apply, hadjust, Pool.concluded] at hlater
      cases hlater
      refine h.proceed hclerk (.answered rfl ?_ ?_ ?_) haccounts hterms.receiver rfl
      · rw [Instruction.resized, if_pos hallowed]
        exact ⟨hterms.size, hterms.isOpen.trans hserving.isOpen,
          hterms.canReport.trans hserving.canReport⟩
      · intro _
        rw [haccounts.pending]
        exact pending_of_flushStep hflush
      · rw [Instruction.verdict, if_pos hallowed, hterms.size]
        rfl

/-- A step of the clerk keeps to the course, with more instructions handled or taken up perhaps. -/
theorem clerkStep (h : Course initial agenda handled ongoing session)
    (hstep : session.clerkStep = some later) :
    ∃ handled ongoing, Course initial agenda handled ongoing later := by
  have hstands := h.stands
  generalize hclerk : session.clerk = clerk at hstands
  cases hstands with
  | ready serving =>
      rw [Session.clerkStep, hclerk] at hstep
      simp only at hstep
      split at hstep
      next hagenda =>
        cases hstep
        exact ⟨handled, [], h.proceed hclerk .leaving ⟨rfl, rfl, rfl, rfl⟩ rfl rfl⟩
      next request rest hagenda =>
        cases hstep
        exact ⟨handled, [request], h.takeUp hclerk serving hagenda⟩
  | submit command body serving =>
      rw [Session.clerkStep, hclerk] at hstep
      simp only [Pool.activityStep, if_pos serving.isOpen] at hstep
      cases hstep
      exact ⟨handled, [.run command], h.submit (congrArg Clerk.sending hclerk) serving _⟩
  | enqueue command body serving =>
      rw [Session.clerkStep, hclerk] at hstep
      simp only [Pool.activityStep] at hstep
      split at hstep
      · cases hstep
        exact ⟨handled ++ [.run command], [], h.enqueue (congrArg Clerk.sending hclerk) serving⟩
      · cases hstep
  | flush stage serving =>
      exact ⟨handled, [.countWorkers], h.flush hclerk serving hstep⟩
  | resize count serving =>
      exact ⟨handled, [.setWorkers count], h.resize hclerk serving hstep⟩
  | resizing count stage serving allowed =>
      exact ⟨handled, [.setWorkers count], h.resizing hclerk serving allowed hstep⟩
  | report request asks serving idle =>
      rw [Session.clerkStep, hclerk] at hstep
      simp only [Pool.activityStep, if_pos serving.canReport] at hstep
      cases hstep
      exact ⟨handled, [request], h.proceed hclerk
        (.deliver request asks ⟨serving.size, serving.isOpen, serving.canReport⟩ idle)
        ⟨rfl, rfl, rfl, rfl⟩ rfl rfl⟩
  | deliver request asks serving idle =>
      have hreceiver : session.pool.receiver ≠ .dropped := by rw [h.receiver]; decide
      rw [Session.clerkStep, hclerk] at hstep
      simp only [Pool.activityStep, if_neg hreceiver] at hstep
      split at hstep
      · cases hstep
        exact ⟨handled ++ [request], [],
          h.deliver (congrArg Clerk.sending hclerk) asks serving idle⟩
      · cases hstep
  | leaving =>
      rw [Session.clerkStep, hclerk] at hstep
      cases hstep
      exact ⟨handled, [], h.proceed hclerk .joining ⟨rfl, rfl, rfl, rfl⟩ rfl rfl⟩
  | joining =>
      rw [Session.clerkStep, hclerk] at hstep
      simp only [Pool.activityStep] at hstep
      split at hstep
      · cases hstep
        exact ⟨handled, [], h.proceed hclerk (.gone _) ⟨rfl, rfl, rfl, rfl⟩ rfl rfl⟩
      · cases hstep
  | gone result =>
      rw [Session.clerkStep, hclerk] at hstep
      cases hstep

theorem step {serve : Server σ} {time : Instant} {actor : Actor}
    (h : Course initial agenda handled ongoing session)
    (hstep : session.step serve time actor = some later) :
    ∃ handled ongoing, Course initial agenda handled ongoing later := by
  cases actor with
  | worker number =>
      obtain ⟨⟨pool, office⟩, hworker, rfl⟩ := Option.map_eq_some_iff.1 hstep
      have hreceiver : session.pool.receiver ≠ .dropped := by rw [h.receiver]; decide
      obtain ⟨hturn, hterms⟩ := Pool.turn_workerStep hreceiver hworker
      exact ⟨handled, ongoing, h.turn hturn hterms⟩
  | reader => exact ⟨handled, ongoing, h.readerStep hstep⟩
  | clerk => exact h.clerkStep hstep

theorem follow {serve : Server σ} (moves : List (Actor × Instant))
    (h : Course initial agenda handled ongoing session) :
    ∃ handled ongoing, Course initial agenda handled ongoing (session.follow serve moves) := by
  induction moves generalizing session handled ongoing with
  | nil => exact ⟨handled, ongoing, h⟩
  | cons move moves ih =>
      cases hstep : session.step serve move.2 move.1 with
      | none =>
          rw [Session.follow, hstep]
          exact ih h
      | some stepped =>
          rw [Session.follow, hstep]
          obtain ⟨handled, ongoing, hstepped⟩ := h.step hstep
          exact ih hstepped

end Course

theorem Course.finished_eq (h : Course initial agenda handled ongoing session) :
    session.finished agenda = handled := by
  have hlength : agenda.length - (session.agenda.length + session.clerk.inHand) =
      handled.length := by
    rw [← h.stands.length, h.agenda, List.length_append, List.length_append]
    omega
  rw [finished, hlength, h.agenda, List.append_assoc, List.take_left]

theorem course_of_make {stores : σ} (h : make initial stores agenda = .ok session) :
    Course initial agenda [] [] session := by
  by_cases hallowed : Pool.Allowed initial
  · obtain ⟨pool, hmake, haccounts, hterms⟩ :=
      Pool.make_of_allowed (τ := Call String) hallowed (2 * initial.toNat)
    rw [make, hmake, ok_bind, Pool.takeResults, hterms.receiver] at h
    cases h
    have hstream : [] ++ pool.results = [] := haccounts.results
    have hbalanced := Balanced.fresh haccounts.dues haccounts.uncounted haccounts.pending
    refine ⟨rfl, .ready ⟨hterms.size, hterms.isOpen, hterms.canReport⟩, ⟨0, ?_⟩, ?_, rfl⟩
    · rw [stream, hstream]
      exact ⟨hbalanced.labels, hbalanced.pending⟩
    · rw [stream, hstream]
      exact .nil initial
  · rw [make, Pool.make_of_not_allowed hallowed] at h
    cases h

/-- Whoever takes steps in a session, in whatever order and at whatever times: each request about
the pool that the clerk is through with has one answer, which stands in its place among the outcomes
and says what became of the request, and the pool has the size that was accepted last. -/
theorem answers_in_order (serve : Server σ) {stores : σ}
    (h : make initial stores agenda = .ok session) (moves : List (Actor × Instant)) :
    Orderly initial ((session.follow serve moves).finished agenda)
        (session.follow serve moves).stream ∧
      ((session.follow serve moves).clerk = .ready →
        (session.follow serve moves).pool.size =
          granted initial ((session.follow serve moves).finished agenda)) := by
  obtain ⟨handled, ongoing, hcourse⟩ := (course_of_make h).follow moves
  rw [hcourse.finished_eq]
  refine ⟨hcourse.orderly, fun hready => ?_⟩
  have hstands := hcourse.stands
  rw [hready] at hstands
  cases hstands with
  | ready serving => exact serving.size

/-- A pool of one worker is asked for three. -/
theorem answers_in_order_resized :
    let agenda : List Instruction := [.setWorkers 3]
    let moves := List.replicate 6 (Actor.clerk, Date.first.start)
    ∃ session : Session Stock, make 1 .empty agenda = .ok session ∧
      (session.follow Stock.serve moves).finished agenda = agenda ∧
      (session.follow Stock.serve moves).stream = [⟨"workers", .ok "workers: 3"⟩] ∧
      Orderly 1 ((session.follow Stock.serve moves).finished agenda)
        (session.follow Stock.serve moves).stream ∧
      (session.follow Stock.serve moves).pool.size =
        granted 1 ((session.follow Stock.serve moves).finished agenda) :=
  ⟨_, rfl, rfl, rfl, (answers_in_order Stock.serve rfl _).1,
    (answers_in_order Stock.serve rfl _).2 rfl⟩

/-- A request for a size that no pool can have does not wait: here an order is accepted, the
request made after it has its answer, and the outcome of the acceptance comes later. -/
theorem refusal_overtakes :
    let command : Command :=
      .accept ⟨31, 432, ⟨21929, by decide, by decide⟩, .box, false, 100, 50⟩
    let agenda : List Instruction := [.run command, .setWorkers 0]
    let noon : Instant := ⟨1894276800, 0, by decide, by decide, by decide⟩
    let handing := List.replicate 7 (Actor.clerk, noon)
    let working := List.replicate 13 (Actor.worker 0, noon)
    ∃ session : Session Stock, make 1 .empty agenda = .ok session ∧
      (session.follow Stock.serve handing).finished agenda = agenda ∧
      (session.follow Stock.serve handing).stream = [⟨"workers", .error (Pool.sizeError 0)⟩] ∧
      (session.follow Stock.serve (handing ++ working)).stream.map Outcome.label =
        ["workers", command.label] :=
  ⟨_, rfl, rfl, rfl, rfl⟩

end Session

end ParcelDesk
