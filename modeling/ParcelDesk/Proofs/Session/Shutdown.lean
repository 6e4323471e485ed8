import ParcelDesk.Proofs.Session.Tickets

/-!
# What is saved at the end

A session in which no command crashed and that is over has one outcome for each instruction. What it
saves is what the commands that were told as successes leave when they are run one after the other
in some order, each with the result it was told to have; the others have left no trace.
-/

namespace ParcelDesk

/-- The command that an outcome tells as a success, with what it was told to have come to. -/
def credit? : Instruction × Outcome → Option (Command × String)
  | (.run command, ⟨_, .ok text⟩) => some (command, text)
  | _ => none

/-- The commands that the outcomes tell as successes, each with its result. -/
def acknowledged (agenda : List Instruction) (lines : List Outcome) : List (Command × String) :=
  (agenda.zip lines).filterMap credit?

/-- Alone on the stock on which a note was made, the command does what was noted and comes to the
result it was told to have. -/
structure Bears (time : Instant) (note : Instruction × Mutation Stock) (credit : Command × String) :
    Prop where
  instruction : note.1 = .run credit.1
  yields : note.2.before.Settled →
    (Desk.execute credit.1).Yields Stock.serve time note.2.before credit.2 note.2.after

namespace Ticket

variable {time : Instant} {stock : Stock}

/-- A ticket with nothing left has one note if it was told as a success, and else none. -/
theorem Honest.ended {ticket : Ticket} {line : Outcome} (h : ticket.Honest time stock)
    (hover : ticket.left = Call.ofExcept line.result) :
    List.Forall₂ (Bears time) ticket.notes (credit? (ticket.instruction, line)).toList := by
  obtain ⟨label, result⟩ := line
  cases h with
  | deed deed left looks pages hstill hkeeps =>
      cases hover
      cases result with
      | ok text =>
          cases hkeeps with
          | done hreported =>
              obtain ⟨page, hpages, hyields⟩ := hreported.success hstill
              cases hpages
              exact .cons ⟨rfl, hyields⟩ .nil
      | error error =>
          cases hkeeps with
          | fail hreported =>
              cases hreported.failure
              exact .nil
  | unseen command hglance =>
      obtain ⟨request, next, hcall, -⟩ := hglance
      rw [hcall] at hover
      cases result <;> cases hover
  | seen command text page hyields =>
      cases result with
      | ok told =>
          cases hover
          exact .cons ⟨rfl, fun _ => hyields⟩ .nil
      | error error => cases hover
  | refused instruction error =>
      cases result with
      | ok told => cases hover
      | error told => cases instruction <;> exact .nil
  | answered request text hasks =>
      cases request with
      | run command => cases hasks
      | setWorkers | countWorkers => exact .nil

theorem notes_bear {tickets : List Ticket} {lines : List Outcome}
    (hhonest : ∀ ticket ∈ tickets, ticket.Honest time stock)
    (hlines : tickets.map Ticket.piece = lines.map Outcome.piece) :
    List.Forall₂ (Bears time) (tickets.flatMap Ticket.notes)
      (acknowledged (tickets.map Ticket.instruction) lines) := by
  induction tickets generalizing lines with
  | nil => exact .nil
  | cons ticket tickets ih =>
      cases lines with
      | nil => cases hlines
      | cons line lines =>
          rw [List.map_cons, List.map_cons, List.cons.injEq] at hlines
          have hover : ticket.left = Call.ofExcept line.result :=
            congrArg Job.body hlines.1
          have hrest := ih (fun other hother => hhonest other (List.mem_cons_of_mem _ hother))
            hlines.2
          have hfirst := (hhonest ticket List.mem_cons_self).ended hover
          have hcredits :
              acknowledged ((ticket :: tickets).map Ticket.instruction) (line :: lines) =
                (credit? (ticket.instruction, line)).toList ++
                  acknowledged (tickets.map Ticket.instruction) lines := by
            rw [acknowledged, List.map_cons, List.zip_cons_cons, List.filterMap_cons]
            cases credit? (ticket.instruction, line) <;> rfl
          rw [List.flatMap_cons, hcredits]
          exact List.rel_append hfirst hrest

end Ticket

theorem Tale.inTurn {time : Instant} {start final : Stock}
    {log : List (Instruction × Mutation Stock)} {order : List (Command × String)}
    (h : Tale start (log.map Prod.snd) final) (hbears : List.Forall₂ (Bears time) log order) :
    Command.inTurn time (order.map Prod.fst) start =
      (order.map fun credit => .ok credit.2, final) := by
  induction hbears generalizing start with
  | nil =>
      cases h
      rfl
  | @cons note credit log order hbear hbears ih =>
      obtain ⟨instruction, request, before, after⟩ := note
      cases h with
      | cons hsettled hrest => exact Command.inTurn_cons (hbear.yields hsettled) (ih hrest)

/-- The outcomes of an agenda square with what has become of the stock. -/
structure Squares (agenda : List Instruction) (outcomes : List Outcome) (time : Instant)
    (stock final : Stock) (lines : List Outcome) (order : List (Command × String)) : Prop where
  /-- The lines are the outcomes, put in the order of the instructions, one for each. -/
  lines_perm : lines.Perm outcomes
  labels_eq : lines.map Outcome.label = agenda.map Instruction.title
  /-- The order is one of the commands that the lines tell as successes. -/
  order_perm : order.Perm (acknowledged agenda lines)
  /-- Run in this order, they come to the same results and leave the same stock. -/
  inTurn_eq : Command.inTurn time (order.map Prod.fst) stock =
    (order.map fun credit => .ok credit.2, final)

namespace Session

variable {session : Session Stock} {stock : Stock} {workers : UInt64} {agenda : List Instruction}
  {time : Instant}

theorem pieces_of_deserted (h : session.pool.floor.Deserted) :
    session.pieces = ↑(session.stream.map Outcome.piece) := by
  have hfree : (session.pool.workers.map Worker.pieces).sum = 0 := by
    refine List.sum_eq_zero fun pieces hpieces => ?_
    obtain ⟨worker, hworker, rfl⟩ := List.mem_map.1 hpieces
    have hgone := List.all_eq_true.1 h.workers worker hworker
    cases worker with
    | gone => rfl
    | atStop | atQueue | waiting | running _ | reporting _ | counting _ | waking _ => cases hgone
  have hjobs : session.pool.jobs = [] := h.jobs
  rw [pieces, hfree, hjobs, Multiset.coe_nil, zero_add, zero_add]

theorem squares_of_gone {carried : Option Instruction} {tickets : List Ticket}
    {log : List (Instruction × Mutation Stock)} (hstaffed : session.Staffed carried)
    (hattended : session.Attended)
    (htraced : (session.affairs carried).Traced time stock agenda tickets log)
    (hgone : session.clerk = .gone (.ok ())) :
    ∃ lines order, Squares agenda session.stream time stock session.office.stores lines order := by
  have hnone : carried.toList ++ session.agenda = [] := by
    have hengaged := hstaffed.engaged
    rw [hgone] at hengaged
    cases hengaged with
    | gone hnone => exact hnone
  have hagenda : agenda = tickets.map Ticket.instruction := by
    rw [htraced.agenda]
    change _ ++ (carried.toList ++ session.agenda) = _
    rw [hnone, List.append_nil]
  have hperm : (tickets.map Ticket.piece).Perm (session.stream.map Outcome.piece) := by
    rw [← Multiset.coe_eq_coe, ← htraced.pieces]
    exact pieces_of_deserted (hattended.deserted hgone)
  -- The outcomes came as the work was done; `lines` has them in the order of the tickets.
  obtain ⟨lines, hlines, hstream⟩ :
      Relation.Comp (fun pieces lines => pieces = lines.map Outcome.piece) List.Perm
        (tickets.map Ticket.piece) session.stream := by
    rw [List.eq_map_comp_perm]
    exact hperm
  have hbear := Ticket.notes_bear htraced.honest hlines
  -- The log has the notes of all tickets in the order of the changes, and so orders the successes.
  obtain ⟨order, hbears, horder⟩ :=
    List.perm_comp_forall₂ (Multiset.coe_eq_coe.1 htraced.notes) hbear
  refine ⟨lines, order, hstream, ?_, ?_, htraced.tale.inTurn hbears⟩
  · have hlabels := congrArg (List.map Job.label) hlines
    rw [List.map_map, List.map_map] at hlabels
    rw [hagenda, List.map_map]
    exact hlabels.symm
  · rw [hagenda]
    exact horder

/-- Whoever takes steps in a session, in whatever order: if no command crashes and the clerk has
left in peace, then each instruction has one outcome, and the stores are left as the commands that
are told as successes, and no others, leave them when they are run one after the other in some
order. -/
theorem squares_of_calm (hmake : make workers stock agenda = .ok session) (hsettled : stock.Settled)
    (moves : List Actor) (hcalm : session.isCalm Stock.serve (moves.map (·, time)) = true)
    (hgone : (session.follow Stock.serve (moves.map (·, time))).clerk = .gone (.ok ())) :
    ∃ lines order, Squares agenda (session.follow Stock.serve (moves.map (·, time))).stream time
      stock (session.follow Stock.serve (moves.map (·, time))).office.stores lines order := by
  obtain ⟨hstaffed, hattended, -⟩ := staffed_of_make hmake
  have haccounted := Affairs.Accounted.make hmake hsettled time
  obtain ⟨carried, hfinal, hlast, hover⟩ := hattended.follow hstaffed haccounted
    (fun _ _ haccounted hstep => haccounted.step hstep) moves hcalm
  obtain ⟨tickets, log, htraced⟩ := hover.traced
  exact squares_of_gone hfinal hlast htraced hgone

end Session

end ParcelDesk
