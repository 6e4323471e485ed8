import Mathlib.Data.List.Perm.Basic
import ParcelDesk.Proofs.Session.Saves

/-!
# Tickets

Every instruction with which something was done has a ticket: what is left of it, and the pages on
which its change of the stock stands, or what it saw there at a glance. All pages in the order in
which they were written tell how the stock came to be what it is.
-/

namespace ParcelDesk

/-- What happened between two stocks: changes and glances, one right after the other. -/
inductive Tale : Stock → List (Mutation Stock) → Stock → Prop
  | nil (stock : Stock) : Tale stock [] stock
  | cons {before after final : Stock} {request : Request} {rest : List (Mutation Stock)}
      (hsettled : before.Settled) (hrest : Tale after rest final) :
      Tale before (⟨request, before, after⟩ :: rest) final

theorem Tale.append {start middle final : Stock} {pages more : List (Mutation Stock)}
    (h : Tale start pages middle) (hmore : Tale middle more final) :
    Tale start (pages ++ more) final := by
  induction h with
  | nil => exact hmore
  | cons hsettled hrest ih => exact .cons hsettled (ih hmore)

def Instruction.title : Instruction → String
  | .run command => command.label
  | .setWorkers _ | .countWorkers => "workers"

theorem Instruction.title_of_asksPool {request : Instruction} (h : request.asksPool = true) :
    request.title = "workers" := by
  cases request with
  | run command => cases h
  | setWorkers | countWorkers => rfl

structure Ticket where
  instruction : Instruction
  left : Call String
  pages : List (Mutation Stock) := []

namespace Ticket

def piece (ticket : Ticket) : Job (Call String) :=
  ⟨ticket.instruction.title, ticket.left⟩

def notes (ticket : Ticket) : List (Instruction × Mutation Stock) :=
  ticket.pages.map fun page => (ticket.instruction, page)

def goOn (ticket : Ticket) (time : Instant) (stock : Stock) (more : List (Mutation Stock)) :
    Ticket :=
  { ticket with
    left := (ticket.left.advance Stock.serve time stock).1
    pages := ticket.pages ++ more }

theorem notes_goOn (ticket : Ticket) (time : Instant) (stock : Stock)
    (more : List (Mutation Stock)) :
    (ticket.goOn time stock more).notes =
      ticket.notes ++ more.map fun page => (ticket.instruction, page) :=
  List.map_append

/-- How a ticket may stand while the clock stands still. -/
inductive Honest (time : Instant) (stock : Stock) : Ticket → Prop
  | deed (deed : Deed) (left : Call String) (looks : List Instant) (pages : List (Mutation Stock))
      (hstill : ∀ look ∈ looks, look = time)
      (hkeeps : left.Keeps Desk.rules deed.Reported stock ⟨looks, pages⟩) :
      Honest time stock ⟨.run deed.command, left, pages⟩
  | unseen (command : Command) (hglance : (Desk.execute command).IsGlance) :
      Honest time stock ⟨.run command, Desk.execute command, []⟩
  | seen (command : Command) (text : String) (page : Mutation Stock)
      (hyields : (Desk.execute command).Yields Stock.serve time page.before text page.after) :
      Honest time stock ⟨.run command, .done text, [page]⟩
  | refused (instruction : Instruction) (error : Error) :
      Honest time stock ⟨instruction, .fail error, []⟩
  | answered (request : Instruction) (text : String) (hasks : request.asksPool = true) :
      Honest time stock ⟨request, .done text, []⟩

variable {ticket : Ticket} {time : Instant} {stock : Stock}

theorem honest_command (command : Command) (time : Instant) (stock : Stock) :
    Honest time stock ⟨.run command, Desk.execute command, []⟩ := by
  obtain ⟨deed, rfl⟩ | hglance := Desk.deed_or_glance command
  · exact .deed deed _ [] [] (List.forall_mem_nil _) (Desk.execute_reported deed stock)
  · exact .unseen command hglance

theorem honest_answer {request : Instruction} (h : request.asksPool = true)
    (result : Except Error String) (time : Instant) (stock : Stock) :
    Honest time stock ⟨request, Call.ofExcept result, []⟩ := by
  cases result with
  | ok text => exact .answered request text h
  | error error => exact .refused request error

namespace Honest

theorem later (h : ticket.Honest time stock) {after : Stock} (hgrows : stock.Grows after) :
    ticket.Honest time after := by
  cases h with
  | deed deed left looks pages hstill hkeeps =>
      exact .deed deed left looks pages hstill
        (hkeeps.later (fun _ _ later _ hreported _ => hreported.later later) hgrows)
  | unseen command hglance => exact .unseen command hglance
  | seen command text page hyields => exact .seen command text page hyields
  | refused instruction error => exact .refused instruction error
  | answered request text hasks => exact .answered request text hasks

/-- A step of what is left of a ticket is written on more pages. -/
theorem advance (h : ticket.Honest time stock) (hsettled : stock.Settled) :
    ∃ more, Tale stock more (ticket.left.advance Stock.serve time stock).2 ∧
      Honest time (ticket.left.advance Stock.serve time stock).2
        (ticket.goOn time stock more) := by
  cases h with
  | deed deed left looks pages hstill hkeeps =>
      -- A step makes no change or one, and what it saw of the clock was the time that it always is.
      refine ⟨left.mutations Stock.serve stock, ?_, .deed deed _ (looks ++ left.looks time) _ ?_
        (hkeeps.advance hsettled time)⟩
      · obtain ⟨hnone, hstock⟩ | ⟨request, after, hone, hstock, -, -⟩ :=
          Counter.advance_cases hkeeps hsettled time
        · rw [hnone, hstock]
          exact .nil stock
        · rw [hone, hstock]
          exact .cons hsettled (.nil after)
      · intro look hlook
        rcases List.mem_append.1 hlook with hold | hnew
        · exact hstill look hold
        · exact Call.eq_of_mem_looks hnew
  | unseen command hglance =>
      obtain ⟨result, hadvance, hyields⟩ := hglance.advance time stock
      obtain ⟨request, -⟩ := hglance
      simp only [Ticket.goOn, hadvance]
      -- What was seen gets a page of its own, so that it has a place in the order of all changes.
      cases result with
      | ok text =>
          exact ⟨[⟨request, stock, stock⟩], .cons hsettled (.nil stock),
            .seen command text _ (hyields text rfl)⟩
      | error error => exact ⟨[], .nil stock, .refused _ error⟩
  | seen command text page hyields => exact ⟨[], .nil stock, .seen command text page hyields⟩
  | refused instruction error => exact ⟨[], .nil stock, .refused instruction error⟩
  | answered request text hasks => exact ⟨[], .nil stock, .answered request text hasks⟩

end Honest

end Ticket

/-- The work in hand is that of the tickets, and the log holds their pages and tells how the stores
came to be what they are. -/
structure Affairs.Traced (time : Instant) (start : Stock) (agenda : List Instruction)
    (affairs : Affairs Stock) (tickets : List Ticket) (log : List (Instruction × Mutation Stock)) :
    Prop where
  pieces : affairs.pieces = ↑(tickets.map Ticket.piece)
  agenda : agenda = tickets.map Ticket.instruction ++ affairs.waiting
  honest : ∀ ticket ∈ tickets, ticket.Honest time affairs.stores
  tale : Tale start (log.map Prod.snd) affairs.stores
  notes : (log : Multiset (Instruction × Mutation Stock)) = ↑(tickets.flatMap Ticket.notes)

namespace Affairs.Traced

variable {time : Instant} {start : Stock} {agenda : List Instruction}
  {affairs after : Affairs Stock} {tickets : List Ticket}
  {log : List (Instruction × Mutation Stock)}

theorem issue (h : affairs.Traced time start agenda tickets log) {ticket : Ticket}
    (hhonest : ticket.Honest time affairs.stores) (hpages : ticket.pages = [])
    {later : List Instruction} (hwaiting : affairs.waiting = ticket.instruction :: later) :
    Traced time start agenda
      { affairs with pieces := {ticket.piece} + affairs.pieces, waiting := later }
      (tickets ++ [ticket]) log where
  pieces := by
    rw [h.pieces, List.map_append, ← Multiset.coe_add, add_comm]
    rfl
  agenda := by
    rw [h.agenda, hwaiting, List.map_append, List.append_assoc]
    rfl
  honest := by
    intro other hother
    rcases List.mem_append.1 hother with hold | hnew
    · exact h.honest other hold
    · rw [List.mem_singleton.1 hnew]
      exact hhonest
  tale := h.tale
  notes := by
    have hnone : ticket.notes = [] := by rw [Ticket.notes, hpages, List.map_nil]
    rw [h.notes, List.flatMap_append, List.flatMap_singleton, hnone, List.append_nil]

theorem goOn (h : affairs.Traced time start agenda tickets log) (hlawful : affairs.Lawful start)
    {label : String} {body : Call String} {others : Multiset (Job (Call String))}
    (hpieces : affairs.pieces = {⟨label, body⟩} + others) :
    ∃ tickets log, Traced time start agenda
      { affairs with
        pieces := {⟨label, (body.advance Stock.serve time affairs.stores).1⟩} + others
        stores := (body.advance Stock.serve time affairs.stores).2 } tickets log := by
  have hmem : ⟨label, body⟩ ∈ affairs.pieces := by
    rw [hpieces]
    exact Multiset.mem_add.2 (.inl (Multiset.mem_singleton_self _))
  have hgrows := hlawful.grows hmem time
  rw [h.pieces, Multiset.mem_coe, List.mem_map] at hmem
  obtain ⟨ticket, hticket, hpiece⟩ := hmem
  cases hpiece
  obtain ⟨more, htale, hhonest⟩ := (h.honest ticket hticket).advance hlawful.settled
  obtain ⟨before, behind, rfl⟩ := List.append_of_mem hticket
  have hsplit (ticket : Ticket) : (↑((before ++ ticket :: behind).map Ticket.piece) :
      Multiset (Job (Call String))) = {ticket.piece} + ↑((before ++ behind).map Ticket.piece) :=
    Multiset.coe_eq_coe.2 (List.perm_middle.map Ticket.piece)
  have hothers : others = ↑((before ++ behind).map Ticket.piece) := by
    have hsame := h.pieces
    rw [hpieces, hsplit] at hsame
    exact add_left_cancel hsame
  refine ⟨before ++ ticket.goOn time affairs.stores more :: behind,
    log ++ more.map fun page => (ticket.instruction, page), ?_, ?_, ?_, ?_, ?_⟩
  · rw [hsplit, hothers]
    rfl
  · rw [h.agenda, List.map_append, List.map_append]
    rfl
  · intro other hother
    rcases List.mem_append.1 hother with hbefore | hfrom
    · exact (h.honest other (List.mem_append_left _ hbefore)).later hgrows
    · rcases List.mem_cons.1 hfrom with rfl | hbehind
      · exact hhonest
      · exact (h.honest other
          (List.mem_append_right _ (List.mem_cons_of_mem _ hbehind))).later hgrows
  · have hpages : (more.map fun page => (ticket.instruction, page)).map Prod.snd = more := by
      rw [List.map_map]
      exact List.map_id more
    rw [List.map_append, hpages]
    exact h.tale.append htale
  · have hnotes := h.notes
    simp only [List.flatMap_append, List.flatMap_cons, Ticket.notes_goOn, ← Multiset.coe_add]
      at hnotes ⊢
    rw [hnotes]
    abel

theorem step (h : affairs.Traced time start agenda tickets log) (hlawful : affairs.Lawful start)
    (hstep : affairs.Step Stock.serve time False after) :
    ∃ tickets log, after.Traced time start agenda tickets log := by
  cases hstep with
  | rest => exact ⟨tickets, log, h⟩
  | goOn label body others hpieces => exact h.goOn hlawful hpieces
  | crash hcrashed => exact hcrashed.elim
  | send command later hwaiting =>
      exact ⟨_, log, h.issue (Ticket.honest_command command time affairs.stores) rfl hwaiting⟩
  | answer request later result hasks hwaiting =>
      have htitle : Ticket.piece ⟨request, Call.ofExcept result, []⟩ =
          Outcome.piece ⟨"workers", result⟩ := by
        rw [Ticket.piece, Instruction.title_of_asksPool hasks]
        rfl
      rw [← htitle]
      exact ⟨_, log,
        h.issue (Ticket.honest_answer hasks result time affairs.stores) rfl hwaiting⟩

end Affairs.Traced

structure Affairs.Accounted (time : Instant) (start : Stock) (agenda : List Instruction)
    (affairs : Affairs Stock) : Prop where
  lawful : affairs.Lawful start
  traced : ∃ tickets log, affairs.Traced time start agenda tickets log

namespace Affairs.Accounted

variable {time : Instant} {start : Stock} {agenda : List Instruction}
  {affairs after : Affairs Stock}

theorem step (h : affairs.Accounted time start agenda)
    (hstep : affairs.Step Stock.serve time False after) : after.Accounted time start agenda := by
  obtain ⟨tickets, log, htraced⟩ := h.traced
  exact ⟨h.lawful.step hstep, htraced.step h.lawful hstep⟩

theorem make {workers : UInt64} {session : Session Stock}
    (hmake : Session.make workers start agenda = .ok session) (hsettled : start.Settled)
    (time : Instant) : (session.affairs none).Accounted time start agenda := by
  refine ⟨Session.lawful_of_make hmake hsettled, ?_⟩
  rw [(Session.staffed_of_make hmake).2.2]
  exact ⟨[], [], rfl, rfl, List.forall_mem_nil _, .nil start, rfl⟩

end Affairs.Accounted

end ParcelDesk
