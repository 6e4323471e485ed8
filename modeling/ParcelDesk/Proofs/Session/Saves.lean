import ParcelDesk.Proofs.Desk.Commands
import ParcelDesk.Proofs.Desk.Reopening
import ParcelDesk.Proofs.Session.Affairs

/-!
# What sessions save

A stock that was saved by a session, which may have begun with what an earlier one saved, is settled
and can be opened anew, whatever happened in these sessions.
-/

namespace ParcelDesk

theorem Stock.later_advance (call : Call α) (time : Instant) (stock : Stock) :
    stock.Later (call.advance Stock.serve time stock).2 := by
  cases call with
  | done | fail | crash | readClock | announce => exact .refl stock
  | ask request next =>
      have hserve := later_serve request stock
      rcases hanswer : Stock.serve request stock with ⟨stop | answer, after⟩
      · rw [hanswer] at hserve
        cases stop with
        | error error =>
            rw [Call.advance_ask_fail hanswer]
            exact hserve
        | crash cause =>
            rw [Call.advance_ask_crash hanswer]
            exact hserve
      · rw [hanswer] at hserve
        rw [Call.advance_ask_ok hanswer]
        exact hserve

namespace Affairs

structure Lawful (start : Stock) (affairs : Affairs Stock) : Prop where
  settled : affairs.stores.Settled
  later : start.Later affairs.stores
  keeps : ∀ piece ∈ affairs.pieces, ∃ diary,
    piece.body.Keeps Desk.rules (fun _ _ _ => True) affairs.stores diary

namespace Lawful

variable {start : Stock} {affairs after : Affairs Stock} {time : Instant} {crashed : Prop}

theorem bring (h : affairs.Lawful start) {piece : Job (Call String)}
    (hpiece : piece.body.Keeps Desk.rules (fun _ _ _ => True) affairs.stores {})
    (waiting : List Instruction) :
    Lawful start { affairs with pieces := {piece} + affairs.pieces, waiting } where
  settled := h.settled
  later := h.later
  keeps := by
    intro other hother
    rcases Multiset.mem_add.1 hother with hnew | hold
    · rw [Multiset.mem_singleton.1 hnew]
      exact ⟨{}, hpiece⟩
    · exact h.keeps other hold

theorem grows (h : affairs.Lawful start) {piece : Job (Call String)} (hmem : piece ∈ affairs.pieces)
    (time : Instant) :
    affairs.stores.Grows (piece.body.advance Stock.serve time affairs.stores).2 := by
  obtain ⟨diary, hbody⟩ := h.keeps piece hmem
  exact (hbody.kept h.settled time).2

theorem goOn (h : affairs.Lawful start) {label : String} {body : Call String}
    {others : Multiset (Job (Call String))} (hpieces : affairs.pieces = {⟨label, body⟩} + others)
    (time : Instant) :
    Lawful start { affairs with
      pieces := {⟨label, (body.advance Stock.serve time affairs.stores).1⟩} + others
      stores := (body.advance Stock.serve time affairs.stores).2 } := by
  have hmem : ⟨label, body⟩ ∈ affairs.pieces := by
    rw [hpieces]
    exact Multiset.mem_add.2 (.inl (Multiset.mem_singleton_self _))
  obtain ⟨diary, hbody⟩ := h.keeps _ hmem
  refine ⟨(hbody.kept h.settled time).1,
    h.later.trans (Stock.later_advance body time affairs.stores), ?_⟩
  intro piece hpiece
  rcases Multiset.mem_add.1 hpiece with hnew | hold
  · rw [Multiset.mem_singleton.1 hnew]
    exact ⟨_, hbody.advance h.settled time⟩
  · have hbefore : piece ∈ affairs.pieces := by
      rw [hpieces]
      exact Multiset.mem_add.2 (.inr hold)
    obtain ⟨diary, hkeeps⟩ := h.keeps piece hbefore
    exact ⟨diary, hkeeps.later (fun _ _ _ _ _ _ => True.intro) (h.grows hmem time)⟩

theorem step (h : affairs.Lawful start) (hstep : affairs.Step Stock.serve time crashed after) :
    after.Lawful start := by
  cases hstep with
  | rest => exact h
  | goOn label body others hpieces => exact h.goOn hpieces time
  | crash hcrashed label body others hpieces =>
      have hgone := h.goOn hpieces time
      exact ⟨hgone.settled, hgone.later, fun piece hpiece =>
        hgone.keeps piece (Multiset.mem_add.2 (.inr hpiece))⟩
  | send command later hwaiting =>
      exact h.bring (Desk.execute_keeps command affairs.stores) later
  | answer request later result hasks hwaiting =>
      refine h.bring ?_ later
      cases result with
      | ok text => exact .done True.intro
      | error error => exact .fail True.intro

end Lawful

end Affairs

/-- What the program saves: the snapshot that it creates where none is, and the stores of a session
that began with a saved snapshot. A session saves when it ends, which it may do early; here it may
save whenever it likes. -/
inductive Saved : List Char → Prop
  | fresh : Saved "{}".toList
  | session {octets : List Char} {stock : Stock} {workers : UInt64} {agenda : List Instruction}
      {session : Session Stock} (h : Saved octets) (hopen : Stock.ofSnapshot octets = .ok stock)
      (hmake : Session.make workers stock agenda = .ok session)
      (moves : List (Actor × Instant)) (scribe : Scribe) :
      Saved (Octets.ofBytes (Octets.toBytes
        (scribe.write (session.follow Stock.serve moves).office.stores)))

namespace Session

variable {workers : UInt64} {stock : Stock} {agenda : List Instruction} {session : Session Stock}

theorem lawful_of_make (hmake : make workers stock agenda = .ok session)
    (hsettled : stock.Settled) : (session.affairs none).Lawful stock := by
  rw [(staffed_of_make hmake).2.2]
  exact ⟨hsettled, .refl stock, fun piece hpiece => absurd hpiece (Multiset.notMem_zero piece)⟩

theorem lawful_follow (hmake : make workers stock agenda = .ok session) (hsettled : stock.Settled)
    (moves : List (Actor × Instant)) :
    (session.follow Stock.serve moves).office.stores.Settled ∧
      stock.Later (session.follow Stock.serve moves).office.stores := by
  obtain ⟨next, -, hlawful⟩ := (staffed_of_make hmake).1.follow
    (lawful_of_make hmake hsettled) (fun _ _ _ hlawful hstep => hlawful.step hstep) moves
  exact ⟨hlawful.settled, hlawful.later⟩

end Session

theorem Saved.opens {octets : List Char} (h : Saved octets) :
    ∃ stock, Stock.ofSnapshot octets = .ok stock ∧ stock.Settled ∧ stock.Covered ∧
      stock.PlacesFit := by
  induction h with
  | fresh =>
      exact ⟨.empty, Stock.ofSnapshot_fresh, Stock.settled_empty, Stock.covered_empty,
        Stock.placesFit_of_ofSnapshot Stock.ofSnapshot_fresh⟩
  | @session octets stock workers agenda session _ hopen hmake moves scribe ih =>
      obtain ⟨found, hfound, hsettled, hcovered, hfit⟩ := ih
      cases hopen.symm.trans hfound
      obtain ⟨hfinal, hlater⟩ := Session.lawful_follow hmake hsettled moves
      have hplaces := hlater.placesFit hfit (.inl hcovered)
      exact ⟨_, hplaces.reopen scribe, hfinal, hlater.covered hcovered, hplaces⟩

/-- Whatever happens in a session that began with a saved snapshot, its stores are found again in
the file to which they are saved. -/
theorem Saved.reopen_follow {octets : List Char} {stock : Stock} {workers : UInt64}
    {agenda : List Instruction} {session : Session Stock} (h : Saved octets)
    (hopen : Stock.ofSnapshot octets = .ok stock)
    (hmake : Session.make workers stock agenda = .ok session) (moves : List (Actor × Instant))
    (scribe : Scribe) :
    (session.follow Stock.serve moves).office.stores.reopen scribe =
      .ok (session.follow Stock.serve moves).office.stores := by
  obtain ⟨found, hfound, hsettled, hcovered, hfit⟩ := h.opens
  cases hopen.symm.trans hfound
  have hlater := (Session.lawful_follow hmake hsettled moves).2
  exact (hlater.placesFit hfit (.inl hcovered)).reopen scribe

end ParcelDesk
