import ParcelDesk.CommandLine.Disk
import ParcelDesk.Proofs.Session.Shutdown
import ParcelDesk.Proofs.Session.Turns

/-!
# What a run leaves on the disk

A run of the program finds a snapshot and a sheet, lets a session take place and saves its stores
when the session has ended well. The snapshot that is on the disk then squares with the report,
whoever took the next step in the session and in whatever order the snapshot was written.
-/

namespace ParcelDesk

theorem Session.make_eq_map (workers : UInt64) (stores : σ) (agenda : List Instruction) :
    make workers stores agenda =
      (make workers stores []).map fun session => { session with agenda } := by
  rw [make, make]
  cases Pool.make workers (2 * workers.toNat) <;> rfl

namespace CommandLine

namespace Disk

variable {disk later : Disk} {path : String} {octets content : List Char}

theorem find_of_write? (h : disk.write? path octets = some later) :
    later.find path = .file (Octets.ofBytes (Octets.toBytes octets)) := by
  rw [write?] at h
  split at h
  next => cases h
  next hfit =>
    cases h
    simp only [Bool.or_eq_true, decide_eq_true_eq, not_or, Bool.not_eq_true] at hfit
    obtain ⟨⟨hfile, htext⟩, -⟩ := hfit
    rw [find, if_neg hfile, List.lookup_cons, beq_self_eq_true]
    simp [htext]

theorem exists_write? (hfound : disk.find path = .file content)
    (hplace : (Path.ofText path).dropLast ∈ disk.directories) (octets : List Char) :
    ∃ later, disk.write? path octets = some later := by
  rw [find] at hfound
  split at hfound
  next => cases hfound
  next hfile =>
    split at hfound
    next found hlookup =>
      split at hfound
      next => cases hfound
      next htext =>
        refine ⟨_, if_neg ?_⟩
        simp [hfile, htext, hplace]
    next =>
      split at hfound <;> cases hfound

end Disk

namespace Program

variable {disk later : Disk} {path : String} {time : Instant} {session : Session Stock}
  {scribe : Scribe}

theorem onDisk_tellAll (notices : List Notice) (next : Program) (time : Instant) (disk : Disk) :
    (tellAll notices next).onDisk time disk =
      { next.onDisk time disk with notices := notices ++ (next.onDisk time disk).notices } := by
  induction notices with
  | nil => rfl
  | cons notice rest ih =>
      have hcons : (tellAll (notice :: rest) next).onDisk time disk =
          { (tellAll rest next).onDisk time disk with
            notices := notice :: ((tellAll rest next).onDisk time disk).notices } := rfl
      rw [hcons, ih]
      rfl

theorem onDisk_conclude_of_gone (hgone : session.clerk = .gone (.ok ()))
    (hwrite : disk.write? path (scribe.write session.office.stores) = some later) :
    (conclude scribe (some path) session).onDisk time disk =
      ⟨0, session.report, session.office.news.map .news, later⟩ := by
  rw [conclude, onDisk_tellAll, hgone]
  simp [onDisk, saveStock, save, hwrite]

theorem onDisk_conclude_of_ne (h : session.clerk ≠ .gone (.ok ())) (scribe : Scribe)
    (path : String) (time : Instant) (disk : Disk) :
    ∃ error, (conclude scribe (some path) session).onDisk time disk =
      ⟨1, session.report, session.office.news.map .news ++ [.failure error], disk⟩ := by
  rw [conclude, onDisk_tellAll]
  split
  next hgone => exact absurd hgone h
  next error _ =>
    refine ⟨error, ?_⟩
    simp [onDisk, giveUp]
  next =>
    refine ⟨.internal "the session has come to a halt", ?_⟩
    simp [onDisk, giveUp]

end Program

instance : DecidablePred fun clerk : Clerk => clerk = .gone (.ok ())
  | .ready | .calling .. => .isFalse fun h => nomatch h
  | .gone (.error _) => .isFalse fun h => nomatch h
  | .gone (.ok ()) => .isTrue rfl

/-- What a run finds: a snapshot that the program saved, in a directory, and a sheet for which there
are workers. -/
structure Launch (options : Options) (disk : Disk) (path : String) (stock : Stock)
    (agenda : List Instruction) (session : Session Stock) : Prop where
  path_eq : options.snapshot = some path
  snapshot : ∃ octets, disk.find path = .file octets ∧ Saved octets ∧
    Stock.ofSnapshot octets = .ok stock
  place : (Path.ofText path).dropLast ∈ disk.directories
  sheet : ∃ octets, disk.find options.commands = .file octets ∧
    agenda = valuesOf (Sheet.instructions octets)
  made : Session.make options.workers stock agenda = .ok session

namespace Launch

variable {options : Options} {disk : Disk} {path : String} {stock : Stock}
  {agenda : List Instruction} {session : Session Stock} {time : Instant}

theorem onDisk_runBy (h : Launch options disk path stock agenda session)
    (play : Instant → Session Stock → Session Stock) (scribe : Scribe) (time : Instant) :
    ∃ notices, (Program.runBy play scribe options).onDisk time disk =
      let ended := (Program.conclude scribe (some path) (play time session)).onDisk time disk
      { ended with notices := notices ++ ended.notices } := by
  obtain ⟨octets, hfound, -, hopen⟩ := h.snapshot
  obtain ⟨sheet, hsheet, rfl⟩ := h.sheet
  have hmade := h.made
  rw [Session.make_eq_map] at hmade
  obtain ⟨fresh, hfresh, rfl⟩ := Json.map_eq_ok hmade
  refine ⟨(errorsOf (Sheet.instructions sheet)).map .unreadable, ?_⟩
  rw [Program.runBy, h.path_eq, Program.openStock, Program.onDisk, hfound]
  simp only [hopen, Program.orGiveUp, hfresh, Program.readSheet, Program.onDisk, hsheet,
    Program.onDisk_tellAll]

theorem saved (h : Launch options disk path stock agenda session) (moves : List (Actor × Instant))
    {scribe : Scribe} {later : Disk}
    (hwrite : disk.write? path
      (scribe.write (session.follow Stock.serve moves).office.stores) = some later) :
    ∃ file, later.find path = .file file ∧ Saved file ∧
      Stock.ofSnapshot file = .ok (session.follow Stock.serve moves).office.stores := by
  obtain ⟨octets, -, hsaved, hopen⟩ := h.snapshot
  exact ⟨_, Disk.find_of_write? hwrite, .session hsaved hopen h.made moves scribe,
    hsaved.reopen_follow hopen h.made moves scribe⟩

theorem squares (h : Launch options disk path stock agenda session) (moves : List Actor)
    (hcalm : session.isCalm Stock.serve (moves.map (·, time)) = true)
    (hgone : (session.follow Stock.serve (moves.map (·, time))).clerk = .gone (.ok ())) :
    ∃ lines order, Squares agenda (session.follow Stock.serve (moves.map (·, time))).stream time
      stock (session.follow Stock.serve (moves.map (·, time))).office.stores lines order := by
  obtain ⟨octets, -, hsaved, hopen⟩ := h.snapshot
  obtain ⟨found, hfound, hsettled, -⟩ := hsaved.opens
  cases hopen.symm.trans hfound
  exact Session.squares_of_calm h.made hsettled moves hcalm hgone

/-- Whoever takes the next step in the session of a run and in whatever order its snapshot is
written: if no command crashes and all outcomes are read, then the report tells them, and the run
succeeds just if the clerk has left in peace. The file then holds a stock as the commands that are
told as successes, and no others, leave it when they are run one after the other in some order; if
the run fails, the disk is left as it was. -/
theorem acknowledged_saved (h : Launch options disk path stock agenda session)
    (play : Instant → Session Stock → Session Stock) (scribe : Scribe) {moves : List Actor}
    (hplay : play time session = session.follow Stock.serve (moves.map (·, time)))
    (hcalm : session.isCalm Stock.serve (moves.map (·, time)) = true)
    (hread : (play time session).pool.results = []) :
    let ended := play time session
    let left := (Program.runBy play scribe options).onDisk time disk
    left.output = Report.render ended.outcomes ∧
      (left.code = 0 ↔ ended.clerk = .gone (.ok ())) ∧
      (left.code = 0 → ∃ file final lines order, left.disk.find path = .file file ∧ Saved file ∧
        Stock.ofSnapshot file = .ok final ∧
        Squares agenda ended.outcomes time stock final lines order) ∧
      (left.code ≠ 0 → left.disk = disk) := by
  obtain ⟨notices, hrun⟩ := h.onDisk_runBy play scribe time
  simp only [hrun]
  rw [hplay] at hread ⊢
  by_cases hgone : (session.follow Stock.serve (moves.map (·, time))).clerk = .gone (.ok ())
  · obtain ⟨octets, hfound, -⟩ := h.snapshot
    obtain ⟨later, hwrite⟩ := Disk.exists_write? hfound h.place
      (scribe.write (session.follow Stock.serve (moves.map (·, time))).office.stores)
    obtain ⟨file, hfile, hsaved, hopens⟩ := h.saved (moves.map (·, time)) hwrite
    obtain ⟨lines, order, hsquares⟩ := h.squares moves hcalm hgone
    rw [Session.stream, hread, List.append_nil] at hsquares
    rw [Program.onDisk_conclude_of_gone hgone hwrite]
    exact ⟨rfl, iff_of_true rfl hgone,
      fun _ => ⟨file, _, lines, order, hfile, hsaved, hopens, hsquares⟩,
      fun hcode => absurd rfl hcode⟩
  · obtain ⟨error, hended⟩ := Program.onDisk_conclude_of_ne hgone scribe path time disk
    rw [hended]
    exact ⟨rfl, iff_of_false Nat.one_ne_zero hgone, fun hcode => absurd hcode Nat.one_ne_zero,
      fun _ => rfl⟩

/-- A run as the program has it, with two workers. An order is accepted and listed, another one
cannot be given because nobody handed it in. -/
theorem acknowledged_saved_run :
    let sheet := "op,user,orders,expiration,package,weight,cost\n".toList ++
      "accept,31,432,15-01-2030,box,100,50\ngive,,7\norders,31\nworkers".toList
    let disk : Disk := ⟨[[""], ["", "desk"]], [(["", "desk", "sheet.csv"], sheet),
      (["", "desk", "snapshot.json"], "{}".toList)]⟩
    let options : Options := ⟨"/desk/sheet.csv", some "/desk/snapshot.json", none, 2⟩
    let agenda : List Instruction := valuesOf (Sheet.instructions sheet)
    let noon : Instant := ⟨1894276800, 0, by decide, by decide, by decide⟩
    let left := (Program.run options).onDisk noon disk
    ∃ session : Session Stock,
      Launch options disk "/desk/snapshot.json" .empty agenda session ∧
      session.isCalm Stock.serve ((session.runActors Stock.serve noon).map (·, noon)) = true ∧
      (session.run Stock.serve noon).2.pool.results = [] ∧
      left.code = 0 ∧ ∃ file final lines order, left.disk.find "/desk/snapshot.json" = .file file ∧
        Saved file ∧ Stock.ofSnapshot file = .ok final ∧
        Squares agenda (session.run Stock.serve noon).2.outcomes noon .empty final lines order := by
  intro sheet disk options agenda noon left
  obtain ⟨session, hmake, hcalm, hread, hgone⟩ : ∃ session : Session Stock,
      Session.make 2 .empty agenda = .ok session ∧
      session.isCalm Stock.serve ((session.runActors Stock.serve noon).map (·, noon)) = true ∧
      (session.run Stock.serve noon).2.pool.results.isEmpty = true ∧
      (session.run Stock.serve noon).2.clerk = .gone (.ok ()) :=
    ⟨_, rfl, by decide +kernel, by decide +kernel, by decide +kernel⟩
  have hlaunch : Launch options disk "/desk/snapshot.json" .empty agenda session :=
    ⟨rfl, ⟨_, by decide +kernel, .fresh, Stock.ofSnapshot_fresh⟩, by decide +kernel,
      ⟨_, by decide +kernel, rfl⟩, hmake⟩
  have hresults := List.isEmpty_iff.1 hread
  obtain ⟨-, hcode, hsaved, -⟩ := acknowledged_saved hlaunch
    (fun time session => (session.run Stock.serve time).2) .ascending
    (session.run_eq_follow Stock.serve noon) hcalm hresults
  exact ⟨session, hlaunch, hcalm, hresults, hcode.2 hgone, hsaved (hcode.2 hgone)⟩

end Launch

end CommandLine

end ParcelDesk
