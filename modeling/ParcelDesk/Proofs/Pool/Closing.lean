import ParcelDesk.Proofs.Pool.Runs

/-!
# Closing time

While a job may come or is queued, the workers that have not left outnumber the signals that nobody
has seen by the size of the pool, which is one at least. So there is always a worker left that will
come for a job, and when the last one has left the queue is empty and all that was taken off it was
run.
-/

namespace ParcelDesk

variable {τ σ : Type}

def Worker.presence : Worker τ → Nat
  | .gone => 0
  | _ => 1

theorem Worker.presence_of_isIdle {worker : Worker τ} (h : worker.isIdle = true) :
    worker.presence = 1 := by
  cases worker with
  | gone => cases h
  | atStop | atQueue | waiting | running _ | reporting _ | counting _ | waking _ => rfl

theorem Worker.presence_hire (workers : List (Worker τ)) (count : Nat) :
    ((workers ++ List.replicate count Worker.atStop).map presence).sum =
      (workers.map presence).sum + count := by
  simp only [List.map_append, List.sum_append, List.map_replicate, List.sum_replicate_nat, presence,
    Nat.mul_one]

namespace Floor

variable {engine : Engine τ σ} {floor after : Floor τ} {number : Nat}
  {log entries : List (Entry τ)} {read : List Outcome} {demand : Demand τ}
  {progress : Progress τ}

def staff (floor : Floor τ) : Nat :=
  (floor.workers.map Worker.presence).sum

theorem staff_move {old : Worker τ} (hold : floor.workers[number]? = some old) (new : Worker τ) :
    old.presence + (floor.move number new).staff = new.presence + floor.staff :=
  Pool.sum_map_set Worker.presence hold new

theorem staff_of_deserted (h : floor.workers.all Pool.isGone = true) : floor.staff = 0 := by
  refine List.sum_eq_zero fun presence hpresence => ?_
  obtain ⟨worker, hworker, rfl⟩ := List.mem_map.1 hpresence
  have hgone := List.all_eq_true.1 h worker hworker
  cases worker with
  | gone => rfl
  | atStop | atQueue | waiting | running _ | reporting _ | counting _ | waking _ => cases hgone

/-- Nobody will need the workers, or the size of the pool is left when all signals are seen. -/
def Manned (floor : Floor τ) : Prop :=
  (floor.isOpen = false ∧ floor.jobs = []) ∨
    (1 ≤ floor.size.toNat ∧ floor.size.toNat + floor.signals ≤ floor.staff)

structure Deserted (floor : Floor τ) : Prop where
  size : floor.size = 0
  workers : floor.workers.all Pool.isGone = true
  jobs : floor.jobs = []
  isOpen : floor.isOpen = false
  canReport : floor.canReport = false

namespace Manned

theorem move {old new : Worker τ} (h : floor.Manned) (hold : floor.workers[number]? = some old)
    (hpresence : new.presence = old.presence) : (floor.move number new).Manned := by
  have hstaff := staff_move hold new
  rcases h with hidle | ⟨hsize, hmanned⟩
  · exact .inl hidle
  · refine .inr ⟨hsize, ?_⟩
    change floor.size.toNat + floor.signals ≤ _
    omega

theorem pace (h : floor.Manned) (hpace : floor.Pace engine number entries after)
    (hcrash : ∀ entry ∈ entries, entry.isCrash = false) : after.Manned := by
  cases hpace with
  | idle old new hold hidle hnew =>
      refine h.move hold ?_
      rw [Worker.presence_of_isIdle hidle, Worker.presence_of_isIdle hnew]
  | stop hold hsignals =>
      have hstaff := staff_move hold .gone
      rcases h with hidle | ⟨hsize, hmanned⟩
      · exact .inl hidle
      · refine .inr ⟨hsize, ?_⟩
        change floor.size.toNat + (floor.signals - 1) ≤ (floor.move number .gone).staff
        simp only [Worker.presence] at hstaff
        omega
  | leave hold hjobs hclosed => exact .inl ⟨hclosed, hjobs⟩
  | take job rest hold hjobs =>
      rcases h with ⟨hclosed, hnone⟩ | ⟨hsize, hmanned⟩
      · rw [hjobs] at hnone
        cases hnone
      · have hstaff := staff_move hold (.running job)
        refine .inr ⟨hsize, ?_⟩
        change floor.size.toNat + floor.signals ≤ (floor.move number (.running job)).staff
        simp only [Worker.presence] at hstaff
        omega
  | goOn job body hold hgoes => exact h.move hold rfl
  | finish job result hold hends => exact h.move hold rfl
  | crash job hold => cases hcrash _ (List.mem_singleton_self _)
  | line outcome hold => exact h
  | tell outcome hold => exact h.move hold rfl

theorem effect (h : floor.Manned) (heffect : floor.Effect demand progress after) :
    after.Manned := by
  cases heffect with
  | proceed | answer | deliver => exact h
  | enqueue job hopen =>
      rcases h with ⟨hclosed, -⟩ | hmanned
      · cases hopen.symm.trans hclosed
      · exact .inr hmanned
  | hire _ hdemand count hreport hsize =>
      rcases h with hidle | ⟨-, hmanned⟩
      · exact .inl hidle
      · refine .inr ⟨hsize.1, ?_⟩
        -- A sum that does not fit is less than the sum.
        have hle : (floor.size + count).toNat ≤ floor.size.toNat + count.toNat := by
          rw [UInt64.toNat_add]
          exact Nat.mod_le _ _
        rw [staff, Worker.presence_hire]
        change (floor.size + count).toNat + floor.signals ≤ floor.staff + count.toNat
        omega
  | release _ hdemand count hcount hsize =>
      rcases h with hidle | ⟨-, hmanned⟩
      · exact .inl hidle
      · refine .inr ⟨hsize.1, ?_⟩
        have hrest : (floor.size - count).toNat + count.toNat = floor.size.toNat := by
          rw [UInt64.toNat_sub_of_le _ _ hcount]
          exact Nat.sub_add_cancel (UInt64.le_iff_toNat_le.1 hcount)
        change (floor.size - count).toNat + (floor.signals + count.toNat) ≤ floor.staff
        omega
  | close | shut =>
      rcases h with ⟨-, hjobs⟩ | hmanned
      · exact .inl ⟨rfl, hjobs⟩
      · exact .inr hmanned
  | farewell hdeserted hclosed hshut =>
      have hstaff := staff_of_deserted hdeserted
      rcases h with hidle | ⟨hsize, hmanned⟩
      · exact .inl hidle
      · omega

end Manned

namespace Deserted

theorem pace (h : floor.Deserted) (hpace : floor.Pace engine number entries after) :
    after.Deserted := by
  have hgone {old : Worker τ} (hold : floor.workers[number]? = some old) :
      Pool.isGone old = true :=
    List.all_eq_true.1 h.workers old (List.mem_of_getElem? hold)
  cases hpace with
  | idle old new hold hidle hnew =>
      have := hgone hold
      cases old with
      | gone => cases hidle
      | atStop | atQueue | waiting | running _ | reporting _ | counting _ | waking _ => cases this
  | stop hold | leave hold | take _ _ hold | goOn _ _ hold | finish _ _ hold | crash _ hold
  | line _ hold | tell _ hold => cases hgone hold

theorem effect (h : floor.Deserted) (heffect : floor.Effect demand progress after) :
    after.Deserted := by
  cases heffect with
  | proceed | answer => exact h
  | enqueue job hopen => cases hopen.symm.trans h.isOpen
  | deliver outcome => exact ⟨h.size, h.workers, h.jobs, h.isOpen, h.canReport⟩
  | hire _ _ count hreport _ => cases hreport.symm.trans h.canReport
  | release _ _ count hcount hsize =>
      -- Of no workers none can be released, and that leaves a size that is not allowed.
      have hcount := UInt64.le_iff_toNat_le.1 hcount
      have hrest := hsize.1
      rw [UInt64.toNat_sub_of_le _ _ (UInt64.le_iff_toNat_le.2 hcount), h.size] at hrest
      cases Nat.sub_le 0 _ |>.trans' hrest
  | close => exact ⟨h.size, h.workers, h.jobs, rfl, h.canReport⟩
  | shut => exact ⟨h.size, h.workers, h.jobs, rfl, rfl⟩
  | farewell => exact ⟨rfl, h.workers, h.jobs, h.isOpen, h.canReport⟩

end Deserted

theorem filterMap_returned_of_isQuiet {result : Except Error Unit}
    (h : demand.isQuiet result = true) :
    [Entry.returned demand result].filterMap Entry.accepted? = [] ∧
      [Entry.returned demand result].filterMap Entry.pushed? = [] ∧
      (Entry.returned demand result).isFarewell = false := by
  cases demand with
  | wait => cases h
  | submit _ | report _ =>
      cases result with
      | ok => cases h
      | error => exact ⟨rfl, rfl, rfl⟩
  | flush | add _ | remove _ | resize _ | close => exact ⟨rfl, rfl, rfl⟩

/-- When the wait for the workers is over, all have left for good. -/
theorem Effect.deserted (h : floor.Effect demand progress after) (hmanned : after.Manned)
    (hfarewell : ∃ entry ∈ Entry.ofProgress demand progress, entry.isFarewell = true) :
    after.Deserted := by
  obtain ⟨entry, hentry, hfarewell⟩ := hfarewell
  cases h with
  | proceed | shut => cases hentry
  | farewell hdeserted hclosed hshut =>
      -- Nobody is there, so it is the other case in which the floor is manned.
      rcases hmanned with ⟨-, hjobs⟩ | ⟨hsize, hmanned⟩
      · exact ⟨rfl, hdeserted, hjobs, hclosed, hshut⟩
      · cases hsize
  | answer demand result hquiet =>
      rw [List.mem_singleton.1 hentry] at hfarewell
      cases (filterMap_returned_of_isQuiet hquiet).2.2.symm.trans hfarewell
  | hire demand hdemand count | release demand hdemand count =>
      rw [List.mem_singleton.1 hentry] at hfarewell
      cases (filterMap_returned_of_isQuiet (hdemand.isQuiet (.ok ()))).2.2.symm.trans hfarewell
  | enqueue | deliver | close =>
      rw [List.mem_singleton.1 hentry] at hfarewell
      cases hfarewell

structure Booked (floor : Floor τ) (entries : List (Entry τ)) (after : Floor τ) : Prop where
  receiver : after.receiver = floor.receiver
  jobs : floor.jobs ++ entries.filterMap Entry.accepted? =
    (entries.filterMap Entry.taken?).map Prod.snd ++ after.jobs
  results : after.results = floor.results ++ entries.filterMap Entry.pushed?

theorem Pace.booked (h : floor.Pace engine number entries after) : floor.Booked entries after := by
  cases h with
  | take job rest hold hjobs =>
      refine ⟨rfl, ?_, (List.append_nil _).symm⟩
      rw [hjobs]
      exact List.append_nil _
  | tell outcome hold => exact ⟨rfl, List.append_nil _, rfl⟩
  | idle | stop | leave | goOn | finish | crash | line =>
      exact ⟨rfl, List.append_nil _, (List.append_nil _).symm⟩

theorem Effect.booked (h : floor.Effect demand progress after) :
    floor.Booked (Entry.ofProgress demand progress) after := by
  have hquiet {result : Except Error Unit} (hquiet : demand.isQuiet result = true) :
      floor.Booked [.returned demand result] floor := by
    obtain ⟨haccepted, hpushed, -⟩ := filterMap_returned_of_isQuiet hquiet
    refine ⟨rfl, ?_, ?_⟩
    · rw [haccepted]
      exact List.append_nil _
    · rw [hpushed, List.append_nil]
  cases h with
  | proceed | close | shut | farewell =>
      exact ⟨rfl, List.append_nil _, (List.append_nil _).symm⟩
  | answer _ _ hanswer => exact hquiet hanswer
  | enqueue job hopen => exact ⟨rfl, rfl, (List.append_nil _).symm⟩
  | deliver outcome => exact ⟨rfl, List.append_nil _, rfl⟩
  | hire _ hdemand | release _ hdemand =>
      obtain ⟨hreceiver, hjobs, hresults⟩ := hquiet (hdemand.isQuiet (.ok ()))
      exact ⟨hreceiver, hjobs, hresults⟩

theorem Pace.isBy (h : floor.Pace engine number entries after) :
    ∀ entry ∈ entries, entry.isBy number = true := by
  cases h with
  | take | finish | crash | tell =>
      intro entry hentry
      rw [List.mem_singleton.1 hentry]
      exact beq_self_eq_true number
  | idle | stop | leave | goOn | line => exact fun entry hentry => absurd hentry List.not_mem_nil

theorem Pace.getElem?_of_ne {other : Nat} (h : floor.Pace engine number entries after)
    (hother : number ≠ other) : after.workers[other]? = floor.workers[other]? := by
  cases h with
  | line => rfl
  | idle | stop | leave | take | goOn | finish | crash | tell =>
      exact List.getElem?_set_ne hother

structure Kept (engine : Engine τ σ) (log : List (Entry τ)) (read : List Outcome)
    (floor : Floor τ) : Prop where
  receiver : floor.receiver = .taken
  queue : log.filterMap Entry.accepted? =
    (log.filterMap Entry.taken?).map Prod.snd ++ floor.jobs
  stream : read ++ floor.results = log.filterMap Entry.pushed?
  places : ∀ number, Logged engine number (log.filter (Entry.isBy number)) floor.workers[number]?
  manned : floor.Manned
  deserted : (∃ entry ∈ log, entry.isFarewell = true) → floor.Deserted

namespace Kept

theorem booked (h : floor.Kept engine log read) (hbooked : floor.Booked entries after)
    (hplaces : ∀ number,
      Logged engine number ((log ++ entries).filter (Entry.isBy number)) after.workers[number]?)
    (hmanned : after.Manned)
    (hdeserted : (∃ entry ∈ log ++ entries, entry.isFarewell = true) → after.Deserted) :
    after.Kept engine (log ++ entries) read := by
  refine ⟨hbooked.receiver.trans h.receiver, ?_, ?_, hplaces, hmanned, hdeserted⟩
  · rw [List.filterMap_append, List.filterMap_append, h.queue, List.append_assoc, hbooked.jobs,
      List.map_append, List.append_assoc]
  · rw [hbooked.results, ← List.append_assoc, h.stream, List.filterMap_append]

theorem pace (h : floor.Kept engine log read) (hpace : floor.Pace engine number entries after)
    (hcrash : ∀ entry ∈ entries, entry.isCrash = false) :
    after.Kept engine (log ++ entries) read := by
  refine h.booked hpace.booked (fun other => ?_) (h.manned.pace hpace hcrash) ?_
  · rw [List.filter_append]
    by_cases hother : number = other
    · rw [← hother, List.filter_eq_self.2 hpace.isBy]
      exact (h.places number).pace hpace hcrash
    · have hnone : entries.filter (Entry.isBy other) = [] :=
        List.filter_eq_nil_iff.2 fun entry hentry hby =>
          hother (Entry.eq_of_isBy (hpace.isBy entry hentry) hby)
      rw [hnone, List.append_nil, hpace.getElem?_of_ne hother]
      exact h.places other
  · rintro ⟨entry, hentry, hfarewell⟩
    rcases List.mem_append.1 hentry with hentry | hentry
    · exact (h.deserted ⟨entry, hentry, hfarewell⟩).pace hpace
    · cases Entry.isBy_of_isFarewell hfarewell number ▸ hpace.isBy entry hentry

theorem effect (h : floor.Kept engine log read) (heffect : floor.Effect demand progress after) :
    after.Kept engine (log ++ Entry.ofProgress demand progress) read := by
  have hmanned := h.manned.effect heffect
  refine h.booked heffect.booked (fun number => ?_) hmanned ?_
  · have hnone : (Entry.ofProgress demand progress).filter (Entry.isBy number) = [] := by
      cases progress <;> rfl
    rw [List.filter_append, hnone, List.append_nil]
    cases heffect with
    | hire _ hdemand count hreport hsize => exact (h.places number).hire count.toNat
    | proceed | answer | enqueue | deliver | release | close | shut | farewell =>
        exact h.places number
  · rintro ⟨entry, hentry, hfarewell⟩
    rcases List.mem_append.1 hentry with hentry | hentry
    · exact (h.deserted ⟨entry, hentry, hfarewell⟩).effect heffect
    · exact heffect.deserted hmanned ⟨entry, hentry, hfarewell⟩

theorem readOff {outcome : Outcome} {rest : List Outcome} (h : floor.Kept engine log read)
    (hresults : floor.results = outcome :: rest) :
    Kept engine log (read ++ [outcome]) { floor with results := rest } := by
  refine ⟨h.receiver, h.queue, ?_, h.places, h.manned, fun hfarewell => ?_⟩
  · rw [← h.stream, hresults, List.append_assoc]
    rfl
  · have hdeserted := h.deserted hfarewell
    exact ⟨hdeserted.size, hdeserted.workers, hdeserted.jobs, hdeserted.isOpen,
      hdeserted.canReport⟩

end Kept

end Floor

end ParcelDesk
