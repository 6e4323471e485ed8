import ParcelDesk.Proofs.Pool.Closing

/-!
# Conduct

Whatever becomes of the jobs: a call that is under way stands where its demand has put it, one that
has the pool to itself is alone, and nobody's outcome is refused. So a step of anyone around a pool
is a step of a worker or of a call on the floor, or an outcome is read.
-/

namespace ParcelDesk

namespace Workshop

variable {τ σ : Type} {engine : Engine τ σ} {shop later : Workshop τ σ} {demand : Demand τ}
  {caller number : Nat}

def UnderWay (shop : Workshop τ σ) (caller : Nat) (demand : Demand τ) : Prop :=
  ∃ activity, shop.calls[caller]? = some (demand, .going activity)

def stream (shop : Workshop τ σ) : List Outcome :=
  shop.read ++ shop.pool.results

structure Orderly (shop : Workshop τ σ) : Prop where
  receiver : shop.pool.receiver = .taken
  heard : shop.pool.floor.Heard
  stands : ∀ (caller : Nat) (demand : Demand τ) (activity : Activity τ),
    shop.calls[caller]? = some (demand, .going activity) → demand.Stands shop.pool.floor activity
  shared : ∀ (caller other : Nat) (first second : Demand τ), caller ≠ other →
    shop.UnderWay caller first → shop.UnderWay other second → first.isExclusive = false

inductive Passes (engine : Engine τ σ) (shop later : Workshop τ σ) : Prop
  | work (number : Nat) (entries : List (Entry τ))
      (hpace : shop.pool.floor.Pace engine number entries later.pool.floor)
      (hlog : later.log = shop.log ++ entries) (hread : later.read = shop.read)
  | call (demand : Demand τ) (progress : Progress τ)
      (heffect : shop.pool.floor.Effect demand progress later.pool.floor)
      (hlog : later.log = shop.log ++ Entry.ofProgress demand progress)
      (hread : later.read = shop.read)
  | read (outcome : Outcome) (rest : List Outcome)
      (hresults : shop.pool.results = outcome :: rest)
      (hfloor : later.pool.floor = { shop.pool.floor with results := rest })
      (hlog : later.log = shop.log) (hread : later.read = shop.read ++ [outcome])

namespace Orderly

theorem make {workers : UInt64} {capacity : Nat} {world : σ}
    (h : Workshop.make workers capacity world = .ok shop) : shop.Orderly := by
  obtain ⟨-, rfl⟩ := make_eq_ok h
  refine ⟨rfl, ?_, ?_, ?_⟩
  · intro worker hworker
    rw [List.eq_of_mem_replicate hworker]
    rfl
  · intro caller demand activity hcall
    cases hcall
  · rintro caller other first second - ⟨activity, hcall⟩
    cases hcall

theorem effect {calls : List (Demand τ × Progress τ)} {progress : Progress τ} {pool : Pool τ}
    (h : shop.Orderly) (caller : Nat)
    (heffect : shop.pool.floor.Effect demand progress pool.floor)
    (hown : calls[caller]? = some (demand, progress))
    (hothers : ∀ other, other ≠ caller → calls[other]? = shop.calls[other]?)
    (hshared : ∀ other second, other ≠ caller → shop.UnderWay other second →
      demand.isExclusive = false ∧ second.isExclusive = false) :
    Orderly { shop with pool, calls, log := shop.log ++ Entry.ofProgress demand progress } := by
  have hbefore {other : Nat} {second : Demand τ} (hother : other ≠ caller) :
      UnderWay { shop with pool, calls, log := shop.log ++ Entry.ofProgress demand progress }
        other second → shop.UnderWay other second := by
    rintro ⟨activity, hcall⟩
    exact ⟨activity, (hothers other hother).symm.trans hcall⟩
  have hdemand {second : Demand τ} :
      UnderWay { shop with pool, calls, log := shop.log ++ Entry.ofProgress demand progress }
        caller second → second = demand := by
    rintro ⟨activity, hcall⟩
    cases hown.symm.trans hcall
    rfl
  refine ⟨heffect.booked.receiver.trans h.receiver, h.heard.effect heffect, ?_, ?_⟩
  · intro other second activity hcall
    by_cases hother : other = caller
    · rw [hother] at hcall
      cases hown.symm.trans hcall
      exact heffect.stands
    · have hold := (hothers other hother).symm.trans hcall
      have hterms := heffect.terms (hshared other second hother ⟨activity, hold⟩).1
      exact (h.stands other second activity hold).keep hterms
  · intro first other demand' second hne hfirst hsecond
    by_cases hcaller : first = caller
    · rw [hcaller] at hfirst hne
      rw [hdemand hfirst]
      exact (hshared other second (Ne.symm hne) (hbefore (Ne.symm hne) hsecond)).1
    · have hbeforeFirst := hbefore hcaller hfirst
      by_cases hcaller' : other = caller
      · exact (hshared first demand' hcaller hbeforeFirst).2
      · exact h.shared first other demand' second hne hbeforeFirst (hbefore hcaller' hsecond)

theorem call (h : shop.Orderly) (hadmits : shop.admits demand = true) :
    Orderly { shop with
      pool := (demand.start shop.pool).1
      calls := shop.calls ++ [(demand, (demand.start shop.pool).2)]
      log := shop.log ++ Entry.ofProgress demand (demand.start shop.pool).2 } := by
  refine h.effect _ (Pool.effect_start shop.pool demand) List.getElem?_concat_length
    (fun other hother => ?_) ?_
  · rcases Nat.lt_or_gt_of_ne hother with hless | hmore
    · exact List.getElem?_append_left hless
    · rw [List.getElem?_eq_none (Nat.le_of_lt hmore), List.getElem?_eq_none]
      rw [List.length_append]
      exact hmore
  · rintro other second - ⟨activity, hcall⟩
    have := List.all_eq_true.1 hadmits _ (List.mem_of_getElem? hcall)
    simpa [Progress.isOver] using this

theorem goOn {activity : Activity τ} {progress : Progress τ} {pool : Pool τ} (h : shop.Orderly)
    (hcall : shop.calls[caller]? = some (demand, .going activity))
    (heffect : shop.pool.floor.Effect demand progress pool.floor) :
    Orderly { shop with
      pool
      calls := shop.calls.set caller (demand, progress)
      log := shop.log ++ Entry.ofProgress demand progress } := by
  refine h.effect caller heffect ?_ (fun other hother => ?_) ?_
  · rw [List.getElem?_set_self', hcall]
    rfl
  · exact List.getElem?_set_ne (Ne.symm hother)
  · intro other second hother hsecond
    have hunder : shop.UnderWay caller demand := ⟨activity, hcall⟩
    exact ⟨h.shared caller other demand second (Ne.symm hother) hunder hsecond,
      h.shared other caller second demand hother hsecond hunder⟩

theorem step {move : Move τ} (h : shop.Orderly) (hstep : shop.step engine move = some later) :
    later.Orderly ∧ shop.Passes engine later := by
  cases step_of_move hstep with
  | call demand hadmits =>
      exact ⟨h.call hadmits, .call demand _ (Pool.effect_start shop.pool demand) rfl rfl⟩
  | goOn caller demand activity pool progress hcall hdeed =>
      have heffect := hdeed.effect (h.stands caller demand activity hcall)
      exact ⟨h.goOn hcall heffect, .call demand progress heffect rfl rfl⟩
  | work number old new pool world hold hact =>
      have hreceiver : shop.pool.receiver ≠ .dropped := by simp [h.receiver]
      have hpace := hact.pace hold hreceiver (h.heard old (List.mem_of_getElem? hold))
      refine ⟨⟨hpace.booked.receiver.trans h.receiver, h.heard.pace hpace, ?_, h.shared⟩,
        .work number _ hpace rfl rfl⟩
      intro caller demand activity hcall
      exact (h.stands caller demand activity hcall).keep hpace.terms
  | read outcome rest hresults =>
      refine ⟨⟨h.receiver, h.heard, ?_, h.shared⟩, .read outcome rest hresults rfl rfl rfl⟩
      intro caller demand activity hcall
      exact (h.stands caller demand activity hcall).keep ⟨rfl, rfl⟩

theorem follow (h : shop.Orderly) (moves : List (Move τ)) :
    (Workshop.follow engine moves shop).Orderly :=
  follow_keeps Orderly (fun _ _ _ horderly hstep => (horderly.step hstep).1) moves h

theorem returned {move : Move τ} {result : Except Error Unit} (h : shop.Orderly)
    (hstep : shop.step engine move = some later)
    (hlog : later.log = shop.log ++ [.returned demand result]) :
    demand.start shop.pool = (later.pool, .over result) ∨
      ∃ caller activity, demand.Stands shop.pool.floor activity ∧
        shop.pool.Deed caller activity (later.pool, .over result) := by
  have hover {other : Demand τ} {progress : Progress τ}
      (hnoted : shop.log ++ Entry.ofProgress other progress =
        shop.log ++ [.returned demand result]) : other = demand ∧ progress = .over result := by
    have hentry := List.append_cancel_left hnoted
    rcases progress with activity | answer
    · cases hentry
    · cases hentry
      exact ⟨rfl, rfl⟩
  cases step_of_move hstep with
  | call other hadmits =>
      obtain ⟨rfl, hprogress⟩ := hover hlog
      exact .inl (Prod.ext rfl hprogress)
  | goOn caller other activity pool progress hcall hdeed =>
      obtain ⟨rfl, rfl⟩ := hover hlog
      exact .inr ⟨caller, activity, h.stands caller _ activity hcall, hdeed⟩
  | work number old new pool world hold hact =>
      have hentry := List.append_cancel_left hlog
      rcases Entry.ofTurn_cases number (some old) (some new) with hnone | ⟨entry, hby, hnoted⟩
      · cases hnone.symm.trans hentry
      · cases hnoted.symm.trans hentry
        cases hby
  | read => cases List.append_cancel_left ((List.append_nil _).trans hlog)

theorem flushed {move : Move τ} {result : Except Error Unit} (h : shop.Orderly)
    (hstep : shop.step engine move = some later)
    (hlog : later.log = shop.log ++ [.returned .flush result]) : shop.pool.pending = 0 := by
  rcases h.returned hstep hlog with hstart | ⟨caller, activity, hstands, hdeed⟩
  · cases congrArg Prod.snd hstart
  · cases hstands with
    | flush stage => exact hdeed.pending_of_flush

theorem resized {move : Move τ} {size : UInt64} (h : shop.Orderly)
    (hstep : shop.step engine move = some later)
    (hlog : later.log = shop.log ++ [.returned (.resize size) (.ok ())]) :
    shop.pool.pending = 0 ∧ shop.pool.adjust size = .ok later.pool := by
  have hreturned := h.returned hstep hlog
  generalize later.pool = after at hreturned ⊢
  rcases hreturned with hstart | ⟨caller, activity, hstands, hdeed⟩
  · cases congrArg Prod.snd hstart
  · cases hstands with
    | resize => cases hdeed
    | resizing size stage => exact hdeed.adjust_of_resizing

end Orderly

theorem Passes.stream (h : shop.Passes engine later) :
    ∃ entries, later.log = shop.log ++ entries ∧
      later.stream = shop.stream ++ entries.filterMap Entry.pushed? := by
  cases h with
  | work number entries hpace hlog hread =>
      refine ⟨entries, hlog, ?_⟩
      have hresults : later.pool.results = _ := hpace.booked.results
      rw [Workshop.stream, hread, hresults, ← List.append_assoc]
      rfl
  | call demand progress heffect hlog hread =>
      refine ⟨_, hlog, ?_⟩
      have hresults : later.pool.results = _ := heffect.booked.results
      rw [Workshop.stream, hread, hresults, ← List.append_assoc]
      rfl
  | read outcome rest hresults hfloor hlog hread =>
      refine ⟨[], hlog.trans (List.append_nil _).symm, ?_⟩
      have hrest : later.pool.results = rest := congrArg Floor.results hfloor
      simp [Workshop.stream, hread, hrest, hresults]

/-- Whatever was put among the results has been noted, in the same order. -/
theorem Orderly.stream_follow (h : shop.Orderly)
    (hstart : shop.stream = shop.log.filterMap Entry.pushed?) (moves : List (Move τ)) :
    (Workshop.follow engine moves shop).stream =
      (Workshop.follow engine moves shop).log.filterMap Entry.pushed? := by
  refine (follow_keeps (fun shop => shop.Orderly ∧
    shop.stream = shop.log.filterMap Entry.pushed?) ?_ moves ⟨h, hstart⟩).2
  rintro shop later move ⟨horderly, hstream⟩ hstep
  obtain ⟨hlater, hpasses⟩ := horderly.step hstep
  obtain ⟨entries, hlog, hmore⟩ := hpasses.stream
  refine ⟨hlater, ?_⟩
  rw [hmore, hlog, hstream, List.filterMap_append]

end Workshop

end ParcelDesk
