import ParcelDesk.Proofs.Pool.Pending

/-!
# Bounds on sizes

Whatever is asked of a pool before it is closed, its size stays within the bounds. A change of size
is checked on machine words. For a count to be removed and for a size that is wanted this comes to
the same as checking the numbers; the sum of the size and a count may not fit a word, and what is
left of it may be within the bounds while the sum is far beyond.
-/

namespace ParcelDesk

variable {τ σ : Type}

namespace Demand

def isSizing : Demand τ → Bool
  | .add _ | .remove _ | .resize _ => true
  | .submit _ | .flush | .report _ | .close | .wait => false

def isEnding : Demand τ → Bool
  | .close | .wait => true
  | .submit _ | .flush | .report _ | .add _ | .remove _ | .resize _ => false

/-- The number of workers that a pool of a size is to have after a call. -/
def target? (size : UInt64) : Demand τ → Option Int
  | .add count => some (size.toNat + count.toNat)
  | .remove count => some (size.toNat - count.toNat)
  | .resize size => some size.toNat
  | .submit _ | .flush | .report _ | .close | .wait => none

end Demand

def Activity.demand : Activity τ → Demand τ
  | .submit job | .enqueue job => .submit job
  | .flush _ => .flush
  | .resize size | .resizing size _ => .resize size
  | .report outcome | .deliver outcome => .report outcome
  | .wait | .join => .wait

namespace Pool

variable {pool after : Pool τ} {target : Int} {size count : UInt64} {number caller : Nat}
  {engine : Engine τ σ}

/-- A change of size came to what was asked for: it succeeded just if that is within the bounds, and
the pool has this size then; else the input was wrong, and the pool is as it was. -/
structure Obeys (pool : Pool τ) (target : Int) (result : Except Error Unit) (after : Pool τ) :
    Prop where
  ok_iff : result = .ok () ↔ 1 ≤ target ∧ target ≤ 100
  size : result = .ok () → (after.size.toNat : Int) = target
  refused : result ≠ .ok () →
    (∃ detail, result = .error (.refused .wrongInput detail)) ∧ after = pool

theorem obeys_of_allowed (hsize : Allowed after.size)
    (htarget : (after.size.toNat : Int) = target) : pool.Obeys target (.ok ()) after where
  ok_iff := by
    have hbounds : 1 ≤ after.size.toNat ∧ after.size.toNat ≤ 100 := hsize
    exact ⟨fun _ => by omega, fun _ => rfl⟩
  size := fun _ => htarget
  refused := fun hresult => absurd rfl hresult

theorem obeys_of_wrong (htarget : ¬(1 ≤ target ∧ target ≤ 100)) (detail : String) :
    pool.Obeys target (.error (.refused .wrongInput detail)) pool where
  ok_iff := ⟨nofun, fun hbounds => absurd hbounds htarget⟩
  size := nofun
  refused := fun _ => ⟨⟨detail, rfl⟩, rfl⟩

theorem exists_concluded (pool : Pool τ) (changed : Except Error (Pool τ)) :
    ∃ after result, pool.concluded changed = (after, .over result) := by
  cases changed with
  | error error => exact ⟨pool, .error error, rfl⟩
  | ok after => exact ⟨after, .ok (), rfl⟩

/-- More workers are as many as were asked for unless their number is beyond a machine word. -/
theorem obeys_addWorkers_iff (hreport : pool.canReport = true) (hpool : Allowed pool.size)
    (count : UInt64) {result : Except Error Unit}
    (h : pool.concluded (pool.addWorkers count) = (after, .over result)) :
    pool.Obeys (pool.size.toNat + count.toNat) result after ↔
      (pool.size.toNat + count.toNat : Int) ≤ 2 ^ 64 := by
  have hsum : (pool.size + count).toNat = (pool.size.toNat + count.toNat) % 2 ^ 64 :=
    UInt64.toNat_add ..
  have hcount : count.toNat < 2 ^ 64 := count.toNat_lt
  have hbounds : 1 ≤ pool.size.toNat ∧ pool.size.toNat ≤ 100 := hpool
  by_cases hsize : Allowed (pool.size + count)
  · have hword : 1 ≤ (pool.size + count).toNat ∧ (pool.size + count).toNat ≤ 100 := hsize
    rw [addWorkers, checkSize_of_allowed hsize, ok_bind, start, if_pos hreport] at h
    cases h
    constructor
    · intro hobeys
      have htarget := hobeys.ok_iff.1 rfl
      omega
    · intro hfits
      refine obeys_of_allowed hsize ?_
      change ((pool.size + count).toNat : Int) = _
      omega
  · have hword : ¬(1 ≤ (pool.size + count).toNat ∧ (pool.size + count).toNat ≤ 100) := hsize
    rw [addWorkers, checkSize_of_not_allowed hsize] at h
    cases h
    exact ⟨fun _ => by omega, fun _ => obeys_of_wrong (by omega) _⟩

theorem obeys_removeWorkers (hpool : Allowed pool.size) (count : UInt64)
    {result : Except Error Unit}
    (h : pool.concluded (pool.removeWorkers count) = (after, .over result)) :
    pool.Obeys (pool.size.toNat - count.toNat) result after := by
  have hbounds : 1 ≤ pool.size.toNat ∧ pool.size.toNat ≤ 100 := hpool
  rw [removeWorkers] at h
  split at h
  next hmore =>
    cases h
    have hmore := UInt64.lt_iff_toNat_lt.1 hmore
    exact obeys_of_wrong (by omega) _
  next hcount =>
    have hle : count ≤ pool.size := UInt64.not_lt.1 hcount
    have hrest : (pool.size - count).toNat = pool.size.toNat - count.toNat :=
      UInt64.toNat_sub_of_le _ _ hle
    have hle := UInt64.le_iff_toNat_le.1 hle
    by_cases hsize : Allowed (pool.size - count)
    · rw [checkSize_of_allowed hsize, ok_bind] at h
      cases h
      refine obeys_of_allowed hsize ?_
      change ((pool.size - count).toNat : Int) = _
      omega
    · have hword : ¬(1 ≤ (pool.size - count).toNat ∧ (pool.size - count).toNat ≤ 100) := hsize
      rw [checkSize_of_not_allowed hsize] at h
      cases h
      exact obeys_of_wrong (by omega) _

theorem adjust_of_not_allowed (hpool : Allowed pool.size) (hsize : ¬Allowed size) :
    pool.adjust size = .error (sizeError size) := by
  rw [adjust]
  split
  next hless =>
    have hsum : pool.size + (size - pool.size) = size := by grind
    rw [addWorkers, hsum, checkSize_of_not_allowed hsize]
    rfl
  next hnotLess =>
    split
    next hless =>
      have hrest : pool.size - (pool.size - size) = size := by grind
      have hcount : ¬pool.size < pool.size - size := by
        rw [UInt64.lt_iff_toNat_lt, UInt64.toNat_sub_of_le _ _ (UInt64.le_of_lt hless)]
        omega
      rw [removeWorkers, if_neg hcount, hrest, checkSize_of_not_allowed hsize]
      rfl
    next hnotMore =>
      rw [UInt64.lt_iff_toNat_lt] at hnotLess hnotMore
      have hsame : pool.size = size := UInt64.toNat_inj.1 (by omega)
      exact absurd (hsame ▸ hpool) hsize

theorem obeys_adjust (hreport : pool.canReport = true) (hpool : Allowed pool.size)
    {result : Except Error Unit}
    (h : pool.concluded (pool.adjust size) = (after, .over result)) :
    pool.Obeys size.toNat result after := by
  by_cases hsize : Allowed size
  · obtain ⟨adjusted, hadjust, -, hterms⟩ := adjust_of_allowed hsize hreport
    have hsame : adjusted.size = size := hterms.size
    rw [hadjust] at h
    cases h
    exact obeys_of_allowed (hsame ▸ hsize) (by rw [hsame])
  · have hword : ¬(1 ≤ size.toNat ∧ size.toNat ≤ 100) := hsize
    rw [adjust_of_not_allowed hpool hsize] at h
    cases h
    exact obeys_of_wrong (by omega) _

theorem obeys_activityStep {activity : Activity τ} (hopen : pool.isOpen = true)
    (hreport : pool.canReport = true) (hpool : Allowed pool.size)
    (hactivity : activity.demand = .resize size) {result : Except Error Unit}
    (h : pool.activityStep caller activity = some (after, .over result)) :
    pool.Obeys size.toNat result after := by
  cases activity with
  | resize wanted =>
      cases hactivity
      by_cases hsize : Allowed size
      · rw [activityStep, checkSize_of_allowed hsize] at h
        simp only [if_pos hopen] at h
        cases h
      · have hword : ¬(1 ≤ size.toNat ∧ size.toNat ≤ 100) := hsize
        rw [activityStep, checkSize_of_not_allowed hsize] at h
        cases h
        exact obeys_of_wrong (by omega) _
  | resizing wanted stage =>
      cases hactivity
      obtain ⟨flushed, -, hflushed⟩ := Option.map_eq_some_iff.1 h
      cases flushed with
      | inl next => cases hflushed
      | inr done => exact obeys_adjust hreport hpool hflushed
  | submit | enqueue | flush | report | deliver | wait | join => cases hactivity

structure SameStaff (pool after : Pool τ) : Prop where
  size : after.size = pool.size
  workers : after.workers.length = pool.workers.length
  signals : after.signals ≤ pool.signals

structure SameDoors (pool after : Pool τ) : Prop where
  isOpen : after.isOpen = pool.isOpen
  canReport : after.canReport = pool.canReport

theorem SameStaff.refl (pool : Pool τ) : pool.SameStaff pool :=
  ⟨rfl, rfl, Nat.le_refl _⟩

theorem Act.sameStaff {old new : Worker τ} (h : pool.Act engine number old new after) :
    pool.SameStaff after := by
  refine ⟨h.terms.size, ?_, ?_⟩
  · rw [h.workers, List.length_set]
  · cases h with
    | stop => exact Nat.sub_le _ _
    | pass | take | await | leave | rouse | goOn | finish | crash | shrug | line | tell | last
    | count | wake => exact Nat.le_refl _

/-- A step of a call that does not end the pool: nobody comes or goes, or the size changes within
the bounds and the call succeeds. -/
inductive Moderate (pool : Pool τ) (demand : Demand τ) : Pool τ × Progress τ → Prop where
  | same (after : Pool τ) (progress : Progress τ) (hstaff : pool.SameStaff after)
      (hdoors : pool.SameDoors after) : Moderate pool demand (after, progress)
  | sized (after : Pool τ) (hdemand : demand.isSizing = true) (hsize : Allowed after.size)
      (hdoors : pool.SameDoors after) : Moderate pool demand (after, .over (.ok ()))

theorem Sized.moderate {changed : Except Error (Pool τ)} (h : pool.Sized changed)
    {demand : Demand τ} (hdemand : demand.isSizing = true) :
    pool.Moderate demand (pool.concluded changed) := by
  cases h with
  | refuse | keep => exact .same _ _ (.refl pool) ⟨rfl, rfl⟩
  | hire count hreport hsize => exact .sized _ hdemand hsize ⟨rfl, rfl⟩
  | release count hcount hsize => exact .sized _ hdemand hsize ⟨rfl, rfl⟩

theorem moderate_start (pool : Pool τ) {demand : Demand τ} (hdemand : demand.isEnding = false) :
    pool.Moderate demand (demand.start pool) := by
  cases demand with
  | submit | flush | report | resize => exact .same _ _ (.refl pool) ⟨rfl, rfl⟩
  | add count => exact (sized_addWorkers pool count).moderate rfl
  | remove count => exact (sized_removeWorkers pool count).moderate rfl
  | close | wait => cases hdemand

theorem Deed.moderate {activity : Activity τ} {changed : Pool τ × Progress τ}
    (h : pool.Deed caller activity changed) (hactivity : activity.demand.isEnding = false) :
    pool.Moderate activity.demand changed := by
  cases h with
  | refuse | submit | enqueue | flush | flushed | resize | resizing | report | deliver | shrug =>
      exact .same _ _ ⟨rfl, rfl, Nat.le_refl _⟩ ⟨rfl, rfl⟩
  | resized size => exact (sized_adjust pool size).moderate rfl
  | wait | join => cases hactivity

end Pool

theorem Demand.demand_of_start {pool after : Pool τ} {demand : Demand τ} {activity : Activity τ}
    (h : demand.start pool = (after, .going activity)) : activity.demand = demand := by
  cases demand with
  | submit | flush | report | resize | wait =>
      cases h
      rfl
  | add count =>
      rw [start] at h
      cases hadd : pool.addWorkers count <;> rw [hadd] at h <;> cases h
  | remove count =>
      rw [start] at h
      cases hremove : pool.removeWorkers count <;> rw [hremove] at h <;> cases h
  | close => cases h

theorem Pool.Deed.demand {pool after : Pool τ} {caller : Nat} {activity next : Activity τ}
    (h : pool.Deed caller activity (after, .going next)) : next.demand = activity.demand := by
  generalize hchanged : (after, Progress.going next) = changed at h
  cases h with
  | resized size =>
      cases hadjust : pool.adjust size <;> rw [hadjust] at hchanged <;> cases hchanged
  | submit | flush | resize | resizing | report | wait =>
      cases hchanged
      rfl
  | refuse | enqueue | flushed | deliver | shrug | join => cases hchanged

namespace Workshop

variable {engine : Engine τ σ} {shop later : Workshop τ σ} {move : Move τ} {demand : Demand τ}
  {result : Except Error Unit} {target : Int}

def Move.isEnding : Move τ → Bool
  | .call demand => demand.isEnding
  | .goOn _ | .work _ | .read => false

/-- A workshop whose pool was neither closed nor waited for, whoever has taken steps and whatever
has become of the receiver of the results. -/
inductive InUse (engine : Engine τ σ) : Workshop τ σ → Prop where
  | fresh (workers : UInt64) (capacity : Nat) (pool : Pool τ) (world : σ)
      (hmake : Pool.make workers capacity = .ok pool) : InUse engine { pool, world }
  | step (shop later : Workshop τ σ) (move : Move τ) (hshop : InUse engine shop)
      (hmove : move.isEnding = false) (hstep : shop.step engine move = some later) :
      InUse engine later
  | take (shop : Workshop τ σ) (hshop : InUse engine shop) :
      InUse engine { shop with pool := shop.pool.takeResults.2 }
  | drop (shop : Workshop τ σ) (hshop : InUse engine shop) :
      InUse engine { shop with pool := shop.pool.dropResults }

/-- What every step keeps while the pool is in use. -/
structure Ready (shop : Workshop τ σ) : Prop where
  isOpen : shop.pool.isOpen = true
  canReport : shop.pool.canReport = true
  size : Pool.Allowed shop.pool.size
  calls : ∀ (demand : Demand τ) (activity : Activity τ),
    (demand, .going activity) ∈ shop.calls → activity.demand = demand ∧ demand.isEnding = false
  accounted : shop.Accounted

def Changes (shop later : Workshop τ σ) : Prop :=
  ∃ demand : Demand τ, demand.isSizing = true ∧
    later.log = shop.log ++ [.returned demand (.ok ())]

namespace Ready

theorem fresh {workers : UInt64} {capacity : Nat} {pool : Pool τ} (world : σ)
    (h : Pool.make workers capacity = .ok pool) : Ready { pool, world : Workshop τ σ } := by
  by_cases hsize : Pool.Allowed workers
  · have hmade : (Workshop.make workers capacity world : Except Error (Workshop τ σ)) =
        .ok { pool := pool.takeResults.2, world } := by
      rw [Workshop.make, h]
      rfl
    have haccounted : Accounted { pool := pool.takeResults.2, world : Workshop τ σ } :=
      .make hmade
    rw [Pool.make, Pool.checkSize_of_allowed hsize, ok_bind] at h
    cases h
    have hsum : 0 + workers = workers := UInt64.zero_add workers
    refine ⟨rfl, rfl, hsum.symm ▸ hsize, ?_, haccounted⟩
    intro demand activity hmem
    cases hmem
  · rw [Pool.make_of_not_allowed hsize] at h
    cases h

theorem moderate (h : shop.Ready) (hmove : move.isEnding = false)
    (hstep : shop.step engine move = some later) :
    (shop.pool.SameStaff later.pool ∨ Pool.Allowed later.pool.size ∧ shop.Changes later) ∧
      shop.pool.SameDoors later.pool := by
  cases step_of_move hstep with
  | call demand =>
      have hmoderate := shop.pool.moderate_start hmove
      generalize demand.start shop.pool = changed at hmoderate ⊢
      cases hmoderate with
      | same after progress hstaff hdoors => exact ⟨.inl hstaff, hdoors⟩
      | sized after hdemand hsize hdoors =>
          exact ⟨.inr ⟨hsize, demand, hdemand, rfl⟩, hdoors⟩
  | goOn caller demand activity pool progress hcall hdeed =>
      obtain ⟨rfl, hending⟩ := h.calls demand activity (List.mem_of_getElem? hcall)
      cases hdeed.moderate hending with
      | same after progress hstaff hdoors => exact ⟨.inl hstaff, hdoors⟩
      | sized after hdemand hsize hdoors =>
          exact ⟨.inr ⟨hsize, _, hdemand, rfl⟩, hdoors⟩
  | work number old new pool world hold hact =>
      exact ⟨.inl hact.sameStaff, hact.terms.isOpen, hact.terms.canReport⟩
  | read => exact ⟨.inl ⟨rfl, rfl, Nat.le_refl _⟩, rfl, rfl⟩

theorem step (h : shop.Ready) (hmove : move.isEnding = false)
    (hstep : shop.step engine move = some later) : later.Ready := by
  obtain ⟨hmoderate, hdoors⟩ := h.moderate hmove hstep
  constructor
  case isOpen => exact hdoors.isOpen.trans h.isOpen
  case canReport => exact hdoors.canReport.trans h.canReport
  case accounted => exact h.accounted.step hstep
  case size =>
    rcases hmoderate with hstaff | ⟨hsize, -⟩
    · exact hstaff.size ▸ h.size
    · exact hsize
  case calls =>
    intro demand activity hmem
    cases step_of_move hstep with
    | call started hadmits =>
        rcases List.mem_append.1 hmem with hold | hnew
        · exact h.calls demand activity hold
        · rw [List.mem_singleton, Prod.mk.injEq] at hnew
          obtain ⟨rfl, hgoing⟩ := hnew
          exact ⟨Demand.demand_of_start (Prod.ext rfl hgoing.symm), hmove⟩
    | goOn caller other before pool progress hcall hdeed =>
        rcases List.mem_or_eq_of_mem_set hmem with hold | hnew
        · exact h.calls demand activity hold
        · cases hnew
          obtain ⟨hbefore, hending⟩ := h.calls demand before (List.mem_of_getElem? hcall)
          exact ⟨hdeed.demand.trans hbefore, hending⟩
    | work => exact h.calls demand activity hmem
    | read => exact h.calls demand activity hmem

theorem take (h : shop.Ready) : Ready { shop with pool := shop.pool.takeResults.2 } := by
  rw [Pool.takeResults]
  split
  · exact ⟨h.isOpen, h.canReport, h.size, h.calls, h.accounted⟩
  · exact h

theorem drop (h : shop.Ready) : Ready { shop with pool := shop.pool.dropResults } := by
  rw [Pool.dropResults]
  split
  · exact ⟨h.isOpen, h.canReport, h.size, h.calls, h.accounted⟩
  · exact h

theorem of_inUse (h : InUse engine shop) : shop.Ready := by
  induction h with
  | fresh workers capacity pool world hmake => exact fresh world hmake
  | step shop later move hshop hmove hstep ih => exact ih.step hmove hstep
  | take shop hshop ih => exact ih.take
  | drop shop hshop ih => exact ih.drop

/-- A return is noted as the call is made or after a step of its own. -/
theorem returned (h : shop.Ready) (hstep : shop.step engine move = some later)
    (hlog : later.log = shop.log ++ [.returned demand result]) :
    demand.start shop.pool = (later.pool, .over result) ∨
      ∃ caller activity, activity.demand = demand ∧
        shop.pool.activityStep caller activity = some (later.pool, .over result) := by
  have hover {other : Demand τ} {progress : Progress τ}
      (hnoted : shop.log ++ Entry.ofProgress other progress =
        shop.log ++ [.returned demand result]) : other = demand ∧ progress = .over result := by
    have hentry := List.append_cancel_left hnoted
    rcases progress with activity | answer
    · cases hentry
    · cases hentry
      exact ⟨rfl, rfl⟩
  cases move with
  | call other =>
      rw [Workshop.step, callStep] at hstep
      split at hstep
      next =>
        cases hstep
        obtain ⟨rfl, hprogress⟩ := hover hlog
        exact .inl (Prod.ext rfl hprogress)
      next => cases hstep
  | goOn caller =>
      rw [Workshop.step, goOnStep] at hstep
      split at hstep
      next other activity hcall =>
        obtain ⟨⟨pool, progress⟩, hactivity, rfl⟩ := Option.map_eq_some_iff.1 hstep
        obtain ⟨rfl, rfl⟩ := hover hlog
        obtain ⟨hdemand, -⟩ := h.calls _ activity (List.mem_of_getElem? hcall)
        exact .inr ⟨caller, activity, hdemand, hactivity⟩
      next => cases hstep
  | work number =>
      obtain ⟨after, -, rfl⟩ := Option.map_eq_some_iff.1 hstep
      have hentry := List.append_cancel_left hlog
      rcases Entry.ofTurn_cases number shop.pool.workers[number]? after.1.workers[number]? with
        hnone | ⟨entry, hby, hnoted⟩
      · cases hnone.symm.trans hentry
      · cases hnoted.symm.trans hentry
        cases hby
  | read =>
      obtain ⟨after, -, rfl⟩ := Option.map_eq_some_iff.1 hstep
      cases List.append_cancel_left ((List.append_nil _).trans hlog)

theorem obeys_iff (h : shop.Ready) (hstep : shop.step engine move = some later)
    (hlog : later.log = shop.log ++ [.returned demand result])
    (htarget : demand.target? shop.pool.size = some target) :
    shop.pool.Obeys target result later.pool ↔ target ≤ 2 ^ 64 := by
  have hreturned := h.returned hstep hlog
  have hbounds : 1 ≤ shop.pool.size.toNat ∧ shop.pool.size.toNat ≤ 100 := h.size
  cases demand with
  | add count =>
      cases htarget
      rcases hreturned with hstart | ⟨_, activity, hactivity, -⟩
      · exact Pool.obeys_addWorkers_iff h.canReport h.size count hstart
      · cases activity <;> cases hactivity
  | remove count =>
      cases htarget
      rcases hreturned with hstart | ⟨_, activity, hactivity, -⟩
      · exact ⟨fun _ => by omega, fun _ => Pool.obeys_removeWorkers h.size count hstart⟩
      · cases activity <;> cases hactivity
  | resize size =>
      cases htarget
      have hword : size.toNat < 2 ^ 64 := size.toNat_lt
      rcases hreturned with hstart | ⟨_, activity, hactivity, hlast⟩
      · cases congrArg Prod.snd hstart
      · exact ⟨fun _ => by omega, fun _ =>
          Pool.obeys_activityStep h.isOpen h.canReport h.size hactivity hlast⟩
  | submit | flush | report | close | wait => cases htarget

end Ready

/-! ## Calls that do not wait -/

theorem follow_call_of_over {after : Pool τ} (hadmits : shop.admits demand = true)
    (hstart : demand.start shop.pool = (after, .over result)) (steps : Nat) :
    (follow engine (.call demand :: List.replicate steps (.goOn shop.calls.length)) shop).log =
      shop.log ++ [.returned demand result] := by
  obtain ⟨later, hstep, -, hcall, hlog⟩ := call_of_start engine hadmits hstart
  rw [follow, hstep]
  exact (congrArg log (follow_goOn_of_over hcall steps)).trans hlog

theorem follow_resize_of_not_allowed {size : UInt64} (hsize : ¬Pool.Allowed size)
    (hadmits : shop.admits (.resize size) = true) (steps : Nat) :
    ∃ result, (follow engine
      (.call (.resize size) :: List.replicate (steps + 1) (.goOn shop.calls.length)) shop).log =
        shop.log ++ [.returned (.resize size) result] := by
  obtain ⟨later, hstep, -, hcall, hlog⟩ := call_of_start engine hadmits rfl
  have hnear : later.pool.isNear shop.calls.length (steps + 1) (.resize size) = true := by
    rw [Pool.isNear, Pool.activityStep, Pool.checkSize_of_not_allowed hsize]
  obtain ⟨result, hresult⟩ := follow_goOn_of_isNear hcall hnear
  refine ⟨result, ?_⟩
  rw [follow, hstep]
  exact hresult.trans (congrArg (· ++ _) (hlog.trans (List.append_nil _)))

/-- The size is within the bounds. A change of size comes to what was asked for, just if the number
of workers is not beyond a machine word. It is over after its own steps, other than one to a size
within the bounds while somebody has something to do with a job, or after a crash. No other step
changes the size, starts a worker or sends a signal to stop. -/
structure Bounded (engine : Engine τ σ) (shop : Workshop τ σ) : Prop where
  size : Pool.Allowed shop.pool.size
  obeys_iff : ∀ (move : Move τ) (later : Workshop τ σ) (demand : Demand τ)
    (result : Except Error Unit) (target : Int), shop.step engine move = some later →
    later.log = shop.log ++ [.returned demand result] →
    demand.target? shop.pool.size = some target →
    (shop.pool.Obeys target result later.pool ↔ target ≤ 2 ^ 64)
  prompt : ∀ demand : Demand τ, demand.isSizing = true → shop.admits demand = true →
    (∀ size, demand = .resize size → Pool.Allowed size →
      shop.AtRest ∧ ∀ entry ∈ shop.log, entry.isCrash = false) →
    ∃ result, (follow engine
      (.call demand :: List.replicate 3 (.goOn shop.calls.length)) shop).log =
        shop.log ++ [.returned demand result]
  others : ∀ (move : Move τ) (later : Workshop τ σ), move.isEnding = false →
    shop.step engine move = some later → ¬shop.Changes later → shop.pool.SameStaff later.pool

theorem bounded_of_inUse (h : InUse engine shop) : shop.Bounded engine where
  size := (Ready.of_inUse h).size
  obeys_iff _ _ _ _ _ hstep hlog htarget := (Ready.of_inUse h).obeys_iff hstep hlog htarget
  prompt := by
    intro demand hdemand hadmits hresize
    cases demand with
    | add count =>
        obtain ⟨after, result, hover⟩ := shop.pool.exists_concluded (shop.pool.addWorkers count)
        exact ⟨result, follow_call_of_over hadmits hover 3⟩
    | remove count =>
        obtain ⟨after, result, hover⟩ := shop.pool.exists_concluded (shop.pool.removeWorkers count)
        exact ⟨result, follow_call_of_over hadmits hover 3⟩
    | resize size =>
        by_cases hsize : Pool.Allowed size
        · obtain ⟨hrest, hcrash⟩ := hresize size rfl hsize
          have hpending := (Ready.of_inUse h).accounted.pending_atRest hrest
          refine follow_call_of_isFlushing ?_ rfl hadmits
          rw [hpending, List.countP_eq_zero]
          exact fun entry hentry => Bool.eq_false_iff.1 (hcrash entry hentry)
        · exact follow_resize_of_not_allowed hsize hadmits 2
    | submit | flush | report | close | wait => cases hdemand
  others := by
    intro move later hmove hstep hchanges
    rcases ((Ready.of_inUse h).moderate hmove hstep).1 with hstaff | ⟨-, hchanged⟩
    · exact hstaff
    · exact absurd hchanged hchanges

theorem InUse.follow (h : InUse engine shop) {moves : List (Move τ)}
    (hmoves : ∀ move ∈ moves, move.isEnding = false) :
    InUse engine (Workshop.follow engine moves shop) := by
  induction moves generalizing shop with
  | nil => exact h
  | cons move moves ih =>
      have hrest : ∀ other ∈ moves, other.isEnding = false :=
        fun other hother => hmoves other (List.mem_cons_of_mem move hother)
      cases hstep : shop.step engine move with
      | none =>
          rw [Workshop.follow, hstep]
          exact ih h hrest
      | some later =>
          rw [Workshop.follow, hstep]
          exact ih (.step shop later move h (hmoves move List.mem_cons_self) hstep) hrest

theorem inUse_twoWorkers : InUse Script.engine twoWorkers := by
  let pool : Pool Script := { capacity := 1, size := 2, workers := [.atStop, .atStop] }
  let world : Stage := ⟨[], []⟩
  have hfresh : InUse Script.engine { pool, world } := .fresh 2 1 pool world rfl
  exact hfresh.take

/-- Three workers more, then five less, which is turned down, and then just one. -/
def thereAndBack : List (Move Script) :=
  [.call (.add 3), .call (.remove 5), .call (.resize 1), .goOn 2, .goOn 2, .goOn 2]

theorem bounded_thereAndBack :
    InUse Script.engine (follow Script.engine thereAndBack twoWorkers) ∧
      (follow Script.engine thereAndBack twoWorkers).Bounded Script.engine ∧
      (follow Script.engine thereAndBack twoWorkers).pool.size = 1 := by
  have hinUse : InUse Script.engine (follow Script.engine thereAndBack twoWorkers) :=
    inUse_twoWorkers.follow (by decide)
  exact ⟨hinUse, bounded_of_inUse hinUse, by decide +kernel⟩

/-- A job crashes, the other worker waits for the next one, and three workers are asked for. -/
def grievance : List (Move Script) :=
  [.call (.submit ⟨"lost", "lost", false, false, none⟩), .goOn 0, .goOn 0, .work 0, .work 0,
    .work 0, .work 0, .work 1, .work 1, .call (.resize 3), .goOn 1, .goOn 1, .goOn 1]

/-- So many workers are started that their number does not fit a word, and the size is one; and
three workers are asked for in vain, since the call sleeps and nobody can take a step. -/
theorem unheeded :
    make 2 1 ⟨[], []⟩ = .ok twoWorkers ∧
    (∃ later, twoWorkers.step Script.engine (.call (.add 18446744073709551615)) = some later ∧
      later.log = [.returned (.add 18446744073709551615) (.ok ())] ∧
      later.pool.size = 1 ∧ later.pool.workers.length = 2 ^ 64 + 1) ∧
    (follow Script.engine grievance twoWorkers).UnderWay 1 (.resize 3) ∧
    ∀ move, (follow Script.engine grievance twoWorkers).step Script.engine move = none := by
  refine ⟨rfl, ?_, ⟨.resizing 3 (.asleep 0), rfl⟩, ?_⟩
  · have hsum : twoWorkers.pool.size + 18446744073709551615 = 1 := by decide
    have hstart : Demand.start twoWorkers.pool (.add 18446744073709551615) =
        ({ twoWorkers.pool with
            workers := twoWorkers.pool.workers ++
              List.replicate (18446744073709551615 : UInt64).toNat .atStop
            size := 1 }, .over (.ok ())) := by
      have hreport : twoWorkers.pool.canReport = true := rfl
      rw [Demand.start, Pool.addWorkers, hsum, Pool.checkSize_of_allowed (by decide), ok_bind,
        Pool.start, if_pos hreport, hsum]
      rfl
    obtain ⟨later, hstep, hpool, -, hlog⟩ := call_of_start Script.engine rfl hstart
    refine ⟨later, hstep, hlog, ?_, ?_⟩
    · rw [hpool]
    · rw [hpool, List.length_append, List.length_replicate]
      rfl
  · intro move
    cases move with
    | call demand => cases demand <;> rfl
    | goOn caller => rcases caller with _ | _ | caller <;> rfl
    | work number => rcases number with _ | _ | number <;> rfl
    | read => rfl

end Workshop

end ParcelDesk
