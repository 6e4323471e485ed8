import ParcelDesk.Proofs.Pool.Deeds
import ParcelDesk.Proofs.Pool.Workshop

/-!
# Steps around a pool

A step is an act of a worker or a deed of a call, or a call is made, or an outcome is read.
-/

namespace ParcelDesk

namespace Workshop

variable {τ σ : Type} {engine : Engine τ σ} {shop later : Workshop τ σ} {move : Move τ}

/-- How a workshop starts: with all its workers looking for a signal, and nothing done. -/
theorem make_eq_ok {workers : UInt64} {capacity : Nat} {world : σ}
    (h : make workers capacity world = .ok shop) : Pool.Allowed workers ∧
      shop =
        { pool :=
            { capacity := max capacity 1
              size := workers
              workers := List.replicate workers.toNat .atStop
              receiver := .taken }
          world } := by
  by_cases hsize : Pool.Allowed workers
  · rw [make, Pool.make, Pool.checkSize_of_allowed hsize] at h
    cases h
    have hsum : 0 + workers = workers := UInt64.zero_add workers
    refine ⟨hsize, ?_⟩
    simp only [Pool.takeResults, List.nil_append, hsum]
  · rw [make, Pool.make_of_not_allowed hsize] at h
    cases h

theorem log_of_make {workers : UInt64} {capacity : Nat} {world : σ}
    (h : make workers capacity world = .ok shop) : shop.log = [] := by
  obtain ⟨-, rfl⟩ := make_eq_ok h
  rfl

inductive Step (engine : Engine τ σ) (shop : Workshop τ σ) : Move τ → Workshop τ σ → Prop where
  | call (demand : Demand τ) (hadmits : shop.admits demand = true) :
      Step engine shop (.call demand) { shop with
        pool := (demand.start shop.pool).1
        calls := shop.calls ++ [(demand, (demand.start shop.pool).2)]
        log := shop.log ++ Entry.ofProgress demand (demand.start shop.pool).2 }
  | goOn (caller : Nat) (demand : Demand τ) (activity : Activity τ) (pool : Pool τ)
      (progress : Progress τ) (hcall : shop.calls[caller]? = some (demand, .going activity))
      (hdeed : shop.pool.Deed caller activity (pool, progress)) :
      Step engine shop (.goOn caller) { shop with
        pool
        calls := shop.calls.set caller (demand, progress)
        log := shop.log ++ Entry.ofProgress demand progress }
  | work (number : Nat) (old new : Worker τ) (pool : Pool τ) (world : σ)
      (hold : shop.pool.workers[number]? = some old)
      (hact : shop.pool.Act engine number old new pool) :
      Step engine shop (.work number) { shop with
        pool
        world
        log := shop.log ++ Entry.ofTurn number (some old) (some new) }
  | read (outcome : Outcome) (rest : List Outcome)
      (hresults : shop.pool.results = outcome :: rest) :
      Step engine shop .read { shop with
        pool := { shop.pool with results := rest }
        read := shop.read ++ [outcome] }

theorem step_of_move (h : shop.step engine move = some later) : shop.Step engine move later := by
  cases move with
  | call demand =>
      rw [step, callStep] at h
      split at h
      next hadmits =>
        cases h
        exact .call demand hadmits
      next => cases h
  | goOn caller =>
      rw [step, goOnStep] at h
      split at h
      next demand activity hcall =>
        obtain ⟨⟨pool, progress⟩, hactivity, rfl⟩ := Option.map_eq_some_iff.1 h
        exact .goOn caller demand activity pool progress hcall (Pool.deed_activityStep hactivity)
      next => cases h
  | work number =>
      obtain ⟨⟨pool, world⟩, hworker, rfl⟩ := Option.map_eq_some_iff.1 h
      obtain ⟨old, new, hold, hact⟩ := Pool.act_workerStep hworker
      have hentries : Entry.ofTurn number shop.pool.workers[number]? pool.workers[number]? =
          Entry.ofTurn number (some old) (some new) := by rw [hold, hact.getElem?_self hold]
      simp only [hentries]
      exact .work number old new pool world hold hact
  | read =>
      obtain ⟨⟨outcome, pool⟩, hread, rfl⟩ := Option.map_eq_some_iff.1 h
      rw [Pool.read?] at hread
      split at hread
      next outcome rest hreceiver hresults =>
        cases hread
        exact .read outcome rest hresults
      next => cases hread

end Workshop

end ParcelDesk
