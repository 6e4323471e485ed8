import ParcelDesk.Pool.Activity
import ParcelDesk.Proofs.Pool.Dues

/-!
# Sizes of pools

A pool has between one worker and a hundred. A size in these bounds can always be reached from
another one, and changing the size leaves the accounts alone.
-/

namespace ParcelDesk

namespace Pool

variable {τ : Type} {pool after : Pool τ} {size : UInt64}

def Allowed (size : UInt64) : Prop :=
  1 ≤ size.toNat ∧ size.toNat ≤ 100

instance : Decidable (Allowed size) :=
  inferInstanceAs (Decidable (_ ∧ _))

def sizeError (size : UInt64) : Error :=
  .refused .wrongInput s!"workers count must be between 1 and 100, got {size}"

theorem checkSize_of_allowed (h : Allowed size) : checkSize size = .ok () :=
  if_pos h

theorem checkSize_of_not_allowed (h : ¬Allowed size) : checkSize size = .error (sizeError size) :=
  if_neg h

theorem start_of_canReport (h : pool.canReport = true) (count : UInt64) :
    ∃ after, pool.start count = .ok after ∧ pool.SameAccounts after ∧
      SameTerms { pool with size := pool.size + count } after := by
  refine ⟨_, if_pos h, ⟨?_, ?_, rfl, rfl⟩, ⟨rfl, rfl, rfl, rfl⟩⟩
  · simp [dues, Worker.due]
  · simp [uncounted, Worker.uncounted]

theorem make_of_allowed (h : Allowed size) (capacity : Nat) :
    ∃ after : Pool τ, make size capacity = .ok after ∧
      SameAccounts { capacity := max capacity 1 } after ∧
      SameTerms { capacity := max capacity 1, size } after := by
  have hreport : canReport { capacity := max capacity 1 : Pool τ } = true := rfl
  obtain ⟨after, hstart, haccounts, hterms⟩ := start_of_canReport hreport size
  rw [UInt64.zero_add] at hterms
  refine ⟨after, ?_, haccounts, hterms⟩
  rw [make, checkSize_of_allowed h, ok_bind, hstart]

theorem make_of_not_allowed (h : ¬Allowed size) (capacity : Nat) :
    (make size capacity : Except Error (Pool τ)) = .error (sizeError size) := by
  rw [make, checkSize_of_not_allowed h]
  rfl

theorem adjust_of_allowed (hsize : Allowed size) (hreport : pool.canReport = true) :
    ∃ after, pool.adjust size = .ok after ∧ pool.SameAccounts after ∧
      SameTerms { pool with size } after := by
  rw [adjust]
  split
  next hless =>
    have hsum : pool.size + (size - pool.size) = size := by grind
    obtain ⟨after, hstart, haccounts, hterms⟩ := start_of_canReport hreport (size - pool.size)
    rw [hsum] at hterms
    refine ⟨after, ?_, haccounts, hterms⟩
    rw [addWorkers, hsum, checkSize_of_allowed hsize, ok_bind, hstart]
  next hnotLess =>
    split
    next hless =>
      have hrest : pool.size - (pool.size - size) = size := by grind
      have hcount : ¬pool.size < pool.size - size := by
        rw [UInt64.lt_iff_toNat_lt, UInt64.toNat_sub_of_le _ _ (UInt64.le_of_lt hless)]
        omega
      refine ⟨{ pool with
          signals := pool.signals + (pool.size - size).toNat
          size }, ?_, ⟨rfl, rfl, rfl, rfl⟩, ⟨rfl, rfl, rfl, rfl⟩⟩
      rw [removeWorkers, if_neg hcount, hrest, checkSize_of_allowed hsize, ok_bind]
    next hnotMore =>
      have hsame : pool.size = size := by
        apply UInt64.toNat_inj.1
        rw [UInt64.lt_iff_toNat_lt] at hnotLess hnotMore
        omega
      exact ⟨pool, rfl, ⟨rfl, rfl, rfl, rfl⟩, ⟨hsame, rfl, rfl, rfl⟩⟩

/-! ## Changes of size -/

theorem addWorkers_eq_ok {count : UInt64} (h : pool.addWorkers count = .ok after) :
    Allowed (pool.size + count) ∧ pool.canReport = true ∧
      after = { pool with
        workers := pool.workers ++ List.replicate count.toNat .atStop
        size := pool.size + count } := by
  by_cases hsize : Allowed (pool.size + count)
  · rw [addWorkers, checkSize_of_allowed hsize, ok_bind, start] at h
    split at h
    next hreport =>
      cases h
      exact ⟨hsize, hreport, rfl⟩
    next => cases h
  · rw [addWorkers, checkSize_of_not_allowed hsize] at h
    cases h

theorem removeWorkers_eq_ok {count : UInt64} (h : pool.removeWorkers count = .ok after) :
    Allowed (pool.size - count) ∧ count ≤ pool.size ∧
      after = { pool with
        signals := pool.signals + count.toNat
        size := pool.size - count } := by
  rw [removeWorkers] at h
  split at h
  next => cases h
  next hcount =>
    by_cases hsize : Allowed (pool.size - count)
    · rw [checkSize_of_allowed hsize, ok_bind] at h
      cases h
      exact ⟨hsize, UInt64.not_lt.1 hcount, rfl⟩
    · rw [checkSize_of_not_allowed hsize] at h
      cases h

inductive Sized (pool : Pool τ) : Except Error (Pool τ) → Prop where
  | refuse (error : Error) : Sized pool (.error error)
  | keep : Sized pool (.ok pool)
  | hire (count : UInt64) (hreport : pool.canReport = true) (hsize : Allowed (pool.size + count)) :
      Sized pool (.ok { pool with
        workers := pool.workers ++ List.replicate count.toNat .atStop
        size := pool.size + count })
  | release (count : UInt64) (hcount : count ≤ pool.size) (hsize : Allowed (pool.size - count)) :
      Sized pool (.ok { pool with
        signals := pool.signals + count.toNat
        size := pool.size - count })

theorem sized_addWorkers (pool : Pool τ) (count : UInt64) : pool.Sized (pool.addWorkers count) := by
  cases h : pool.addWorkers count with
  | error error => exact .refuse error
  | ok after =>
      obtain ⟨hsize, hreport, rfl⟩ := addWorkers_eq_ok h
      exact .hire count hreport hsize

theorem sized_removeWorkers (pool : Pool τ) (count : UInt64) :
    pool.Sized (pool.removeWorkers count) := by
  cases h : pool.removeWorkers count with
  | error error => exact .refuse error
  | ok after =>
      obtain ⟨hsize, hcount, rfl⟩ := removeWorkers_eq_ok h
      exact .release count hcount hsize

theorem sized_adjust (pool : Pool τ) (size : UInt64) : pool.Sized (pool.adjust size) := by
  rw [adjust]
  split
  · exact sized_addWorkers pool _
  · split
    · exact sized_removeWorkers pool _
    · exact .keep

end Pool

end ParcelDesk
