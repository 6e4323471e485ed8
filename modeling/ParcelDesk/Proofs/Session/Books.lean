import Mathlib.Tactic.Abel
import ParcelDesk.Proofs.Session.Answers
import ParcelDesk.Session.Basic

/-!
# Books of a session

Every command that was handed over has its outcome on the stream, has it due, or has lost it. A job
is pending until its outcome was reported and it was counted off, and the job of a lost outcome is
never counted off. So once no job is pending, every command has its outcome on the stream.
-/

namespace ParcelDesk

variable {handled : List Instruction}

/-- The outcomes on the stream and those that are due or lost are those of the commands handed over,
and the jobs that are pending are accounted for. -/
structure Balanced (handled : List Instruction) (stream : List Outcome)
    (pool : Pool (Call String)) (sending : Nat) (lost : Multiset String) : Prop where
  labels : Outcome.labels stream + pool.dues + lost = Instruction.labels handled
  pending : pool.pending = sending + pool.dues.card + lost.card + pool.uncounted

namespace Balanced

variable {stream : List Outcome} {pool after : Pool (Call String)} {sending : Nat}
  {lost : Multiset String} {outcome : Outcome}

theorem isAnswer_of_mem_dues (h : Balanced handled stream pool sending lost)
    (hdue : outcome.label ∈ pool.dues) : outcome.isAnswer = false := by
  have hlabel : outcome.label ∈ Instruction.labels handled := by
    rw [← h.labels]
    exact Multiset.mem_add.2 (.inl (Multiset.mem_add.2 (.inr hdue)))
  exact decide_eq_false (Instruction.ne_of_mem_labels hlabel)

theorem same (h : Balanced handled stream pool sending lost) (haccounts : pool.SameAccounts after) :
    Balanced handled stream after sending lost where
  labels := by rw [haccounts.dues, h.labels]
  pending := by rw [haccounts.pending, haccounts.dues, haccounts.uncounted, h.pending]

/-- An outcome that will never come is booked as lost. -/
theorem lose {label : String} (h : Balanced handled stream pool sending lost)
    (hdues : {label} + after.dues = pool.dues) (huncounted : after.uncounted = pool.uncounted)
    (hpending : after.pending = pool.pending) :
    Balanced handled stream after sending ({label} + lost) where
  labels := by
    rw [← h.labels, ← hdues]
    abel
  pending := by
    rw [hpending, h.pending, ← hdues, huncounted, Multiset.card_add, Multiset.card_add]
    abel

theorem tell (h : Balanced handled stream pool sending lost) (hanswer : outcome.isAnswer = false)
    (hdues : {outcome.label} + after.dues = pool.dues)
    (huncounted : after.uncounted = 1 + pool.uncounted) (hpending : after.pending = pool.pending) :
    Balanced handled (stream ++ [outcome]) after sending lost where
  labels := by
    rw [← h.labels, ← hdues, Outcome.labels_append, Outcome.labels_singleton hanswer]
    abel
  pending := by
    rw [hpending, h.pending, ← hdues, huncounted, Multiset.card_add, Multiset.card_singleton]
    abel

theorem countOff (h : Balanced handled stream pool sending lost) (hdues : after.dues = pool.dues)
    (huncounted : 1 + after.uncounted = pool.uncounted)
    (hpending : after.pending = pool.pending - 1) :
    Balanced handled stream after sending lost where
  labels := by rw [hdues, h.labels]
  pending := by
    rw [hpending, h.pending, ← huncounted, hdues]
    omega

theorem turn (h : Balanced handled stream pool sending lost) (hturn : pool.Turn after) :
    ∃ more lost, after.results = pool.results ++ more ∧
      (∀ outcome ∈ more, outcome.isAnswer = false) ∧
      Balanced handled (stream ++ more) after sending lost := by
  cases hturn with
  | quiet same =>
      refine ⟨[], lost, by rw [same.results, List.append_nil], List.forall_mem_nil _, ?_⟩
      rw [List.append_nil]
      exact h.same same
  | lost label dues uncounted pending results =>
      refine ⟨[], {label} + lost, by rw [results, List.append_nil], List.forall_mem_nil _, ?_⟩
      rw [List.append_nil]
      exact h.lose dues uncounted pending
  | told outcome dues uncounted pending results =>
      have hdue : outcome.label ∈ pool.dues := by
        rw [← dues]
        exact Multiset.mem_add.2 (.inl (Multiset.mem_singleton_self _))
      have hanswer := h.isAnswer_of_mem_dues hdue
      refine ⟨[outcome], lost, results, ?_, h.tell hanswer dues uncounted pending⟩
      intro told htold
      rw [List.mem_singleton.1 htold]
      exact hanswer
  | counted dues uncounted pending results =>
      refine ⟨[], lost, by rw [results, List.append_nil], List.forall_mem_nil _, ?_⟩
      rw [List.append_nil]
      exact h.countOff dues uncounted pending

theorem fresh (hdues : pool.dues = 0) (huncounted : pool.uncounted = 0)
    (hpending : pool.pending = 0) : Balanced [] [] pool 0 0 where
  labels := by
    rw [hdues]
    rfl
  pending := by
    rw [hpending, hdues, huncounted]
    rfl

theorem submit (h : Balanced handled stream pool sending lost) (hdues : after.dues = pool.dues)
    (huncounted : after.uncounted = pool.uncounted) (hpending : after.pending = pool.pending + 1) :
    Balanced handled stream after (sending + 1) lost where
  labels := by rw [hdues, h.labels]
  pending := by
    rw [hpending, h.pending, hdues, huncounted]
    omega

theorem enqueue (h : Balanced handled stream pool (sending + 1) lost) (command : Command)
    (hdues : after.dues = {command.label} + pool.dues)
    (huncounted : after.uncounted = pool.uncounted) (hpending : after.pending = pool.pending) :
    Balanced (handled ++ [.run command]) stream after sending lost where
  labels := by
    have hlabels : Instruction.labels [.run command] = {command.label} := rfl
    rw [Instruction.labels_append, ← h.labels, hdues, hlabels]
    abel
  pending := by
    rw [hpending, h.pending, hdues, huncounted, Multiset.card_add, Multiset.card_singleton]
    omega

theorem answer (h : Balanced handled stream pool sending lost) {request : Instruction}
    (hasks : request.asksPool = true) (hanswer : outcome.isAnswer = true)
    (hdues : after.dues = pool.dues) (huncounted : after.uncounted = pool.uncounted)
    (hpending : after.pending = pool.pending) :
    Balanced (handled ++ [request]) (stream ++ [outcome]) after sending lost where
  labels := by
    rw [Instruction.labels_append, Instruction.labels_eq_zero_of_asksPool hasks,
      Outcome.labels_append, Outcome.labels_singleton_of_isAnswer hanswer, add_zero, add_zero,
      hdues, h.labels]
  pending := by rw [hpending, h.pending, hdues, huncounted]

/-- Once no job is pending, every command has its outcome on the stream. -/
theorem labels_of_pending (h : Balanced handled stream pool sending lost)
    (hpending : pool.pending = 0) : Outcome.labels stream = Instruction.labels handled := by
  have hnone := h.pending
  rw [hpending] at hnone
  have hdues : pool.dues = 0 := Multiset.card_eq_zero.1 (by omega)
  have hlost : lost = 0 := Multiset.card_eq_zero.1 (by omega)
  rw [← h.labels, hdues, hlost, add_zero, add_zero]

theorem labels_le (h : Balanced handled stream pool sending lost) :
    Outcome.labels stream ≤ Instruction.labels handled := by
  rw [← h.labels, add_assoc]
  exact Multiset.le_add_right _ _

end Balanced

end ParcelDesk
