import Mathlib.Algebra.Order.Group.Multiset
import ParcelDesk.Command
import ParcelDesk.Proofs.Pool.Sizes

/-!
# Answers about the pool

Where the answers to requests about the pool stand among the outcomes of commands, and how they
read. A request waits for the outcomes of the commands before it, unless it asks for a size that a
pool cannot have: such a request is refused at once.
-/

namespace ParcelDesk

namespace Instruction

def asksPool : Instruction → Bool
  | .run _ => false
  | .setWorkers _ | .countWorkers => true

def isRefused : Instruction → Bool
  | .setWorkers count => !decide (Pool.Allowed count)
  | .run _ | .countWorkers => false

def label? : Instruction → Option String
  | .run command => some command.label
  | .setWorkers _ | .countWorkers => none

def resized (size : UInt64) : Instruction → UInt64
  | .setWorkers count => if Pool.Allowed count then count else size
  | .run _ | .countWorkers => size

def verdict (size : UInt64) : Instruction → Except Error String
  | .setWorkers count =>
      if Pool.Allowed count then .ok s!"workers: {count}" else .error (Pool.sizeError count)
  | .run _ | .countWorkers => .ok s!"workers: {size}"

/-- The size of a pool after the instructions: the last one that was accepted. -/
def granted (initial : UInt64) (handled : List Instruction) : UInt64 :=
  handled.foldl resized initial

def labels (handled : List Instruction) : Multiset String :=
  ↑(handled.filterMap label?)

end Instruction

namespace Outcome

def isAnswer (outcome : Outcome) : Bool :=
  outcome.label = "workers"

def labels (stream : List Outcome) : Multiset String :=
  ↑((stream.filter fun outcome => !outcome.isAnswer).map label)

end Outcome

open Instruction (granted)

variable {initial : UInt64} {handled before after : List Instruction} {request : Instruction}
  {stream early : List Outcome} {outcome : Outcome}

/-- The outcome is the answer to a request that was made after the instructions `before`, and stands
in its place after the outcomes `early`. -/
structure Placed (initial : UInt64) (before : List Instruction) (request : Instruction)
    (early : List Outcome) (outcome : Outcome) : Prop where
  /-- It says what became of the request. -/
  reads : outcome = ⟨"workers", request.verdict (granted initial before)⟩
  /-- It follows the answers to the requests made earlier. -/
  turn : early.countP Outcome.isAnswer = before.countP Instruction.asksPool
  /-- No command that was handed over later has its outcome before it. -/
  first : Outcome.labels early ≤ Instruction.labels before
  /-- All commands that were handed over earlier have theirs before it. -/
  waits : request.isRefused = false → Outcome.labels early = Instruction.labels before

/-- Every request among the instructions is answered once and in its place. -/
structure Orderly (initial : UInt64) (handled : List Instruction) (stream : List Outcome) :
    Prop where
  once : stream.countP Outcome.isAnswer = handled.countP Instruction.asksPool
  placed : ∀ before request after, handled = before ++ request :: after →
    request.asksPool = true →
    ∃ early outcome late, stream = early ++ outcome :: late ∧
      Placed initial before request early outcome

namespace Instruction

theorem granted_append (initial : UInt64) (handled : List Instruction) (request : Instruction) :
    granted initial (handled ++ [request]) = request.resized (granted initial handled) :=
  List.foldl_concat resized initial request handled

theorem labels_append (handled rest : List Instruction) :
    labels (handled ++ rest) = labels handled + labels rest := by
  rw [labels, List.filterMap_append, ← Multiset.coe_add]
  rfl

theorem labels_eq_zero_of_asksPool (h : request.asksPool = true) : labels [request] = 0 := by
  cases request with
  | run command => cases h
  | setWorkers count => rfl
  | countWorkers => rfl

theorem label_ne (command : Command) : command.label ≠ "workers" := by
  intro h
  have hblank : ' ' ∈ command.label.toList := by
    simp [Command.label]
  rw [h] at hblank
  revert hblank
  decide

theorem ne_of_mem_labels {label : String} (h : label ∈ labels handled) : label ≠ "workers" := by
  obtain ⟨request, -, hlabel⟩ := List.mem_filterMap.1 (Multiset.mem_coe.1 h)
  cases request with
  | run command =>
      cases hlabel
      exact label_ne command
  | setWorkers count => cases hlabel
  | countWorkers => cases hlabel

end Instruction

namespace Outcome

theorem labels_append (stream rest : List Outcome) :
    labels (stream ++ rest) = labels stream + labels rest := by
  rw [labels, List.filter_append, List.map_append, ← Multiset.coe_add]
  rfl

theorem labels_singleton (h : outcome.isAnswer = false) : labels [outcome] = {outcome.label} := by
  rw [labels, List.filter_cons_of_pos (by simp [h])]
  rfl

theorem labels_singleton_of_isAnswer (h : outcome.isAnswer = true) : labels [outcome] = 0 := by
  rw [labels, List.filter_cons_of_neg (by simp [h])]
  rfl

end Outcome

theorem Placed.isAnswer (h : Placed initial before request early outcome) :
    outcome.isAnswer = true := by
  rw [h.reads]
  rfl

namespace Orderly

theorem nil (initial : UInt64) : Orderly initial [] [] where
  once := rfl
  placed before request after h := by
    cases before with
    | nil => cases h
    | cons first rest => cases h

theorem command (h : Orderly initial handled stream) (command : Command) :
    Orderly initial (handled ++ [.run command]) stream where
  once := by
    rw [h.once, List.countP_append]
    rfl
  placed before request after hsplit hasks := by
    rcases List.eq_nil_or_concat after with rfl | ⟨rest, last, rfl⟩
    · obtain ⟨-, hrequest⟩ := List.append_inj' hsplit rfl
      cases hrequest
      cases hasks
    · rw [List.concat_eq_append, ← List.cons_append, ← List.append_assoc] at hsplit
      exact h.placed before request rest (List.append_inj' hsplit rfl).1 hasks

theorem told (h : Orderly initial handled stream) {more : List Outcome}
    (hmore : ∀ outcome ∈ more, outcome.isAnswer = false) :
    Orderly initial handled (stream ++ more) where
  once := by
    have hnone : more.countP Outcome.isAnswer = 0 :=
      List.countP_eq_zero.2 fun outcome hmem => by simp [hmore outcome hmem]
    rw [List.countP_append, hnone, add_zero, h.once]
  placed before request after hsplit hasks := by
    obtain ⟨early, answer, late, rfl, hplaced⟩ := h.placed before request after hsplit hasks
    exact ⟨early, answer, late ++ more, by rw [List.append_assoc, List.cons_append], hplaced⟩

theorem answer (h : Orderly initial handled stream) (hasks : request.asksPool = true)
    (hplaced : Placed initial handled request stream outcome) :
    Orderly initial (handled ++ [request]) (stream ++ [outcome]) where
  once := by
    rw [List.countP_append, List.countP_append, List.countP_singleton, List.countP_singleton,
      hplaced.isAnswer, hasks, h.once]
  placed before earlier after hsplit hearlier := by
    rcases List.eq_nil_or_concat after with rfl | ⟨rest, last, rfl⟩
    · obtain ⟨rfl, hrequest⟩ := List.append_inj' hsplit rfl
      cases hrequest
      exact ⟨stream, outcome, [], rfl, hplaced⟩
    · rw [List.concat_eq_append, ← List.cons_append, ← List.append_assoc] at hsplit
      obtain ⟨early, answer, late, rfl, hfirst⟩ :=
        h.placed before earlier rest (List.append_inj' hsplit rfl).1 hearlier
      exact ⟨early, answer, late ++ [outcome], by rw [List.append_assoc, List.cons_append], hfirst⟩

end Orderly

end ParcelDesk
