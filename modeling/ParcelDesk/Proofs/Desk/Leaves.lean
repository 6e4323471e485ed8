import ParcelDesk.Proofs.Desk.Faults

/-!
# Leaves of errors

A batch of errors may hold batches, folded or not. What callers see of such an error is read off the
errors at its leaves, from left to right: the first one gives the class, any of them may put the
blame on the engine, and all their wordings make up the wording.
-/

namespace ParcelDesk

namespace Text

/-- Texts may be joined group by group, if every group has a text. -/
theorem intercalate_flatMap (separator : String) {groups : List α} {texts : α → List String}
    (h : ∀ group ∈ groups, texts group ≠ []) :
    separator.intercalate (groups.flatMap texts) =
      separator.intercalate (groups.map fun group => separator.intercalate (texts group)) := by
  induction groups with
  | nil => rfl
  | cons group groups ih =>
      rw [List.flatMap_cons, List.map_cons]
      cases groups with
      | nil => rw [List.flatMap_nil, List.append_nil, List.map_nil, String.intercalate_singleton]
      | cons next groups =>
          have hnext := h next (List.mem_cons_of_mem _ List.mem_cons_self)
          have hrest : (next :: groups).flatMap texts ≠ [] := by
            rw [List.flatMap_cons]
            exact List.append_ne_nil_of_left_ne_nil hnext _
          rw [String.intercalate_append_of_ne_nil (h group List.mem_cons_self) hrest,
            ih fun other hother => h other (List.mem_cons_of_mem _ hother), List.map_cons,
            String.intercalate_cons_cons]

end Text

theorem Refusal.errorClass_ne_internal (reason : Refusal) : reason.errorClass ≠ .internal := by
  cases reason <;> exact ErrorClass.noConfusion

namespace Error

mutual

/-- The errors that an error comes down to, from left to right. -/
def leaves : Error → List Error
  | .refused reason detail => [.refused reason detail]
  | .batch members => leavesOfAll members
  | .failed source detail => [.failed source detail]

def leavesOfAll : List Error → List Error
  | [] => []
  | error :: rest => error.leaves ++ leavesOfAll rest

end

theorem leaves_batch (members : List Error) : (batch members).leaves = members.flatMap leaves := by
  rw [leaves]
  induction members with
  | nil => rfl
  | cons error rest ih => rw [leavesOfAll, ih, List.flatMap_cons]

/-- Errors that are put together without an empty batch. -/
inductive Built : Error → Prop where
  | refused (reason : Refusal) (detail : String) : Built (.refused reason detail)
  | failed (source : Source) (detail : String) : Built (.failed source detail)
  | batch (members : List Error) (hsome : members ≠ []) (h : ∀ member ∈ members, Built member) :
      Built (.batch members)
  | fold (members : List Error) (hsome : members ≠ []) (h : ∀ member ∈ members, Built member) :
      Built (fold members)

/-- What the leaves tell of an error. -/
structure Told (error : Error) : Prop where
  errorClass : error.leaves.head?.map Error.errorClass = some error.errorClass
  isServiceError : error.isServiceError = true ↔
    ∃ leaf ∈ error.leaves, leaf.errorClass = .internal
  message : error.message = String.intercalate "; " (error.leaves.map Error.message)

theorem told_refused (reason : Refusal) (detail : String) : (refused reason detail).Told where
  errorClass := rfl
  isServiceError := by
    constructor
    · intro h
      cases h
    · rintro ⟨leaf, hleaf, hinternal⟩
      rw [List.mem_singleton.1 hleaf] at hinternal
      exact absurd hinternal (Refusal.errorClass_ne_internal reason)
  message := rfl

theorem told_failed (source : Source) (detail : String) : (failed source detail).Told where
  errorClass := rfl
  isServiceError := ⟨fun _ => ⟨_, List.mem_singleton_self _, rfl⟩, fun _ => rfl⟩
  message := rfl

theorem Told.leaves_ne_nil {error : Error} (h : error.Told) : error.leaves ≠ [] := by
  intro hnil
  have hfirst := h.errorClass
  rw [hnil] at hfirst
  cases hfirst

/-- The class by which the engine is to blame is that of a leaf. -/
theorem Told.isServiceError_of_internal {error : Error} (h : error.Told)
    (hinternal : error.errorClass = .internal) : error.isServiceError = true := by
  obtain ⟨leaf, hfirst, hclass⟩ := Option.map_eq_some_iff.1 h.errorClass
  exact h.isServiceError.2 ⟨leaf, List.mem_of_mem_head? hfirst, hclass.trans hinternal⟩

theorem told_batch {members : List Error} (hsome : members ≠ [])
    (h : ∀ member ∈ members, member.Told) : (batch members).Told where
  errorClass := by
    cases members with
    | nil => exact absurd rfl hsome
    | cons first rest =>
        have hfirst := h first List.mem_cons_self
        rw [leaves_batch, List.flatMap_cons, List.head?_append_of_ne_nil _ hfirst.leaves_ne_nil,
          hfirst.errorClass]
        rfl
  isServiceError := by
    rw [isServiceError, anyServiceError_eq_any, List.any_eq_true, leaves_batch]
    constructor
    · rintro ⟨member, hmember, hblame⟩
      obtain ⟨leaf, hleaf, hinternal⟩ := (h member hmember).isServiceError.1 hblame
      exact ⟨leaf, List.mem_flatMap.2 ⟨member, hmember, hleaf⟩, hinternal⟩
    · rintro ⟨leaf, hleaf, hinternal⟩
      obtain ⟨member, hmember, hleaf⟩ := List.mem_flatMap.1 hleaf
      exact ⟨member, hmember, (h member hmember).isServiceError.2 ⟨leaf, hleaf, hinternal⟩⟩
  message := by
    have hsome : ∀ member ∈ members, member.leaves.map Error.message ≠ [] := by
      intro member hmember hnil
      exact (h member hmember).leaves_ne_nil (List.map_eq_nil_iff.1 hnil)
    rw [message, messages_eq_map, leaves_batch, List.map_flatMap, Text.intercalate_flatMap _ hsome]
    exact congrArg _ (List.map_congr_left fun member hmember => (h member hmember).message)

/-- Two errors between which callers see no difference. -/
structure Resembles (error other : Error) : Prop where
  errorClass : error.errorClass = other.errorClass
  isServiceError : error.isServiceError = other.isServiceError
  message : error.message = other.message

theorem resembles_fold (members : List Error) : (fold members).Resembles (.batch members) := by
  cases members with
  | nil => exact ⟨rfl, rfl, rfl⟩
  | cons first rest =>
      cases rest with
      | cons second rest => exact ⟨rfl, rfl, rfl⟩
      | nil =>
          refine ⟨rfl, ?_, ?_⟩
          · rw [fold_singleton, isServiceError, anyServiceError_eq_any, List.any_cons, List.any_nil,
              Bool.or_false]
          · rw [fold_singleton, message, messages_eq_map, List.map_singleton,
              String.intercalate_singleton]

theorem told_fold {members : List Error} (hsome : members ≠ [])
    (h : ∀ member ∈ members, member.Told) : (fold members).Told := by
  cases members with
  | nil => exact absurd rfl hsome
  | cons first rest =>
      cases rest with
      | nil => exact h first List.mem_cons_self
      | cons second rest => exact told_batch hsome h

/-- Batches of any depth, folded or not, show callers what their leaves tell. -/
theorem Built.told {error : Error} (h : error.Built) : error.Told := by
  induction h with
  | refused reason detail => exact told_refused reason detail
  | failed source detail => exact told_failed source detail
  | batch members hsome _ ih => exact told_batch hsome ih
  | fold members hsome _ ih => exact told_fold hsome ih

theorem news_of_isServiceError {error : Error} (h : error.isServiceError = true) {σ : Type}
    (deed : Deed) (serve : Server σ) (time : Instant) (state : σ)
    (hreply : (deed.call.run serve time state).reply = Reply.fail error) :
    (deed.call.run serve time state).news =
      [⟨deed.stage, time, distinct deed.ids, some error.message⟩] := by
  rw [deed.run_call] at hreply ⊢
  change (deed.attempted.run serve time state).reply = Reply.fail error at hreply
  change Desk.tidings deed.stage time (distinct deed.ids) _ = _
  rw [hreply, Reply.fail, Desk.tidings, if_pos h]

/-- Callers see of an error what its leaves tell, and the same if a batch is folded. If they are
told that the engine is to blame, the failure is announced. -/
structure ReadOff (error : Error) : Prop where
  told : error.Told
  folded : ∀ members, error = .batch members → (fold members).Resembles error
  announced : error.errorClass = .internal → error.isServiceError = true ∧
    ∀ {σ : Type} (deed : Deed) (serve : Server σ) (time : Instant) (state : σ),
      (deed.call.run serve time state).reply = Reply.fail error →
      (deed.call.run serve time state).news =
        [⟨deed.stage, time, distinct deed.ids, some error.message⟩]

theorem readOff_of_built {error : Error} (h : error.Built) : error.ReadOff where
  told := h.told
  folded := by
    rintro members rfl
    exact resembles_fold members
  announced hinternal := by
    have hservice := h.told.isServiceError_of_internal hinternal
    exact ⟨hservice, news_of_isServiceError hservice⟩

/-- One order is unknown, and of two others one is turned down and one cannot be stored. -/
def mixed : Error :=
  .batch [.refused .notFound "order 7 not found",
    fold [.batch [.refused .wrongStatus "order 8 is returned", .internal "disk is full"]]]

theorem readOff_mixed : mixed.Built ∧ mixed.ReadOff ∧ mixed.errorClass = .notFound ∧
    mixed.isServiceError = true ∧
    mixed.message = "not found: order 7 not found; wrong status: order 8 is returned; " ++
      "internal error: disk is full" := by
  have hinner : Built (.batch [.refused .wrongStatus "order 8 is returned",
      .internal "disk is full"]) := by
    refine .batch _ (List.cons_ne_nil _ _) (List.forall_mem_cons.2 ⟨.refused _ _, ?_⟩)
    exact List.forall_mem_singleton.2 (.failed _ _)
  have hmixed : mixed.Built := by
    refine .batch _ (List.cons_ne_nil _ _) (List.forall_mem_cons.2 ⟨.refused _ _, ?_⟩)
    exact List.forall_mem_singleton.2
      (.fold _ (List.cons_ne_nil _ _) (List.forall_mem_singleton.2 hinner))
  exact ⟨hmixed, readOff_of_built hmixed, rfl, rfl, by decide +kernel⟩

end Error

end ParcelDesk
