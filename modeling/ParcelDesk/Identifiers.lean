/-!
# Sets of identifiers

A list of identifiers given by a client may repeat some of them; `distinct` keeps each once, in
ascending order.
-/

namespace ParcelDesk

def insertDistinct (id : UInt64) : List UInt64 → List UInt64
  | [] => [id]
  | head :: rest =>
      if id < head then id :: head :: rest
      else if id = head then head :: rest
      else head :: insertDistinct id rest

def distinct (ids : List UInt64) : List UInt64 :=
  ids.foldr insertDistinct []

theorem mem_insertDistinct {id x : UInt64} {ids : List UInt64} :
    x ∈ insertDistinct id ids ↔ x = id ∨ x ∈ ids := by
  induction ids with
  | nil => simp [insertDistinct]
  | cons head rest ih =>
      simp only [insertDistinct]
      split
      · simp
      · split
        · rename_i heq
          subst heq
          simp
        · simp only [List.mem_cons, ih]
          exact or_left_comm

/-- Nothing is lost and nothing is added. -/
theorem mem_distinct {x : UInt64} {ids : List UInt64} : x ∈ distinct ids ↔ x ∈ ids := by
  induction ids with
  | nil => simp [distinct]
  | cons head rest ih =>
      rw [distinct, List.foldr_cons, ← distinct, mem_insertDistinct, ih, List.mem_cons]

theorem ascending_insertDistinct (id : UInt64) {ids : List UInt64}
    (h : ids.Pairwise (· < ·)) : (insertDistinct id ids).Pairwise (· < ·) := by
  induction ids with
  | nil => simp [insertDistinct]
  | cons head rest ih =>
      have hrest := List.pairwise_cons.1 h
      simp only [insertDistinct]
      split
      · rename_i hlt
        refine List.pairwise_cons.2 ⟨fun x hx => ?_, h⟩
        rcases List.mem_cons.1 hx with rfl | hx
        · exact hlt
        · exact UInt64.lt_trans hlt (hrest.1 x hx)
      · split
        · exact h
        · rename_i hge hne
          refine List.pairwise_cons.2 ⟨fun x hx => ?_, ih hrest.2⟩
          rcases mem_insertDistinct.1 hx with rfl | hx
          · exact UInt64.lt_of_le_of_ne (UInt64.not_lt.1 hge) (Ne.symm hne)
          · exact hrest.1 x hx

/-- The identifiers come in ascending order, each once. -/
theorem ascending_distinct (ids : List UInt64) : (distinct ids).Pairwise (· < ·) := by
  induction ids with
  | nil => exact List.Pairwise.nil
  | cons head rest ih => exact ascending_insertDistinct head ih

theorem nodup_distinct (ids : List UInt64) : (distinct ids).Nodup := by
  apply (ascending_distinct ids).imp
  intro a b hlt heq
  subst heq
  exact UInt64.lt_irrefl a hlt

theorem insertDistinct_of_ascending {id : UInt64} {ids : List UInt64}
    (h : (id :: ids).Pairwise (· < ·)) : insertDistinct id ids = id :: ids := by
  cases ids with
  | nil => rfl
  | cons head rest =>
      rw [insertDistinct, if_pos ((List.pairwise_cons.1 h).1 head List.mem_cons_self)]

theorem distinct_of_ascending {ids : List UInt64} (h : ids.Pairwise (· < ·)) :
    distinct ids = ids := by
  induction ids with
  | nil => rfl
  | cons head rest ih =>
      have hrest := ih (List.pairwise_cons.1 h).2
      rw [distinct] at hrest ⊢
      rw [List.foldr_cons, hrest, insertDistinct_of_ascending h]

@[simp] theorem distinct_distinct (ids : List UInt64) : distinct (distinct ids) = distinct ids :=
  distinct_of_ascending (ascending_distinct ids)

@[simp] theorem distinct_singleton (id : UInt64) : distinct [id] = [id] := rfl

end ParcelDesk
