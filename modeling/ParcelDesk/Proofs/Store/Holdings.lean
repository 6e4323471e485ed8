import ParcelDesk.Proofs.Store.Rack
import ParcelDesk.Store.Holdings

namespace ParcelDesk

namespace Holding

/-! A holding is sound when the orders that wait are those with a live place on its rack, each with
the order that the place shows. -/

structure Sound (owner : UInt64) (holding : Holding) : Prop where
  owner_eq : holding.owner = owner
  indexed : holding.rack.Indexed
  owners : ∀ slot ∈ holding.rack.slots, slot.owner = owner
  waits_iff : ∀ id order, holding.orders.get? id = some order ↔
    ∃ slot ∈ holding.rack.slots, slot.id = id ∧ slot.live = true ∧ slot.order = order

def accept (holding : Holding) (id : UInt64) (order : Order) : Holding :=
  { holding with
    rack := holding.rack.add (.ofOrder holding.owner id order)
    orders := holding.orders.insert id order }

def release (holding : Holding) (id : UInt64) : Holding :=
  { holding with rack := holding.rack.retire id, orders := holding.orders.erase id }

@[simp] theorem rack_accept (holding : Holding) (id : UInt64) (order : Order) :
    (holding.accept id order).rack =
      holding.rack.add (.ofOrder holding.owner id order) := rfl

@[simp] theorem rack_release (holding : Holding) (id : UInt64) :
    (holding.release id).rack = holding.rack.retire id := rfl

theorem sound_empty (owner : UInt64) : (empty owner).Sound owner where
  owner_eq := rfl
  indexed := Rack.indexed_empty
  owners := fun slot hmem => nomatch hmem
  waits_iff := by
    intro id order
    constructor
    · intro hget
      cases hget
    · rintro ⟨slot, hmem, -⟩
      cases hmem

variable {owner : UInt64} {holding : Holding}

theorem Sound.shows_iff (h : holding.Sound owner) (id : UInt64) :
    holding.rack.Shows id ↔ ∃ order, holding.orders.get? id = some order := by
  constructor
  · rintro ⟨slot, hmem, hid, hlive⟩
    exact ⟨slot.order, (h.waits_iff id slot.order).2 ⟨slot, hmem, hid, hlive, rfl⟩⟩
  · rintro ⟨order, horder⟩
    obtain ⟨slot, hmem, hid, hlive, -⟩ := (h.waits_iff id order).1 horder
    exact ⟨slot, hmem, hid, hlive⟩

theorem Sound.accept (h : holding.Sound owner) {id : UInt64} (order : Order)
    (hnew : ¬ holding.rack.Lists id) : (holding.accept id order).Sound owner where
  owner_eq := h.owner_eq
  indexed := h.indexed.add hnew
  owners := by
    intro slot hmem
    rw [rack_accept, Rack.slots_add, List.mem_append, List.mem_singleton] at hmem
    cases hmem with
    | inl hold => exact h.owners slot hold
    | inr hlast =>
        subst hlast
        exact h.owner_eq
  waits_iff := by
    intro key found
    simp only [Holding.accept, IdMap.get?_insert, Rack.slots_add, List.mem_append,
      List.mem_singleton]
    by_cases hkey : key = id
    · subst hkey
      rw [if_pos rfl]
      constructor
      · intro hfound
        cases hfound
        exact ⟨_, .inr rfl, rfl, rfl, rfl⟩
      · rintro ⟨slot, hmem, hid, hlive, horder⟩
        cases hmem with
        | inl hold => exact absurd ⟨slot, hold, hid⟩ hnew
        | inr hlast =>
            subst hlast
            exact congrArg some horder
    · rw [if_neg hkey, h.waits_iff key found]
      constructor
      · rintro ⟨slot, hmem, hrest⟩
        exact ⟨slot, .inl hmem, hrest⟩
      · rintro ⟨slot, hmem, hid, hrest⟩
        cases hmem with
        | inl hold => exact ⟨slot, hold, hid, hrest⟩
        | inr hlast =>
            subst hlast
            exact absurd hid.symm hkey

theorem Sound.release (h : holding.Sound owner) (id : UInt64) :
    (holding.release id).Sound owner where
  owner_eq := h.owner_eq
  indexed := h.indexed.retire id
  owners := by
    intro slot hmem
    obtain ⟨old, hold, rfl⟩ := List.mem_map.1 hmem
    rw [Slot.owner_without]
    exact h.owners old hold
  waits_iff := by
    intro key found
    simp only [Holding.release, IdMap.get?_erase, Rack.slots_retire]
    by_cases hkey : key = id
    · subst hkey
      rw [if_pos rfl]
      constructor
      · intro hfound
        cases hfound
      · rintro ⟨slot, hmem, hid, hlive, -⟩
        obtain ⟨old, hold, rfl⟩ := List.mem_map.1 hmem
        rw [Slot.id_without] at hid
        simp [Slot.live_without, hid] at hlive
    · rw [if_neg hkey, h.waits_iff key found]
      constructor
      · rintro ⟨slot, hmem, hid, hlive, horder⟩
        refine ⟨slot.without id, List.mem_map_of_mem hmem, ?_, ?_, ?_⟩
        · rw [Slot.id_without, hid]
        · simp [Slot.live_without, hlive, hid, hkey]
        · rw [Slot.order_without, horder]
      · rintro ⟨slot, hmem, hid, hlive, horder⟩
        obtain ⟨old, hold, rfl⟩ := List.mem_map.1 hmem
        rw [Slot.id_without] at hid
        rw [Slot.order_without] at horder
        rw [Slot.live_without, Bool.and_eq_true] at hlive
        exact ⟨old, hold, hid, hlive.1, horder⟩

/-! What the operations of a sound holding do. -/

theorem Sound.add_eq (h : holding.Sound owner) {id : UInt64} (order : Order)
    (hnew : ¬ holding.rack.Lists id) :
    holding.add id order = .ok (holding.accept id order) := by
  have hposition : holding.rack.position id = none := h.indexed.position_eq_none hnew
  have hpush := h.indexed.push_of_not_lists (.ofOrder holding.owner id order) hnew
  unfold add
  rw [hposition]
  simp only
  rw [hpush]
  rfl

theorem Sound.remove_eq (h : holding.Sound owner) {id : UInt64} {order : Order}
    (hget : holding.get id = .ok order) :
    holding.remove id = .ok (holding.release id) := by
  have hshows : holding.rack.Shows id := by
    unfold get at hget
    cases horder : holding.orders.get? id with
    | none =>
        rw [horder] at hget
        cases hget
    | some found => exact (h.shows_iff id).2 ⟨found, horder⟩
  unfold remove
  rw [hget, h.indexed.withdraw_of_shows hshows]
  rfl

end Holding

end ParcelDesk
