import Mathlib.Data.List.Nodup
import ParcelDesk.Store.RefundQueue

namespace ParcelDesk

namespace Slot

def retire (slot : Slot) : Slot := { slot with live := false }

@[simp] theorem id_ofOrder (owner id : UInt64) (order : Order) :
    (ofOrder owner id order).id = id := rfl

@[simp] theorem owner_ofOrder (owner id : UInt64) (order : Order) :
    (ofOrder owner id order).owner = owner := rfl

@[simp] theorem order_ofOrder (owner id : UInt64) (order : Order) :
    (ofOrder owner id order).order = order := rfl

/-- What becomes of a place when an order leaves the list. -/
def without (id : UInt64) (slot : Slot) : Slot :=
  if slot.id = id then slot.retire else slot

@[simp] theorem id_without (id : UInt64) (slot : Slot) : (slot.without id).id = slot.id := by
  unfold without
  split <;> rfl

@[simp] theorem owner_without (id : UInt64) (slot : Slot) :
    (slot.without id).owner = slot.owner := by
  unfold without
  split <;> rfl

@[simp] theorem order_without (id : UInt64) (slot : Slot) :
    (slot.without id).order = slot.order := by
  unfold without
  split <;> rfl

theorem live_without (id : UInt64) (slot : Slot) :
    (slot.without id).live = (slot.live && decide (slot.id ≠ id)) := by
  unfold without
  split
  · rename_i same
    simp [retire, same]
  · rename_i other
    simp [other]

end Slot

namespace Rack

/-! The index of a rack that the desk filled finds exactly the places that there are, so no two
places hold the same order. -/

def Indexed (rack : Rack) : Prop :=
  ∀ id place, rack.index.get? id = some place ↔ rack.slots[place]?.map Slot.id = some id

/-- An order has its place on the rack, live or not. -/
def Lists (rack : Rack) (id : UInt64) : Prop :=
  ∃ slot ∈ rack.slots, slot.id = id

/-- An order has a live place on the rack. -/
def Shows (rack : Rack) (id : UInt64) : Prop :=
  ∃ slot ∈ rack.slots, slot.id = id ∧ slot.live = true

instance (rack : Rack) (id : UInt64) : Decidable (rack.Shows id) :=
  inferInstanceAs (Decidable (∃ slot ∈ rack.slots, slot.id = id ∧ slot.live = true))

def add (rack : Rack) (slot : Slot) : Rack :=
  ⟨rack.slots ++ [slot], rack.index.insert slot.id rack.slots.length⟩

def retire (rack : Rack) (id : UInt64) : Rack :=
  ⟨rack.slots.map (Slot.without id), rack.index⟩

@[simp] theorem slots_add (rack : Rack) (slot : Slot) :
    (rack.add slot).slots = rack.slots ++ [slot] := rfl

@[simp] theorem slots_retire (rack : Rack) (id : UInt64) :
    (rack.retire id).slots = rack.slots.map (Slot.without id) := rfl

theorem lists_add (rack : Rack) (slot : Slot) (id : UInt64) :
    (rack.add slot).Lists id ↔ rack.Lists id ∨ slot.id = id := by
  simp [Lists, or_and_right, exists_or]

theorem shows_add (rack : Rack) (slot : Slot) (id : UInt64) :
    (rack.add slot).Shows id ↔ rack.Shows id ∨ (slot.id = id ∧ slot.live = true) := by
  simp [Shows, or_and_right, exists_or]

@[simp] theorem lists_retire (rack : Rack) (gone id : UInt64) :
    (rack.retire gone).Lists id ↔ rack.Lists id := by
  constructor
  · rintro ⟨slot, hmem, rfl⟩
    obtain ⟨old, hold, rfl⟩ := List.mem_map.1 hmem
    exact ⟨old, hold, (Slot.id_without gone old).symm⟩
  · rintro ⟨slot, hmem, rfl⟩
    exact ⟨slot.without gone, List.mem_map_of_mem hmem, Slot.id_without gone slot⟩

theorem shows_retire (rack : Rack) (gone id : UInt64) :
    (rack.retire gone).Shows id ↔ rack.Shows id ∧ id ≠ gone := by
  constructor
  · rintro ⟨slot, hmem, hid, hlive⟩
    obtain ⟨old, hold, rfl⟩ := List.mem_map.1 hmem
    rw [Slot.id_without] at hid
    rw [Slot.live_without, Bool.and_eq_true, decide_eq_true_eq] at hlive
    exact ⟨⟨old, hold, hid, hlive.1⟩, hid ▸ hlive.2⟩
  · rintro ⟨⟨slot, hmem, hid, hlive⟩, hne⟩
    refine ⟨slot.without gone, List.mem_map_of_mem hmem, ?_, ?_⟩
    · rw [Slot.id_without, hid]
    · simp [Slot.live_without, hlive, hid, hne]

theorem Shows.lists {rack : Rack} {id : UInt64} (h : rack.Shows id) : rack.Lists id := by
  obtain ⟨slot, hmem, hid, -⟩ := h
  exact ⟨slot, hmem, hid⟩

@[simp] theorem not_lists_empty (id : UInt64) : ¬ empty.Lists id := by
  rintro ⟨slot, hmem, -⟩
  cases hmem

theorem indexed_empty : empty.Indexed := by
  intro id place
  simp [empty]

variable {rack : Rack}

theorem Indexed.lists_iff (h : rack.Indexed) {id : UInt64} :
    rack.Lists id ↔ ∃ place, rack.position id = some place := by
  constructor
  · rintro ⟨slot, hmem, rfl⟩
    obtain ⟨place, hplace⟩ := List.mem_iff_getElem?.1 hmem
    exact ⟨place, (h slot.id place).2 (by rw [hplace]; rfl)⟩
  · rintro ⟨place, hplace⟩
    obtain ⟨slot, hslot, hid⟩ := Option.map_eq_some_iff.1 ((h id place).1 hplace)
    exact ⟨slot, List.mem_of_getElem? hslot, hid⟩

theorem Indexed.position_eq_none (h : rack.Indexed) {id : UInt64} (hid : ¬ rack.Lists id) :
    rack.position id = none := by
  cases hposition : rack.position id with
  | none => rfl
  | some place => exact absurd (h.lists_iff.2 ⟨place, hposition⟩) hid

theorem Indexed.position_eq (h : rack.Indexed) (id : UInt64) :
    rack.position id = rack.slots.findIdx? fun slot => slot.id == id := by
  cases hfind : rack.slots.findIdx? fun slot => slot.id == id with
  | none =>
      apply h.position_eq_none
      rintro ⟨slot, hmem, hid⟩
      rw [List.findIdx?_eq_none_iff] at hfind
      have hother := hfind slot hmem
      rw [hid, beq_self_eq_true] at hother
      cases hother
  | some place =>
      obtain ⟨hlt, hid, -⟩ := List.findIdx?_eq_some_iff_getElem.1 hfind
      apply (h id place).2
      rw [List.getElem?_eq_getElem hlt, Option.map_some, beq_iff_eq.1 hid]

theorem Indexed.nodup (h : rack.Indexed) : (rack.slots.map Slot.id).Nodup := by
  rw [List.nodup_iff_getElem?_ne_getElem?]
  intro first second hlt hlen heq
  rw [List.getElem?_map, List.getElem?_map] at heq
  cases hsecond : rack.slots[second]? with
  | none =>
      rw [List.length_map] at hlen
      rw [List.getElem?_eq_none_iff] at hsecond
      omega
  | some slot =>
      rw [hsecond] at heq
      have hfirst := (h slot.id first).2 heq
      have hother := (h slot.id second).2 (by rw [hsecond]; rfl)
      have hplaces : first = second := Option.some.inj (hfirst.symm.trans hother)
      omega

/-- An order takes no more than one place. -/
theorem Indexed.filter_eq (h : rack.Indexed) {slot : Slot} (hmem : slot ∈ rack.slots) :
    rack.slots.filter (fun other => other.id == slot.id) = [slot] := by
  have hnodup := h.nodup
  generalize rack.slots = slots at hmem hnodup
  induction slots with
  | nil => cases hmem
  | cons head rest ih =>
      rw [List.map_cons, List.nodup_cons] at hnodup
      rw [List.filter_cons]
      cases hmem with
      | head =>
          rw [if_pos (beq_self_eq_true slot.id), List.filter_eq_nil_iff.2]
          intro other hother hsame
          apply hnodup.1
          rw [← beq_iff_eq.1 hsame]
          exact List.mem_map_of_mem hother
      | tail _ hmem =>
          rw [if_neg, ih hmem hnodup.2]
          intro hsame
          apply hnodup.1
          rw [beq_iff_eq.1 hsame]
          exact List.mem_map_of_mem hmem

theorem Indexed.slot_ext (h : rack.Indexed) {a b : Slot} (ha : a ∈ rack.slots)
    (hb : b ∈ rack.slots) (hid : a.id = b.id) : a = b :=
  List.inj_on_of_nodup_map h.nodup ha hb hid

theorem Indexed.add (h : rack.Indexed) {slot : Slot} (hnew : ¬ rack.Lists slot.id) :
    (rack.add slot).Indexed := by
  have hnone : rack.index.get? slot.id = none := h.position_eq_none hnew
  intro id place
  simp only [Rack.add, IdMap.get?_insert, List.getElem?_append]
  by_cases hid : id = slot.id
  · subst hid
    rw [if_pos rfl]
    constructor
    · intro hplace
      cases hplace
      simp
    · intro hplace
      split at hplace
      · have hold := (h slot.id place).2 hplace
        rw [hnone] at hold
        cases hold
      · rename_i hge
        obtain ⟨found, hfound, -⟩ := Option.map_eq_some_iff.1 hplace
        have hlt := (List.getElem?_eq_some_iff.1 hfound).choose
        rw [List.length_singleton] at hlt
        congr 1
        omega
  · rw [if_neg hid, h id place]
    split
    · rfl
    · rename_i hge
      rw [List.getElem?_eq_none_iff.2 (Nat.le_of_not_lt hge)]
      constructor
      · intro hplace
        cases hplace
      · intro hplace
        obtain ⟨found, hfound, hfoundId⟩ := Option.map_eq_some_iff.1 hplace
        have hmem := List.mem_of_getElem? hfound
        rw [List.mem_singleton] at hmem
        exact absurd (hfoundId.symm.trans (congrArg Slot.id hmem)) hid

theorem Indexed.retire (h : rack.Indexed) (gone : UInt64) : (rack.retire gone).Indexed := by
  intro id place
  have hids : (rack.slots.map (Slot.without gone))[place]?.map Slot.id =
      rack.slots[place]?.map Slot.id := by
    rw [List.getElem?_map, Option.map_map]
    exact congrArg (fun f => Option.map f rack.slots[place]?)
      (funext fun slot => Slot.id_without gone slot)
  rw [slots_retire, hids]
  exact h id place

/-! What the operations of a rack do once its index is right. -/

theorem Indexed.push_of_lists (h : rack.Indexed) (slot : Slot) (hold : rack.Lists slot.id) :
    rack.push slot =
      .error (.refused .alreadyExists s!"order {slot.id} is already listed") := by
  obtain ⟨place, hplace⟩ := h.lists_iff.1 hold
  have hfound : rack.index.get? slot.id = some place := hplace
  simp [push, IdMap.contains, hfound]

theorem Indexed.push_of_not_lists (h : rack.Indexed) (slot : Slot)
    (hnew : ¬ rack.Lists slot.id) :
    rack.push slot = .ok (rack.slots.length, rack.add slot) := by
  have hnone : rack.index.get? slot.id = none := h.position_eq_none hnew
  simp [push, IdMap.contains, hnone, Rack.add]

private theorem Indexed.set_eq_map (h : rack.Indexed) {id : UInt64} {place : Nat} {slot : Slot}
    (hslot : rack.slots[place]? = some slot) (hid : slot.id = id) :
    rack.slots.set place slot.retire = rack.slots.map (Slot.without id) := by
  apply List.ext_getElem?
  intro other
  rw [List.getElem?_set, List.getElem?_map]
  by_cases hplace : place = other
  · subst hplace
    have hlt := (List.getElem?_eq_some_iff.1 hslot).choose
    rw [if_pos rfl, if_pos hlt, hslot, Option.map_some, Slot.without, if_pos hid]
  · rw [if_neg hplace]
    cases hother : rack.slots[other]? with
    | none => rfl
    | some found =>
        have hne : found.id ≠ id := by
          intro heq
          have hfirst := (h id place).2 (by rw [hslot, Option.map_some, hid])
          have hsecond := (h id other).2 (by rw [hother, Option.map_some, heq])
          exact hplace (Option.some.inj (hfirst.symm.trans hsecond))
        simp [Slot.without, hne]

theorem Indexed.withdraw_of_shows (h : rack.Indexed) {id : UInt64} (hid : rack.Shows id) :
    rack.withdraw id = .ok (rack.retire id) := by
  obtain ⟨slot, hmem, hslotId, hlive⟩ := hid
  obtain ⟨place, hslot⟩ := List.mem_iff_getElem?.1 hmem
  have hposition : rack.position id = some place :=
    (h id place).2 (by rw [hslot, Option.map_some, hslotId])
  have hset := h.set_eq_map hslot hslotId
  unfold Slot.retire at hset
  simp [withdraw, hposition, hslot, hlive, hset, Rack.retire]

theorem Indexed.withdraw_of_not_shows (h : rack.Indexed) {id : UInt64}
    (hid : ¬ rack.Shows id) :
    rack.withdraw id = Reply.refuse .notFound s!"order {id} is not listed" := by
  unfold withdraw
  cases hposition : rack.position id with
  | none => rfl
  | some place =>
      obtain ⟨slot, hslot, hslotId⟩ := Option.map_eq_some_iff.1 ((h id place).1 hposition)
      have hdead : slot.live = false := by
        cases hlive : slot.live with
        | false => rfl
        | true => exact absurd ⟨slot, List.mem_of_getElem? hslot, hslotId, hlive⟩ hid
      simp [hslot, hdead, withdraw.unlisted]

end Rack

namespace RefundQueue

variable {queue : RefundQueue}

theorem add_of_lists (h : Rack.Indexed queue) {owner id : UInt64} {order : Order}
    (hold : Rack.Lists queue id) :
    queue.add owner id order =
      .error (.refused .alreadyExists s!"order {id} is already listed") := by
  have hpush := h.push_of_lists (.ofOrder owner id order) hold
  unfold add
  rw [hpush]
  rfl

theorem add_of_not_lists (h : Rack.Indexed queue) {owner id : UInt64} {order : Order}
    (hnew : ¬ Rack.Lists queue id) :
    queue.add owner id order = .ok (Rack.add queue (.ofOrder owner id order)) := by
  have hpush := h.push_of_not_lists (.ofOrder owner id order) hnew
  unfold add
  rw [hpush]
  rfl

theorem remove_of_shows (h : Rack.Indexed queue) {id : UInt64} (hid : Rack.Shows queue id) :
    queue.remove id = .ok (Rack.retire queue id) := by
  unfold remove
  rw [h.withdraw_of_shows hid]

theorem remove_of_not_shows (h : Rack.Indexed queue) {id : UInt64}
    (hid : ¬ Rack.Shows queue id) :
    queue.remove id = Reply.refuse .notFound s!"order {id} is not in refunds" := by
  unfold remove
  rw [h.withdraw_of_not_shows hid]
  rfl

end RefundQueue

end ParcelDesk
