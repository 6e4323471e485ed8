import ParcelDesk.Proofs.Desk.Walk

/-!
# Listings from a cursor

The orders of a user have their places in the order in which they were accepted. So a listing that
begins at one of them shows what is left of it and of all that came after it. The cursor 0 stands
for the first place, even if an order with this identifier came later.
-/

namespace ParcelDesk

namespace Stock

variable {stock : Stock} {owner : UInt64}

/-- The place that shows an order of a user for as long as it waits. -/
def waiting? (stock : Stock) (owner id : UInt64) : Option Slot :=
  (stock.history.get? id).bind fun record =>
    if record.owner = owner ∧ record.status = .accepted then
      some (.ofOrder owner id record.order)
    else none

theorem Settled.waiting?_eq (h : stock.Settled) {slot : Slot}
    (hslot : slot ∈ (stock.holding owner).rack.slots) :
    stock.waiting? owner slot.id = if slot.live then some slot else none := by
  obtain ⟨record, hrecord, rfl, horder⟩ := deposit_eq_some.1 (h.listed owner slot hslot)
  have hsound := h.holding_sound record.owner
  have hlive : record.status = .accepted ↔ slot.live = true := by
    rw [h.accepted_iff slot.id record hrecord]
    constructor
    · rintro ⟨other, hother, hid, hlive⟩
      exact hsound.indexed.slot_ext hother hslot hid ▸ hlive
    · intro hlive
      exact ⟨slot, hslot, rfl, hlive⟩
  by_cases hshown : slot.live = true
  · have hplace : Slot.ofOrder record.owner slot.id record.order = slot := by
      rw [Slot.ofOrder, horder, ← hsound.owners slot hslot, ← hshown]
    simp [waiting?, hrecord, hlive.2 hshown, hshown, hplace]
  · have hgone : record.status ≠ .accepted := fun hstatus => hshown (hlive.1 hstatus)
    simp [waiting?, hrecord, hgone, hshown]

theorem Settled.filter_live (h : stock.Settled) {places : List Slot}
    (hplaces : ∀ slot ∈ places, slot ∈ (stock.holding owner).rack.slots) :
    places.filter Slot.live = (places.map Slot.id).filterMap (stock.waiting? owner) := by
  induction places with
  | nil => rfl
  | cons slot places ih =>
      have hrest := ih fun other hother => hplaces other (List.mem_cons_of_mem slot hother)
      have hslot := h.waiting?_eq (hplaces slot List.mem_cons_self)
      cases hlive : slot.live with
      | true => simp [hslot, hlive, hrest]
      | false => simp [hslot, hlive, hrest]

end Stock

namespace Holding

variable {holding : Holding} {id : UInt64} {earlier later : List UInt64}

/-- A listing without a limit begins at the place of the cursor, or at the first place for 0. -/
theorem list_split (hindexed : holding.rack.Indexed)
    (hids : holding.rack.ids = earlier ++ id :: later) :
    ∃ places : List Slot, holding.list id 0 = .ok (places.filter Slot.live) ∧
      places.map Slot.id = (if id = 0 then earlier ++ id :: later else id :: later) ∧
      ∀ slot ∈ places, slot ∈ holding.rack.slots := by
  by_cases hzero : id = 0
  · refine ⟨holding.rack.slots, ?_, ?_, fun slot hslot => hslot⟩
    · rw [hzero]
      rfl
    · rw [if_pos hzero]
      exact hids
  · obtain ⟨before, rest, hslots, rfl, hrest⟩ := List.map_eq_append_iff.1 hids
    obtain ⟨slot, after, rfl, rfl, rfl⟩ := List.map_eq_cons_iff.1 hrest
    have hplace : holding.rack.position slot.id = some before.length :=
      (hindexed slot.id before.length).2 (by simp [hslots])
    refine ⟨slot :: after, ?_, ?_, ?_⟩
    · rw [list, if_neg hzero, hplace]
      change Except.ok (holding.rack.scan before.length none) = _
      rw [Rack.scan, hslots, List.drop_left]
    · rw [if_neg hzero]
      rfl
    · intro other hother
      rw [hslots]
      exact List.mem_append_right before hother

end Holding

namespace Counter

/-- Whatever was done at the desk before, an order that was ever accepted for a user can be the
cursor of a listing, whether it has left or not: the listing shows it and the orders accepted after
it, as far as they still wait, in the order in which they were accepted, and none that was accepted
before it. The cursor 0 is the exception, which lists all that wait. -/
theorem listed_from_cursor (past : List Move) {owner id : UInt64} {earlier later : List UInt64}
    (haccepted : ((opened .empty).run past).accepted owner = earlier ++ id :: later) :
    ∃ page, (Stock.serve (.orders owner id 0) ((opened .empty).run past).stock).1 = .ok page ∧
      page = (if id = 0 then earlier ++ id :: later else id :: later).filterMap
        (((opened .empty).run past).stock.waiting? owner) ∧
      (id ≠ 0 → ∀ slot ∈ page, slot.id ∉ earlier) := by
  have hkept := (kept_opened Stock.settled_empty).run past
  generalize (opened .empty).run past = counter at haccepted hkept
  have hsome : counter.accepted owner ≠ [] := by simp [haccepted]
  obtain ⟨holding, hget, hholding⟩ := hkept.listing hsome
  have hindexed := (hkept.settled.holding_sound owner).indexed
  have hids := hkept.ids_eq owner
  rw [haccepted, hholding] at hids
  rw [hholding] at hindexed
  obtain ⟨places, hlist, hplaces, hmem⟩ := Holding.list_split hindexed hids
  refine ⟨places.filter Slot.live, ?_, ?_, ?_⟩
  · rw [Stock.serve, Holdings.list, Holdings.user, hget]
    exact congrArg Reply.ofExcept hlist
  · rw [← hplaces, ← hkept.settled.filter_live]
    rw [hholding]
    exact hmem
  · intro hzero slot hslot hearlier
    -- No identifier was accepted twice, so none of the later places is that of an earlier order.
    have hnodup := hindexed.nodup
    change holding.rack.ids.Nodup at hnodup
    rw [hids] at hnodup
    rw [if_neg hzero] at hplaces
    apply (List.nodup_append.1 hnodup).2.2 slot.id hearlier slot.id _ rfl
    rw [← hplaces]
    exact List.mem_map_of_mem (List.mem_filter.1 hslot).1

/-- The order at the cursor has left, another one was accepted before it and a third one after
it. -/
theorem listed_from_cursor_left :
    ((opened .empty).run (coming 0 3 ++ coming 1 2 ++ coming 2 5 ++ leaving 3 2)).accepted 7 =
        [3] ++ 2 :: [5] ∧
      ∃ page, (Stock.serve (.orders 7 2 0) ((opened .empty).run
          (coming 0 3 ++ coming 1 2 ++ coming 2 5 ++ leaving 3 2)).stock).1 = .ok page ∧
        page = (2 :: [5]).filterMap (((opened .empty).run
          (coming 0 3 ++ coming 1 2 ++ coming 2 5 ++ leaving 3 2)).stock.waiting? 7) ∧
        ∀ slot ∈ page, slot.id ∉ [3] := by
  have haccepted : ((opened .empty).run
      (coming 0 3 ++ coming 1 2 ++ coming 2 5 ++ leaving 3 2)).accepted 7 = [3] ++ 2 :: [5] := by
    decide +kernel
  obtain ⟨page, hserve, hpage, hnone⟩ := listed_from_cursor _ haccepted
  exact ⟨haccepted, page, hserve, hpage, hnone (by decide)⟩

/-- An order with the identifier 0 is accepted like any other, and the listing from it begins with
an order that was accepted before it. -/
theorem listed_before_zero :
    ((opened .empty).run (coming 0 5 ++ coming 1 0)).accepted 7 = [5] ++ 0 :: [] ∧
      ∃ page, (Stock.serve (.orders 7 0 0)
          ((opened .empty).run (coming 0 5 ++ coming 1 0)).stock).1 = .ok page ∧
        page.map Slot.id = [5, 0] := by
  refine ⟨by decide +kernel, _, rfl, ?_⟩
  decide +kernel

end Counter

end ParcelDesk
