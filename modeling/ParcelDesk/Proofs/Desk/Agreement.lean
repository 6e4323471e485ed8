import ParcelDesk.Proofs.Desk.Counter

namespace ParcelDesk

namespace Stock

/-! The three stores tell the same of an order that has a record: it has one place, with its owner,
it waits while it is accepted and only then, and it is in the queue while it is returned. -/

structure Agrees (stock : Stock) (id : UInt64) (record : Record) (holding : Holding)
    (slot : Slot) : Prop where
  kept : stock.holdings.get? record.owner = some holding
  once : holding.rack.slots.filter (fun other => other.id == id) = [slot]
  waits_iff : record.status = .accepted ↔ ∃ order, holding.orders.get? id = some order
  live_iff : (∃ order, holding.orders.get? id = some order) ↔ slot.live = true
  queued_iff : record.status = .returned ↔
    ∃ queued ∈ stock.refunds.slots, queued.id = id ∧ queued.live = true

/-- The three stores agree on every order, and whatever copy of an order one of them has is that
of its record. -/
structure Agree (stock : Stock) : Prop where
  recorded : ∀ id record, stock.history.get? id = some record →
    ∃ holding slot, stock.Agrees id record holding slot
  waiting : ∀ owner holding, stock.holdings.get? owner = some holding →
    holding.owner = owner ∧ ∀ id order, holding.orders.get? id = some order →
      ∃ record, stock.history.get? id = some record ∧ record.owner = owner ∧
        record.order = order
  listed : ∀ owner holding, stock.holdings.get? owner = some holding →
    ∀ slot ∈ holding.rack.slots, ∃ record, stock.history.get? slot.id = some record ∧
      record.owner = owner ∧ slot.owner = owner ∧ slot.order = record.order
  queued : ∀ slot ∈ stock.refunds.slots, ∃ record,
    stock.history.get? slot.id = some record ∧ slot.owner = record.owner ∧
      slot.order = record.order

variable {stock : Stock}

theorem Settled.agrees (h : stock.Settled) {id : UInt64} {record : Record}
    (hrecord : stock.history.get? id = some record) :
    ∃ holding slot, stock.Agrees id record holding slot := by
  obtain ⟨holding, hholding, slot, hmem, rfl⟩ := h.exists_holding hrecord
  have hsound := h.holding_sound record.owner
  have haccepted := h.accepted_iff slot.id record hrecord
  rw [holding_of_get? hholding] at hsound haccepted
  refine ⟨holding, slot, hholding, hsound.indexed.filter_eq hmem, ?_, ?_, ?_⟩
  · rw [haccepted, hsound.shows_iff]
  · rw [← hsound.shows_iff]
    constructor
    · rintro ⟨other, hother, hid, hlive⟩
      rw [← hsound.indexed.slot_ext hother hmem hid]
      exact hlive
    · intro hlive
      exact ⟨slot, hmem, rfl, hlive⟩
  · exact h.returned_iff slot.id record hrecord

theorem Settled.agree (h : stock.Settled) : stock.Agree where
  recorded := fun _ _ hrecord => h.agrees hrecord
  waiting := by
    intro owner holding hholding
    have hsound := h.holding_sound owner
    rw [holding_of_get? hholding] at hsound
    refine ⟨hsound.owner_eq, ?_⟩
    intro id order horder
    obtain ⟨slot, hmem, rfl, -, rfl⟩ := (hsound.waits_iff id order).1 horder
    apply deposit_eq_some.1
    apply h.toSound.listed
    rw [holding_of_get? hholding]
    exact hmem
  listed := by
    intro owner holding hholding slot hmem
    have hsound := h.holding_sound owner
    have hlisted := h.toSound.listed owner slot
    rw [holding_of_get? hholding] at hsound hlisted
    obtain ⟨record, hrecord, howner, horder⟩ := deposit_eq_some.1 (hlisted hmem)
    exact ⟨record, hrecord, howner, hsound.owners slot hmem, horder.symm⟩
  queued := by
    intro slot hmem
    obtain ⟨record, hrecord, howner, horder⟩ :=
      deposit_eq_some.1 (h.queued_order slot hmem)
    exact ⟨record, hrecord, howner.symm, horder.symm⟩

end Stock

namespace Counter

/-- Whoever comes to the counter, in whatever order their calls go on and whatever the clock tells
them, the three stores agree on every order after each step. -/
theorem agree_run (moves : List Move) : ((opened .empty).run moves).stock.Agree :=
  ((kept_opened Stock.settled_empty).run moves).settled.agree

end Counter

end ParcelDesk
