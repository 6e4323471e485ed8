import ParcelDesk.Proofs.Desk.Settled

namespace ParcelDesk

namespace Slot

theorem without_eq_ite (gone : UInt64) (slot : Slot) :
    slot.without gone = if slot.id = gone then slot.retire else slot := rfl

@[simp] theorem id_retire (slot : Slot) : slot.retire.id = slot.id := rfl

@[simp] theorem retire_retire (slot : Slot) : slot.retire.retire = slot.retire := rfl

end Slot

namespace Holding

/-! What is left of a holding when some orders have been handed out of it: they wait no longer and
their places are dead, but every place is still where it was. -/

structure Parted (holding : Holding) (ids : List UInt64) (rest : Holding) : Prop where
  owner_eq : rest.owner = holding.owner
  orders_eq : ∀ id, rest.orders.get? id = if id ∈ ids then none else holding.orders.get? id
  slots_eq : rest.rack.slots =
    holding.rack.slots.map fun slot => if slot.id ∈ ids then slot.retire else slot
  index_eq : rest.rack.index = holding.rack.index

theorem parted_nil (holding : Holding) : holding.Parted [] holding where
  owner_eq := rfl
  orders_eq := fun id => by simp
  slots_eq := by simp
  index_eq := rfl

theorem Parted.cons {holding rest : Holding} {id : UInt64} {ids : List UInt64}
    (h : (holding.release id).Parted ids rest) : holding.Parted (id :: ids) rest where
  owner_eq := h.owner_eq
  orders_eq := by
    intro key
    rw [h.orders_eq, Holding.release, IdMap.get?_erase]
    by_cases hkey : key = id
    · simp [hkey]
    · simp [hkey]
  slots_eq := by
    rw [h.slots_eq, rack_release, Rack.slots_retire, List.map_map]
    apply List.map_congr_left
    intro slot hmem
    rw [Function.comp_apply, Slot.id_without, Slot.without_eq_ite]
    by_cases hid : slot.id = id
    · simp [hid]
    · simp [hid]
  index_eq := h.index_eq

end Holding

namespace Stock

variable {stock : Stock}

/-- Orders of one owner have been handed out at one moment: their records have moved, they have left
the owner's list, and all else is as it was. -/
structure HandedOut (stock : Stock) (owner : UInt64) (ids : List UInt64) (time : Instant)
    (after : Stock) : Prop where
  history_eq : ∀ id, after.history.get? id =
    if id ∈ ids then (stock.history.get? id).map (·.moved .issuedToClient time)
    else stock.history.get? id
  waited : ∀ id ∈ ids, (stock.holding owner).rack.Shows id
  parted : ∃ holding rest, stock.holdings.get? owner = some holding ∧
    after.holdings.get? owner = some rest ∧ holding.Parted ids rest
  others_eq : ∀ user, user ≠ owner → after.holdings.get? user = stock.holdings.get? user
  refunds_eq : after.refunds = stock.refunds

theorem holdings_release {id : UInt64} {record : Record}
    (h : stock.history.get? id = some record) (status : Status) (time : Instant) :
    (stock.release id status time).holdings =
      stock.holdings.insert record.owner ((stock.holding record.owner).release id) := by
  rw [release, h]

theorem holdings_releaseAll {owner : UInt64} {ids : List UInt64} {holding : Holding}
    (howner : ∀ id ∈ ids, ∃ order, stock.deposit id = some (owner, order))
    (hholding : stock.holdings.get? owner = some holding) (status : Status) (time : Instant) :
    ∃ rest, (stock.releaseAll ids status time).holdings.get? owner = some rest ∧
      holding.Parted ids rest ∧
      ∀ user, user ≠ owner →
        (stock.releaseAll ids status time).holdings.get? user = stock.holdings.get? user := by
  induction ids generalizing stock holding with
  | nil => exact ⟨holding, hholding, holding.parted_nil, fun _ _ => rfl⟩
  | cons id ids ih =>
      obtain ⟨order, hdeposit⟩ := howner id List.mem_cons_self
      obtain ⟨record, hrecord, rfl, -⟩ := deposit_eq_some.1 hdeposit
      have hholdings := holdings_release hrecord status time
      rw [holding_of_get? hholding] at hholdings
      have hnext : (stock.release id status time).holdings.get? record.owner =
          some (holding.release id) := by
        rw [hholdings, IdMap.get?_insert, if_pos rfl]
      have hrest : ∀ key ∈ ids, ∃ order,
          (stock.release id status time).deposit key = some (record.owner, order) := by
        intro key hkey
        rw [deposit_release]
        exact howner key (List.mem_cons_of_mem id hkey)
      obtain ⟨rest, hget, hparted, hothers⟩ := ih hrest hnext
      refine ⟨rest, hget, hparted.cons, ?_⟩
      intro user huser
      rw [releaseAll_cons, hothers user huser, hholdings, IdMap.get?_insert, if_neg huser]

theorem Settled.handedOut (h : stock.Settled) {owner : UInt64} {ids : List UInt64}
    (hsome : ids ≠ [])
    (hready : ∀ id ∈ ids, ∃ record, stock.history.get? id = some record ∧
      record.owner = owner ∧ record.status = .accepted) (time : Instant) :
    stock.HandedOut owner ids time (stock.releaseAll ids .issuedToClient time) := by
  have howner : ∀ id ∈ ids, ∃ order, stock.deposit id = some (owner, order) := by
    intro id hid
    obtain ⟨record, hrecord, rfl, -⟩ := hready id hid
    exact ⟨record.order, deposit_of_get? hrecord⟩
  obtain ⟨first, hfirst⟩ := List.exists_mem_of_ne_nil ids hsome
  obtain ⟨record, hrecord, rfl, -⟩ := hready first hfirst
  obtain ⟨holding, hholding, -⟩ := h.exists_holding hrecord
  obtain ⟨rest, hget, hparted, hothers⟩ :=
    holdings_releaseAll howner hholding .issuedToClient time
  constructor
  case history_eq => exact get?_releaseAll ids .issuedToClient time stock
  case waited =>
    intro id hid
    obtain ⟨found, hfound, hsame, hstatus⟩ := hready id hid
    rw [← hsame]
    exact (h.accepted_iff id found hfound).1 hstatus
  case parted => exact ⟨holding, rest, hholding, hget, hparted⟩
  case others_eq => exact hothers
  case refunds_eq => exact refunds_releaseAll ids .issuedToClient time stock

end Stock

end ParcelDesk
