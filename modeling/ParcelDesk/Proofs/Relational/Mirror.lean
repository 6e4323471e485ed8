import ParcelDesk.Proofs.Relational.Rows
import ParcelDesk.Proofs.Store.Requests

namespace ParcelDesk

namespace Relational

/-! What statements do to rows, told of the records and places that the rows hold. -/

def HistoryRow.moved (id : UInt64) (status : Status) (time : Instant) (row : HistoryRow) :
    HistoryRow :=
  if row.id == id.toInt64 then { row with status := status.name, changed := time } else row

def SlotRow.without (id : UInt64) (row : SlotRow) : SlotRow :=
  if row.id == id.toInt64 then { row with live := false } else row

theorem SlotRow.without_hold (id : UInt64) (slot : Slot) :
    (hold slot).without id = hold (slot.without id) := by
  simp only [SlotRow.without, hold, Slot.without, toInt64_beq_toInt64, beq_iff_eq]
  split <;> rfl

theorem map_without_hold (id : UInt64) (slots : List Slot) :
    (slots.map SlotRow.hold).map (SlotRow.without id) =
      (slots.map (Slot.without id)).map SlotRow.hold := by
  rw [List.map_map, List.map_map]
  apply List.map_congr_left
  intro slot hslot
  exact SlotRow.without_hold id slot

theorem SlotFits.without {slot : Slot} (h : SlotFits slot) (id : UInt64) :
    SlotFits (slot.without id) where
  id_fits := (Slot.id_without id slot).symm ▸ h.id_fits
  owner_fits := (Slot.owner_without id slot).symm ▸ h.owner_fits
  order_fits := (Slot.order_without id slot).symm ▸ h.order_fits

structure Records (history : History) (rows : List HistoryRow) : Prop where
  find?_eq : ∀ id, rows.find? (fun row => row.id == id.toInt64) =
    (history.get? id).map (HistoryRow.hold id)
  fits : ∀ id record, history.get? id = some record → RecordFits record

namespace Records

variable {history : History} {rows : List HistoryRow}

theorem any_eq (h : Records history rows) (id : UInt64) :
    rows.any (fun row => row.id == id.toInt64) = (history.get? id).isSome := by
  rw [← List.isSome_find?, h.find?_eq, Option.isSome_map]

theorem insert (h : Records history rows) {id : UInt64} {record : Record}
    (hnew : history.get? id = none) (hfits : RecordFits record) :
    Records (history.insert id record) (rows ++ [.hold id record]) where
  find?_eq := by
    intro key
    rw [List.find?_append, h.find?_eq, IdMap.get?_insert]
    by_cases hkey : key = id
    · subst hkey
      rw [hnew, if_pos rfl]
      simp [HistoryRow.hold]
    · rw [if_neg hkey]
      cases history.get? key with
      | some found => rfl
      | none => simp [HistoryRow.hold, Ne.symm hkey]
  fits := by
    intro key found hfound
    rw [IdMap.get?_insert] at hfound
    split at hfound
    · cases hfound
      exact hfits
    · exact h.fits key found hfound

theorem mark (h : Records history rows) (id : UInt64) (status : Status) (time : Instant) :
    Records (history.mark id status time) (rows.map (HistoryRow.moved id status time)) where
  find?_eq := by
    intro key
    have hid : (fun row : HistoryRow => row.id == key.toInt64) ∘ HistoryRow.moved id status time =
        fun row => row.id == key.toInt64 := by
      funext row
      simp only [Function.comp_apply, HistoryRow.moved]
      split <;> rfl
    rw [List.find?_map, hid, h.find?_eq, History.get?_mark]
    cases history.get? key with
    | none => split <;> rfl
    | some found =>
        by_cases hkey : key = id
        · simp [hkey, HistoryRow.moved, HistoryRow.hold, Record.moved]
        · simp [hkey, HistoryRow.moved, HistoryRow.hold]
  fits := by
    intro key found hfound
    rw [History.get?_mark] at hfound
    split at hfound
    · obtain ⟨record, hrecord, rfl⟩ := Option.map_eq_some_iff.1 hfound
      have hfits := h.fits key record hrecord
      exact ⟨hfits.owner_fits, hfits.order_fits⟩
    · exact h.fits key found hfound

end Records

/-! The tables that go with a stock: the rows of each table, in their order, hold the records and
the places of the stock. One table lists the places of all users, each user's in their order. -/

structure Mirrors (stock : Stock) (tables : Tables) (slots : List Slot) : Prop where
  sound : stock.Sound
  records : Records stock.history tables.history
  orders_eq : tables.orders = slots.map SlotRow.hold
  racks_eq : ∀ owner, (stock.holding owner).rack.slots =
    slots.filter fun slot => slot.owner == owner
  orders_fit : ∀ slot ∈ slots, SlotFits slot
  refunds_eq : tables.refunds = stock.refunds.slots.map SlotRow.hold
  refunds_fit : ∀ slot ∈ stock.refunds.slots, SlotFits slot

namespace Mirrors

variable {stock : Stock} {tables : Tables} {slots : List Slot}

/-- Only its owner's places show an order. -/
theorem mem_rack (h : Mirrors stock tables slots) {owner : UInt64} {slot : Slot} :
    slot ∈ (stock.holding owner).rack.slots ↔ slot ∈ slots ∧ slot.owner = owner := by
  rw [h.racks_eq, List.mem_filter, beq_iff_eq]

theorem deposit_eq (h : Mirrors stock tables slots) {slot : Slot} (hmem : slot ∈ slots) :
    stock.deposit slot.id = some (slot.owner, slot.order) :=
  h.sound.listed slot.owner slot (h.mem_rack.2 ⟨hmem, rfl⟩)

theorem shows_iff (h : Mirrors stock tables slots) {owner id : UInt64} :
    (stock.holding owner).rack.Shows id ↔
      ∃ slot ∈ slots, slot.owner = owner ∧ slot.id = id ∧ slot.live = true := by
  constructor
  · rintro ⟨slot, hmem, hid, hlive⟩
    obtain ⟨hslot, howner⟩ := h.mem_rack.1 hmem
    exact ⟨slot, hslot, howner, hid, hlive⟩
  · rintro ⟨slot, hslot, howner, hid, hlive⟩
    exact ⟨slot, h.mem_rack.2 ⟨hslot, howner⟩, hid, hlive⟩

theorem register (h : Mirrors stock tables slots) {owner id : UInt64} {order : Order}
    (hnew : stock.history.get? id = none) (howner : Fits owner) (hid : Fits id)
    (horder : OrderFits order) (time : Instant) :
    Mirrors (stock.register owner id order time)
      { tables with
        orders := tables.orders ++ [.hold (.ofOrder owner id order)]
        history := tables.history ++ [.hold id ⟨order, .accepted, owner, time⟩] }
      (slots ++ [.ofOrder owner id order]) where
  sound := h.sound.register hnew owner order time
  records := h.records.insert hnew ⟨howner, horder⟩
  orders_eq := by
    rw [List.map_append, ← h.orders_eq]
    rfl
  racks_eq := by
    intro key
    rw [Stock.holding_register, List.filter_append, ← h.racks_eq]
    by_cases hkey : key = owner
    · subst hkey
      rw [if_pos rfl, Holding.rack_accept, Rack.slots_add,
        (h.sound.holding_sound key).owner_eq]
      simp
    · rw [if_neg hkey]
      simp [Ne.symm hkey]
  orders_fit := by
    intro slot hmem
    cases List.mem_append.1 hmem with
    | inl hold => exact h.orders_fit slot hold
    | inr hlast =>
        cases List.mem_singleton.1 hlast
        exact ⟨hid, howner, horder⟩
  refunds_eq := h.refunds_eq
  refunds_fit := h.refunds_fit

theorem mark (h : Mirrors stock tables slots) (id : UInt64) (status : Status)
    (time : Instant) :
    Mirrors (stock.mark id status time)
      { tables with history := tables.history.map (.moved id status time) } slots where
  sound := h.sound.mark id status time
  records := h.records.mark id status time
  orders_eq := h.orders_eq
  racks_eq := h.racks_eq
  orders_fit := h.orders_fit
  refunds_eq := h.refunds_eq
  refunds_fit := h.refunds_fit

theorem release (h : Mirrors stock tables slots) {id : UInt64} {record : Record}
    (hrecord : stock.history.get? id = some record) (status : Status) (time : Instant) :
    Mirrors (stock.release id status time)
      { tables with
        orders := tables.orders.map (.without id)
        history := tables.history.map (.moved id status time) }
      (slots.map (.without id)) where
  sound := h.sound.release id status time
  records := by
    have hmark := h.records.mark id status time
    rw [Stock.release, hrecord]
    exact hmark
  orders_eq := by
    rw [h.orders_eq, map_without_hold]
  racks_eq := by
    intro key
    have howner : (fun slot : Slot => slot.owner == key) ∘ Slot.without id =
        fun slot => slot.owner == key := by
      funext slot
      rw [Function.comp_apply, Slot.owner_without]
    rw [Stock.holding_release hrecord, List.filter_map, howner, ← h.racks_eq]
    split
    · rw [Holding.rack_release, Rack.slots_retire]
    · -- a place of the order elsewhere would belong to another owner
      rename_i hkey
      have hsame : ∀ slot ∈ (stock.holding key).rack.slots, slot.without id = slot := by
        intro slot hmem
        rw [Slot.without, if_neg]
        rintro rfl
        exact hkey (h.sound.owner_unique (Stock.deposit_of_get? hrecord) ⟨slot, hmem, rfl⟩)
      exact ((List.map_congr_left hsame).trans (List.map_id _)).symm
  orders_fit := by
    intro slot hmem
    obtain ⟨old, hold, rfl⟩ := List.mem_map.1 hmem
    exact (h.orders_fit old hold).without id
  refunds_eq := by
    rw [Stock.refunds_release]
    exact h.refunds_eq
  refunds_fit := by
    rw [Stock.refunds_release]
    exact h.refunds_fit

theorem enqueue (h : Mirrors stock tables slots) {owner id : UInt64} {record : Record}
    (hrecord : stock.history.get? id = some record) (howner : record.owner = owner)
    (hnew : ¬ Rack.Lists stock.refunds id) (hownerFits : Fits owner) (hid : Fits id)
    {order : Order} (horder : OrderFits order) (time : Instant) :
    Mirrors (stock.enqueue owner id order time)
      { tables with
        refunds := tables.refunds ++ [.hold (.ofOrder owner id order)]
        history := tables.history.map (.moved id .returned time) } slots where
  sound := h.sound.enqueue hrecord howner hnew order time
  records := h.records.mark id .returned time
  orders_eq := h.orders_eq
  racks_eq := h.racks_eq
  orders_fit := h.orders_fit
  refunds_eq := by
    rw [Stock.refunds_enqueue, Rack.slots_add, List.map_append, ← h.refunds_eq]
    rfl
  refunds_fit := by
    intro slot hmem
    rw [Stock.refunds_enqueue, Rack.slots_add] at hmem
    cases List.mem_append.1 hmem with
    | inl hold => exact h.refunds_fit slot hold
    | inr hlast =>
        cases List.mem_singleton.1 hlast
        exact ⟨hid, hownerFits, horder⟩

theorem dequeue (h : Mirrors stock tables slots) (id : UInt64) (time : Instant) :
    Mirrors (stock.dequeue id time)
      { tables with
        refunds := tables.refunds.map (.without id)
        history := tables.history.map (.moved id .issuedToCourier time) } slots where
  sound := h.sound.dequeue id time
  records := h.records.mark id .issuedToCourier time
  orders_eq := h.orders_eq
  racks_eq := h.racks_eq
  orders_fit := h.orders_fit
  refunds_eq := by
    rw [h.refunds_eq, map_without_hold]
    rfl
  refunds_fit := by
    intro slot hmem
    obtain ⟨old, hold, rfl⟩ := List.mem_map.1 hmem
    exact (h.refunds_fit old hold).without id

end Mirrors

end Relational

end ParcelDesk
