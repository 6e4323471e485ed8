import ParcelDesk.Relational.Rows

namespace ParcelDesk

theorem Container.read_name (container : Container) :
    Container.read container.name.toList = .ok container := by
  cases container <;> rfl

theorem Status.read_name (status : Status) : Status.read status.name = .ok status := by
  cases status <;> rfl

namespace Relational

/-! What columns hold and give back. A number that fits a column comes back as it went in. -/

/-- A number that a column can hold. -/
def Fits (value : UInt64) : Prop := value.toNat ≤ greatest

instance (value : UInt64) : Decidable (Fits value) :=
  inferInstanceAs (Decidable (_ ≤ _))

theorem bound_of_fits {value : UInt64} (h : Fits value) : bound value = .ok value.toInt64 :=
  if_pos h

theorem unbound_toInt64 {value : UInt64} (h : Fits value) :
    unbound value.toInt64 = .ok value := by
  have hnonneg : ¬ value.toInt64 < 0 := by
    have hsmall : 2 * value.toBitVec.toNat < 2 ^ 64 := by
      have hle : value.toBitVec.toNat ≤ greatest := h
      rw [greatest, Numeral.signedEnd] at hle
      omega
    rw [Int64.lt_iff_toInt_lt, Int64.toInt, UInt64.toBitVec_toInt64,
      BitVec.toInt_eq_toNat_of_lt hsmall, Int64.toInt_zero]
    omega
  rw [unbound, if_neg hnonneg, UInt64.toUInt64_toInt64]

@[simp] theorem toInt64_beq_toInt64 (a b : UInt64) : (a.toInt64 == b.toInt64) = (a == b) := by
  by_cases h : a = b
  · rw [h, beq_self_eq_true, beq_self_eq_true]
  · rw [beq_eq_false_iff_ne.2 h, beq_eq_false_iff_ne]
    intro hsame
    apply h
    rw [← UInt64.toUInt64_toInt64 a, hsame, UInt64.toUInt64_toInt64]

structure OrderFits (order : Order) : Prop where
  weight_fits : Fits order.weight
  cost_fits : Fits order.cost

instance (order : Order) : Decidable (OrderFits order) :=
  decidable_of_iff (Fits order.weight ∧ Fits order.cost)
    ⟨fun h => ⟨h.1, h.2⟩, fun h => ⟨h.weight_fits, h.cost_fits⟩⟩

namespace Columns

def hold (order : Order) : Columns where
  expires := order.expires
  container := order.container.name
  weight := order.weight.toInt64
  cost := order.cost.toInt64
  taped := order.taped

theorem ofOrder_of_fits {order : Order} (h : OrderFits order) :
    ofOrder order = .ok (hold order) := by
  rw [ofOrder, bound_of_fits h.weight_fits, bound_of_fits h.cost_fits]
  rfl

theorem order_hold {order : Order} (h : OrderFits order) : (hold order).order = .ok order := by
  simp only [Columns.order, hold, Container.read_name, unbound_toInt64 h.weight_fits,
    unbound_toInt64 h.cost_fits]
  rfl

end Columns

structure RecordFits (record : Record) : Prop where
  owner_fits : Fits record.owner
  order_fits : OrderFits record.order

def HistoryRow.hold (id : UInt64) (record : Record) : HistoryRow where
  id := id.toInt64
  owner := record.owner.toInt64
  parcel := .hold record.order
  status := record.status.name
  changed := record.changed

theorem HistoryRow.record_hold {record : Record} (h : RecordFits record) (id : UInt64) :
    (hold id record).record = .ok record := by
  simp only [HistoryRow.record, hold, Columns.order_hold h.order_fits, Status.read_name,
    unbound_toInt64 h.owner_fits]
  rfl

structure SlotFits (slot : Slot) : Prop where
  id_fits : Fits slot.id
  owner_fits : Fits slot.owner
  order_fits : OrderFits slot.order

def SlotRow.hold (slot : Slot) : SlotRow where
  id := slot.id.toInt64
  owner := slot.owner.toInt64
  parcel := .hold slot.order
  live := slot.live

theorem SlotRow.slot_hold {slot : Slot} (h : SlotFits slot) (hlive : slot.live = true) :
    (hold slot).slot = .ok slot := by
  obtain ⟨order, owner, id, live⟩ := slot
  cases hlive
  simp only [SlotRow.slot, hold, unbound_toInt64 h.owner_fits, unbound_toInt64 h.id_fits,
    Columns.order_hold h.order_fits]
  rfl

/-- A column keeps a moment of whole microseconds exactly, unless it is in a leap second. -/
theorem stored_of_whole {time : Instant} (hnano : time.nano < nanosPerSecond)
    (hwhole : time.nano % 1000 = 0) : stored time = time := by
  have hkept : origin + (time.nanos - origin).tdiv 1000 * 1000 = time.nanos := by
    have hdvd : (1000 : Int) ∣ time.nanos - origin := by
      rw [Instant.nanos, nanosPerSecond, origin]
      omega
    rw [Int.tdiv_mul_cancel hdvd]
    omega
  have hsecond : time.nanos / nanosPerSecond = time.second := by
    rw [Instant.nanos]
    rw [nanosPerSecond] at hnano ⊢
    omega
  have hpart : (time.nanos % nanosPerSecond).toNat = time.nano := by
    rw [Instant.nanos]
    rw [nanosPerSecond] at hnano ⊢
    omega
  rw [stored, hkept, Instant.ofNanos?, hsecond, hpart, Instant.make?,
    dif_pos ⟨time.first_le, time.lt_end, time.nano_lt⟩]
  rfl

end Relational

end ParcelDesk
