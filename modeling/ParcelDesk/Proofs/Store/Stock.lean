import ParcelDesk.Proofs.Store.History
import ParcelDesk.Proofs.Store.Holdings
import ParcelDesk.Store.Stock

namespace ParcelDesk

namespace Stock

def holding (stock : Stock) (owner : UInt64) : Holding :=
  (stock.holdings.get? owner).getD (.empty owner)

/-- Whose an order is and what was accepted, which its record never forgets. -/
def deposit (stock : Stock) (id : UInt64) : Option (UInt64 × Order) :=
  (stock.history.get? id).map fun record => (record.owner, record.order)

/-! What every sequence of requests keeps true, whatever their arguments: each rack and its index
agree, each order has one place on the rack of the owner whom its record names, and the queue
lists recorded orders only. The stages are not tied to the lists, since a request may set any. -/

structure Sound (stock : Stock) : Prop where
  holding_sound : ∀ owner, (stock.holding owner).Sound owner
  holding_used : ∀ owner holding,
    stock.holdings.get? owner = some holding → holding.rack.slots ≠ []
  listed : ∀ owner, ∀ slot ∈ (stock.holding owner).rack.slots,
    stock.deposit slot.id = some (owner, slot.order)
  recorded : ∀ id owner order,
    stock.deposit id = some (owner, order) → (stock.holding owner).rack.Lists id
  queue_indexed : Rack.Indexed stock.refunds
  queued : ∀ slot ∈ stock.refunds.slots, ∃ order,
    stock.deposit slot.id = some (slot.owner, order)

/-! The changes that requests make when they succeed. -/

def register (owner id : UInt64) (order : Order) (time : Instant) (stock : Stock) : Stock :=
  { stock with
    holdings := stock.holdings.insert owner ((stock.holding owner).accept id order)
    history := stock.history.insert id ⟨order, .accepted, owner, time⟩ }

def mark (id : UInt64) (status : Status) (time : Instant) (stock : Stock) : Stock :=
  { stock with history := stock.history.mark id status time }

def release (id : UInt64) (status : Status) (time : Instant) (stock : Stock) : Stock :=
  match stock.history.get? id with
  | some record =>
      { stock with
        holdings :=
          stock.holdings.insert record.owner ((stock.holding record.owner).release id)
        history := stock.history.mark id status time }
  | none => stock

def releaseAll (ids : List UInt64) (status : Status) (time : Instant) (stock : Stock) : Stock :=
  ids.foldl (fun stock id => stock.release id status time) stock

def enqueue (owner id : UInt64) (order : Order) (time : Instant) (stock : Stock) : Stock :=
  { stock with
    refunds := Rack.add stock.refunds (.ofOrder owner id order)
    history := stock.history.mark id .returned time }

def dequeue (id : UInt64) (time : Instant) (stock : Stock) : Stock :=
  { stock with
    refunds := Rack.retire stock.refunds id
    history := stock.history.mark id .issuedToCourier time }

def Removable (stock : Stock) (id : UInt64) : Prop :=
  ∃ record, stock.history.get? id = some record ∧ record.status.isIssued = false ∧
    (stock.holding record.owner).rack.Shows id

theorem deposit_of_get? {stock : Stock} {id : UInt64} {record : Record}
    (h : stock.history.get? id = some record) :
    stock.deposit id = some (record.owner, record.order) := by
  rw [deposit, h, Option.map_some]

theorem deposit_eq_some {stock : Stock} {id owner : UInt64} {order : Order} :
    stock.deposit id = some (owner, order) ↔
      ∃ record, stock.history.get? id = some record ∧ record.owner = owner ∧
        record.order = order := by
  simp [deposit, Prod.ext_iff]

theorem deposit_eq_none {stock : Stock} {id : UInt64} :
    stock.deposit id = none ↔ stock.history.get? id = none :=
  Option.map_eq_none_iff

theorem holding_of_get? {stock : Stock} {owner : UInt64} {holding : Holding}
    (h : stock.holdings.get? owner = some holding) : stock.holding owner = holding := by
  rw [Stock.holding, h, Option.getD_some]

theorem holding_register (owner id : UInt64) (order : Order) (time : Instant) (stock : Stock)
    (key : UInt64) :
    (stock.register owner id order time).holding key =
      if key = owner then (stock.holding owner).accept id order else stock.holding key := by
  unfold Stock.holding register
  rw [IdMap.get?_insert]
  split <;> rfl

theorem get?_register (owner id : UInt64) (order : Order) (time : Instant) (stock : Stock)
    (key : UInt64) :
    (stock.register owner id order time).history.get? key =
      if key = id then some ⟨order, .accepted, owner, time⟩ else stock.history.get? key :=
  IdMap.get?_insert _ _ _ _

theorem deposit_register (owner id : UInt64) (order : Order) (time : Instant) (stock : Stock)
    (key : UInt64) :
    (stock.register owner id order time).deposit key =
      if key = id then some (owner, order) else stock.deposit key := by
  unfold deposit
  rw [get?_register]
  split <;> rfl

@[simp] theorem refunds_register (owner id : UInt64) (order : Order) (time : Instant)
    (stock : Stock) : (stock.register owner id order time).refunds = stock.refunds := rfl

theorem get?_mark (id : UInt64) (status : Status) (time : Instant) (stock : Stock)
    (key : UInt64) :
    (stock.mark id status time).history.get? key =
      if key = id then (stock.history.get? key).map (·.moved status time)
      else stock.history.get? key :=
  History.get?_mark _ _ _ _ _

private theorem deposit_of_marked {stock after : Stock} {id : UInt64} {status : Status}
    {time : Instant}
    (h : ∀ key, after.history.get? key =
      if key = id then (stock.history.get? key).map (·.moved status time)
      else stock.history.get? key)
    (key : UInt64) : after.deposit key = stock.deposit key := by
  unfold deposit
  rw [h key]
  split
  · rw [Option.map_map]
    rfl
  · rfl

@[simp] theorem deposit_mark (id : UInt64) (status : Status) (time : Instant) (stock : Stock)
    (key : UInt64) : (stock.mark id status time).deposit key = stock.deposit key :=
  deposit_of_marked (get?_mark id status time stock) key

theorem holding_release {stock : Stock} {id : UInt64} {record : Record}
    (h : stock.history.get? id = some record) (status : Status) (time : Instant)
    (key : UInt64) :
    (stock.release id status time).holding key =
      if key = record.owner then (stock.holding key).release id else stock.holding key := by
  unfold Stock.holding release
  rw [h]
  simp only
  rw [IdMap.get?_insert]
  by_cases hkey : key = record.owner
  · subst hkey
    rw [if_pos rfl, if_pos rfl]
    rfl
  · rw [if_neg hkey, if_neg hkey]

theorem get?_release (id : UInt64) (status : Status) (time : Instant) (stock : Stock)
    (key : UInt64) :
    (stock.release id status time).history.get? key =
      if key = id then (stock.history.get? key).map (·.moved status time)
      else stock.history.get? key := by
  unfold release
  split
  · exact History.get?_mark _ _ _ _ _
  · rename_i hnone
    by_cases hkey : key = id
    · subst hkey
      rw [if_pos rfl, hnone, Option.map_none]
    · rw [if_neg hkey]

@[simp] theorem deposit_release (id : UInt64) (status : Status) (time : Instant)
    (stock : Stock) (key : UInt64) :
    (stock.release id status time).deposit key = stock.deposit key :=
  deposit_of_marked (get?_release id status time stock) key

@[simp] theorem refunds_release (id : UInt64) (status : Status) (time : Instant)
    (stock : Stock) : (stock.release id status time).refunds = stock.refunds := by
  unfold release
  split <;> rfl

@[simp] theorem holding_enqueue (owner id : UInt64) (order : Order) (time : Instant)
    (stock : Stock) (key : UInt64) :
    (stock.enqueue owner id order time).holding key = stock.holding key := rfl

theorem get?_enqueue (owner id : UInt64) (order : Order) (time : Instant) (stock : Stock)
    (key : UInt64) :
    (stock.enqueue owner id order time).history.get? key =
      if key = id then (stock.history.get? key).map (·.moved .returned time)
      else stock.history.get? key :=
  History.get?_mark _ _ _ _ _

@[simp] theorem deposit_enqueue (owner id : UInt64) (order : Order) (time : Instant)
    (stock : Stock) (key : UInt64) :
    (stock.enqueue owner id order time).deposit key = stock.deposit key :=
  deposit_of_marked (get?_enqueue owner id order time stock) key

@[simp] theorem refunds_enqueue (owner id : UInt64) (order : Order) (time : Instant)
    (stock : Stock) :
    (stock.enqueue owner id order time).refunds =
      Rack.add stock.refunds (.ofOrder owner id order) := rfl

@[simp] theorem holding_dequeue (id : UInt64) (time : Instant) (stock : Stock)
    (key : UInt64) : (stock.dequeue id time).holding key = stock.holding key := rfl

theorem get?_dequeue (id : UInt64) (time : Instant) (stock : Stock) (key : UInt64) :
    (stock.dequeue id time).history.get? key =
      if key = id then (stock.history.get? key).map (·.moved .issuedToCourier time)
      else stock.history.get? key :=
  History.get?_mark _ _ _ _ _

@[simp] theorem deposit_dequeue (id : UInt64) (time : Instant) (stock : Stock)
    (key : UInt64) : (stock.dequeue id time).deposit key = stock.deposit key :=
  deposit_of_marked (get?_dequeue id time stock) key

@[simp] theorem refunds_dequeue (id : UInt64) (time : Instant) (stock : Stock) :
    (stock.dequeue id time).refunds = Rack.retire stock.refunds id := rfl

end Stock

end ParcelDesk
