import ParcelDesk.Proofs.Call.Rules
import ParcelDesk.Proofs.Desk.Settled

namespace ParcelDesk

/-- What the desk can be made to do to its orders. -/
inductive Deed where
  | accept (parcel : Parcel)
  | give (ids : List UInt64)
  | refund (owner id : UInt64)
  | sendBack (id : UInt64)
deriving DecidableEq

/-- What the desk answers when a deed succeeds. -/
inductive Receipt where
  | priced (order : Order)
  | given (ids : List UInt64)
  | done
deriving DecidableEq

namespace Parcel

def order (parcel : Parcel) : Except Error Order := do
  let packaging ← Packaging.make parcel.container parcel.wrapped
  Order.make parcel.expires parcel.weight parcel.base packaging

structure InOrder (parcel : Parcel) (time : Instant) : Prop where
  fresh : ¬ parcel.expires < time.date
  packed : ∃ order, parcel.order = .ok order

end Parcel

namespace Desk

theorem tryAccept_eq (parcel : Parcel) :
    tryAccept parcel = .readClock fun now =>
      if parcel.expires < now.date then
        Call.refuse .expirationPassed
          s!"can't accept order {parcel.id}: expired on {dateText parcel.expires}"
      else do
        let order ← Call.ofExcept parcel.order
        Call.request (.addOrder parcel.owner parcel.id order now)
        return order := by
  unfold tryAccept
  rw [Call.now_bind]
  congr 1
  funext now
  rw [Parcel.order]
  cases Packaging.make parcel.container parcel.wrapped with
  | ok packaging => rfl
  | error error => rfl

end Desk

namespace Deed

def call : Deed → Call Receipt
  | .accept parcel => do
      let order ← Desk.accept parcel
      return .priced order
  | .give ids => do
      let given ← Desk.give ids
      return .given given
  | .refund owner id => do
      Desk.refund owner id
      return .done
  | .sendBack id => do
      Desk.sendBack id
      return .done

def ids : Deed → List UInt64
  | .accept parcel => [parcel.id]
  | .give ids => ids
  | .refund _ id => [id]
  | .sendBack id => [id]

def stage : Deed → Status
  | .accept _ => .accepted
  | .give _ => .issuedToClient
  | .refund _ _ => .returned
  | .sendBack _ => .issuedToCourier

/-! A deed that succeeds makes one change, and whatever it had checked earlier holds of the stores
right before that change. What it read off the clock comes in the order in which it looked. -/

inductive Success : Deed → Receipt → List Instant → Mutation Stock → Prop
  | accept {parcel : Parcel} {order : Order} {time : Instant} {before : Stock}
      (hfresh : ¬ parcel.expires < time.date) (horder : parcel.order = .ok order)
      (hnew : before.history.get? parcel.id = none) :
      Success (.accept parcel) (.priced order) [time]
        ⟨.addOrder parcel.owner parcel.id order time, before,
          before.register parcel.owner parcel.id order time⟩
  | give {ids : List UInt64} {owner : UInt64} {first time : Instant} {before : Stock}
      (hsome : ids ≠ [])
      (hready : ∀ id ∈ ids, ∃ record, before.history.get? id = some record ∧
        record.status = .accepted ∧ record.owner = owner ∧
          ¬ record.order.expires < first.date) :
      Success (.give ids) (.given (distinct ids)) [first, time]
        ⟨.removeOrders (distinct ids) .issuedToClient time, before,
          before.releaseAll (distinct ids) .issuedToClient time⟩
  | refund {id : UInt64} {record : Record} {limit time : Instant} {before : Stock}
      (hrecord : before.history.get? id = some record)
      (hstatus : record.status = .issuedToClient)
      (hlimit : record.changed.plus Desk.refundWindow = some limit)
      (hintime : ¬ limit < time) :
      Success (.refund record.owner id) .done [time]
        ⟨.addRefund record.owner id record.order time, before,
          before.enqueue record.owner id record.order time⟩
  | sendBackReturned {id : UInt64} {record : Record} {time : Instant} {before : Stock}
      (hrecord : before.history.get? id = some record)
      (hstatus : record.status = .returned) :
      Success (.sendBack id) .done [time]
        ⟨.removeRefund id time, before, before.dequeue id time⟩
  | sendBackUnclaimed {id : UInt64} {record : Record} {limit time : Instant} {before : Stock}
      (hrecord : before.history.get? id = some record)
      (hstatus : record.status = .accepted)
      (hlimit : record.order.expires.start.plus Desk.returnGrace = some limit)
      (hlate : ¬ time ≤ limit) :
      Success (.sendBack id) .done [time]
        ⟨.removeOrders [id] .issuedToCourier time, before,
          before.releaseAll [id] .issuedToCourier time⟩

/-- A parcel in order is turned down only because its identifier is taken. -/
def Failure : Deed → Stop → List Instant → Prop
  | .accept parcel, stop, looks =>
      ∃ time error, looks = [time] ∧ stop = .error error ∧
        (parcel.InOrder time → ∃ status : Status,
          error = .refused .alreadyExists s!"order {parcel.id} has already been {status.words}")
  | _, _, _ => True

def Ends (deed : Deed) : Reply Receipt → Stock → Diary Stock → Prop
  | .ok receipt, _, diary =>
      ∃ mutation, diary.mutations = [mutation] ∧ deed.Success receipt diary.looks mutation
  | .error stop, _, diary => diary.mutations = [] ∧ deed.Failure stop diary.looks

/-- What the others do later changes nothing of it. -/
theorem Ends.later {deed : Deed} {reply : Reply Receipt} {stock : Stock}
    {diary : Diary Stock} (h : deed.Ends reply stock diary) (later : Stock) :
    deed.Ends reply later diary := by
  cases reply <;> exact h

end Deed

end ParcelDesk
