import ParcelDesk.Proofs.Desk.Alone
import ParcelDesk.Proofs.Store.Showing

namespace ParcelDesk

/-- What the desk can be called for: a deed, or one of the two listings. -/
inductive Service where
  | deed (deed : Deed)
  | orders (owner first limit : UInt64)
  | refunds (page size : UInt64)
deriving DecidableEq

namespace Service

def call : Service → Call (Receipt ⊕ List Slot)
  | .deed asked => do
      let receipt ← asked.call
      return .inl receipt
  | .orders owner first limit => do
      let slots ← Desk.orders owner first limit
      return .inr slots
  | .refunds page size => do
      let slots ← Desk.refunds page size
      return .inr slots

end Service

structure Served where
  service : Service
  reply : Reply (Receipt ⊕ List Slot)

/-- The calls made so far, the first one first. -/
abbrev Journal := List Served

namespace Served

/-- The parcel that a call registered, as a place that shows it. -/
def registered? : Served → Option Slot
  | ⟨.deed (.accept parcel), .ok (.inl (.priced order))⟩ =>
      some (.ofOrder parcel.owner parcel.id order)
  | _ => none

/-- Holds if a call handed the order out, to its owner or to the courier. -/
def handsOut (id : UInt64) : Served → Bool
  | ⟨.deed (.give _), .ok (.inl (.given ids))⟩ => id ∈ ids
  | ⟨.deed (.sendBack key), .ok _⟩ => id = key
  | _ => false

def broughtBack? : Served → Option UInt64
  | ⟨.deed (.refund _ id), .ok _⟩ => some id
  | _ => none

def sendsBack (id : UInt64) : Served → Bool
  | ⟨.deed (.sendBack key), .ok _⟩ => id = key
  | _ => false

end Served

namespace Journal

/-- What came in and has not gone since, in the order in which it came. -/
def standing (enters : Served → Option α) (leaves : Served → α → Bool) : Journal → List α
  | [] => []
  | served :: later =>
      match enters served with
      | some item =>
          if later.any fun other => leaves other item then standing enters leaves later
          else item :: standing enters leaves later
      | none => standing enters leaves later

theorem standing_concat (enters : Served → Option α) (leaves : Served → α → Bool)
    (journal : Journal) (served : Served) :
    standing enters leaves (journal ++ [served]) =
      (standing enters leaves journal).filter (fun item => !leaves served item) ++
        (enters served).toList := by
  induction journal with
  | nil =>
      simp only [List.nil_append, standing]
      cases enters served <;> rfl
  | cons first rest ih =>
      rw [List.cons_append, standing, standing]
      cases enters first with
      | none => exact ih
      | some item =>
          simp only [List.any_append, List.any_cons, List.any_nil, Bool.or_false]
          cases hrest : rest.any fun other => leaves other item with
          | true => simp [ih]
          | false => cases hlast : leaves served item <;> simp [ih, hlast]

/-- The orders accepted for a user that have neither been given nor sent back since. -/
def waiting (owner : UInt64) (journal : Journal) : List Slot :=
  (standing Served.registered? (fun served slot => served.handsOut slot.id) journal).filter
    fun slot => slot.owner = owner

/-- The orders brought back that have not been sent back since. -/
def queued (journal : Journal) : List UInt64 :=
  standing Served.broughtBack? (fun served id => served.sendsBack id) journal

def registration? (journal : Journal) (id : UInt64) : Option Slot :=
  (journal.filterMap Served.registered?).find? fun slot => slot.id = id

/-- The orders of the queue, each as it was accepted. -/
def returned (journal : Journal) : List Slot :=
  journal.queued.filterMap journal.registration?

def refundCount (journal : Journal) : Nat :=
  (journal.filterMap Served.broughtBack?).length

theorem waiting_concat (owner : UInt64) (journal : Journal) (served : Served) :
    waiting owner (journal ++ [served]) =
      (journal.waiting owner).filter (fun slot => !served.handsOut slot.id) ++
        served.registered?.toList.filter fun slot => slot.owner = owner := by
  rw [waiting, standing_concat, List.filter_append, List.filter_filter, waiting,
    List.filter_filter]
  simp only [Bool.and_comm]

theorem queued_concat (journal : Journal) (served : Served) :
    queued (journal ++ [served]) =
      journal.queued.filter (fun id => !served.sendsBack id) ++ served.broughtBack?.toList :=
  standing_concat _ _ _ _

theorem registration?_concat (journal : Journal) (served : Served) (id : UInt64) :
    registration? (journal ++ [served]) id =
      (journal.registration? id).or (served.registered?.filter fun slot => slot.id = id) := by
  rw [registration?, List.filterMap_append, List.find?_append, registration?]
  apply congrArg
  cases hserved : served.registered? with
  | none => simp [hserved]
  | some slot => by_cases hid : slot.id = id <;> simp [hserved, hid, Option.filter]

theorem refundCount_concat (journal : Journal) (served : Served) :
    refundCount (journal ++ [served]) =
      journal.refundCount + served.broughtBack?.toList.length := by
  rw [refundCount, List.filterMap_append, List.length_append, refundCount]
  cases hserved : served.broughtBack? <;> simp [hserved]

/-- Makes calls one after the other, each with a clock of its own. -/
def write : List (Service × (Nat → Instant)) → Stock → Journal × Stock
  | [], stock => ([], stock)
  | (service, clock) :: rest, stock =>
      let ran := service.call.runBy Stock.serve clock stock
      let (journal, final) := write rest ran.state
      (⟨service, ran.reply⟩ :: journal, final)

end Journal

end ParcelDesk
