import Mathlib.Data.List.Induction
import ParcelDesk.Proofs.Relational.Interchange
import ParcelDesk.Proofs.Relational.Legible

/-!
# Granted requests

What the tables hold after any requests is told by those among them that were granted: the orders
that were accepted, each with its owner, and those that were taken back.
-/

namespace ParcelDesk

namespace Relational

variable {stock : Stock} {tables : Tables} {slots : List Slot}

/-! ## Times -/

theorem stored_stored (time : Instant) : stored (stored time) = stored time := by
  cases hheld : Instant.ofNanos? (origin + (time.nanos - origin).tdiv 1000 * 1000) with
  | none =>
      have hsame : stored time = time := by rw [stored, hheld, Option.getD_none]
      rw [hsame, hsame]
  | some held =>
      have hstored : stored time = held := by rw [stored, hheld, Option.getD_some]
      rw [hstored]
      rw [Instant.ofNanos?, Instant.make?] at hheld
      split at hheld
      · cases hheld
        apply stored_of_whole
        · dsimp only
          rw [nanosPerSecond]
          omega
        · dsimp only
          rw [nanosPerSecond, origin]
          omega
      · cases hheld

def settled : Request → Request
  | .addOrder owner id order time => .addOrder owner id order (stored time)
  | .removeOrders ids status time => .removeOrders ids status (stored time)
  | .setStatus id status time => .setStatus id status (stored time)
  | .addRefund owner id order time => .addRefund owner id order (stored time)
  | .removeRefund id time => .removeRefund id (stored time)
  | request => request

theorem addOrder_stored (owner id : UInt64) (order : Order) (time : Instant) :
    addOrder owner id order (stored time) = addOrder owner id order time := by
  simp only [addOrder, putAccepted, stored_stored]

theorem setStatus_stored (id : UInt64) (status : Status) (time : Instant) :
    setStatus id status (stored time) = setStatus id status time :=
  -- the answer's type mentions the statement, so the time cannot be rewritten in place
  congrArg (fun kept => (do
    let number ← Work.ofExcept (bound id)
    if ← Work.query (.setStatus number status.name kept) then return
    else Work.refuse .notFound s!"order {id} not found" : Work Unit)) (stored_stored time)

theorem removeOrders_stored (ids : List UInt64) (status : Status) (time : Instant) :
    removeOrders ids status (stored time) = removeOrders ids status time := by
  have hall (ids : List UInt64) :
      removeAll status (stored time) ids = removeAll status time ids := by
    induction ids with
    | nil => rfl
    | cons id rest ih => rw [removeAll, removeAll, setStatus_stored, ih]
  simp only [removeOrders, hall]

/-! ## Changes -/

theorem Follows.change {request : Request} {work : Work request.Answer}
    (h : Follows stock tables request work) (hsound : stock.Sound)
    (hchanges : request.changes = true) {mode : Mode} {answer : request.Answer} {later : Tables}
    {ended after : List Ended}
    (htransact : Database.transact Faults.never mode work ⟨some tables, (), ended⟩ =
      (.ok answer, ⟨some later, (), after⟩)) :
    ∃ next places, stock.Change request next ∧ Mirrors next later places := by
  cases h with
  | fail hserve hruns hvariant =>
      rw [Database.transact_of_error hruns] at htransact
      cases htransact
  | @ok answer next later places hserve hruns hmirrors =>
      rw [Database.transact_of_ok hruns] at htransact
      cases htransact
      refine ⟨next, places, ?_, hmirrors⟩
      obtain ⟨_, _, -, hchange, heq⟩ | ⟨_, hreads, -⟩ | ⟨_, heq⟩ := hsound.serve_cases request
      · rw [hserve] at heq
        cases heq
        exact hchange
      · rw [hchanges] at hreads
        cases hreads
      · rw [hserve] at heq
        cases heq

/-- A change that is granted is one of the stock as well. -/
theorem Mirrors.change (h : Mirrors stock tables slots) {request : Request}
    (hchanges : request.changes = true) (hfits : Fitting request) {answer : request.Answer}
    {later : Tables} {ended after : List Ended}
    (hserve : Relational.serve Faults.never request ⟨some tables, (), ended⟩ =
      (.ok answer, ⟨some later, (), after⟩)) :
    ∃ next places, stock.Change (settled request) next ∧ Mirrors next later places := by
  have htransact {mode : Mode} {work : Work request.Answer}
      (htransaction : transaction request = .ok (mode, work)) :
      Database.transact Faults.never mode work ⟨some tables, (), ended⟩ =
        (.ok answer, ⟨some later, (), after⟩) := by
    rw [Relational.serve, htransaction] at hserve
    dsimp only at hserve
    rcases hresult : Database.transact Faults.never mode work ⟨some tables, (), ended⟩ with
      ⟨error | value, db⟩
    · rw [hresult] at hserve
      cases hserve
    · rw [hresult] at hserve
      cases hserve
      rfl
  cases request with
  | addOrder owner id order time =>
      obtain ⟨howner, hid, horder⟩ := hfits
      have hfollows := follows_addOrder h howner hid horder (stored_stored time)
      rw [addOrder_stored] at hfollows
      exact hfollows.change h.sound hchanges (htransact rfl)
  | removeOrders ids status time =>
      have hfollows := follows_removeOrders h hfits status (stored_stored time)
      rw [removeOrders_stored] at hfollows
      exact hfollows.change h.sound hchanges (htransact rfl)
  | setStatus id status time =>
      have hfollows := follows_setStatus h hfits status (stored_stored time)
      rw [setStatus_stored] at hfollows
      exact hfollows.change h.sound hchanges (htransact rfl)
  | addRefund owner id order time =>
      obtain ⟨howner, hid, horder⟩ := hfits
      have hfollows := follows_addRefund h howner hid horder (stored_stored time)
      rw [show addRefund owner id order (stored time) = addRefund owner id order time by
        simp only [addRefund, setStatus_stored]] at hfollows
      exact hfollows.change h.sound hchanges (htransact rfl)
  | removeRefund id time =>
      have hfollows := follows_removeRefund h hfits (stored_stored time)
      rw [show removeRefund id (stored time) = removeRefund id time by
        simp only [removeRefund, setStatus_stored]] at hfollows
      exact hfollows.change h.sound hchanges (htransact rfl)
  | record | order | expiration | checkRemovable | orders | refunds => cases hchanges

/-! ## What has been granted -/

def reached (past : List Request) : Database Unit :=
  Server.after (serve Faults.never) past migrated

def Grants (past : List Request) (request : Request) : Prop :=
  ∃ answer, (serve Faults.never request (reached past)).1 = .ok answer

/-- The request was made and granted at some time in the past. -/
def Granted (past : List Request) (request : Request) : Prop :=
  ∃ before rest, past = before ++ request :: rest ∧ Grants before request

def Accepted (past : List Request) (owner id : UInt64) (order : Order) : Prop :=
  ∃ time, Granted past (.addOrder owner id order time)

def TakenBack (past : List Request) (owner id : UInt64) (order : Order) : Prop :=
  ∃ time, Granted past (.addRefund owner id order time)

theorem not_granted_nil (request : Request) : ¬ Granted [] request := by
  rintro ⟨before, rest, hpast, -⟩
  cases before <;> cases hpast

section Concat

variable {past : List Request} {request : Request}

theorem granted_concat {other : Request} :
    Granted (past ++ [request]) other ↔
      Granted past other ∨ (request = other ∧ Grants past other) := by
  constructor
  · rintro ⟨before, rest, hpast, hgrants⟩
    rcases List.eq_nil_or_concat rest with rfl | ⟨rest, last, rfl⟩
    · obtain ⟨rfl, hlast⟩ := List.append_inj' hpast rfl
      cases hlast
      exact .inr ⟨rfl, hgrants⟩
    · rw [List.concat_eq_append, ← List.cons_append, ← List.append_assoc] at hpast
      obtain ⟨rfl, -⟩ := List.append_inj' hpast rfl
      exact .inl ⟨before, rest, rfl, hgrants⟩
  · rintro (⟨before, rest, rfl, hgrants⟩ | ⟨rfl, hgrants⟩)
    · exact ⟨before, rest ++ [request], by simp, hgrants⟩
    · exact ⟨past, [], rfl, hgrants⟩

theorem accepted_concat {owner id : UInt64} {order : Order} :
    Accepted (past ++ [request]) owner id order ↔ Accepted past owner id order ∨
      ((∃ time, request = .addOrder owner id order time) ∧ Grants past request) := by
  simp only [Accepted, granted_concat, exists_or]
  apply or_congr_right
  constructor
  · rintro ⟨time, rfl, hgrants⟩
    exact ⟨⟨time, rfl⟩, hgrants⟩
  · rintro ⟨⟨time, rfl⟩, hgrants⟩
    exact ⟨time, rfl, hgrants⟩

theorem takenBack_concat {owner id : UInt64} {order : Order} :
    TakenBack (past ++ [request]) owner id order ↔ TakenBack past owner id order ∨
      ((∃ time, request = .addRefund owner id order time) ∧ Grants past request) := by
  simp only [TakenBack, granted_concat, exists_or]
  apply or_congr_right
  constructor
  · rintro ⟨time, rfl, hgrants⟩
    exact ⟨⟨time, rfl⟩, hgrants⟩
  · rintro ⟨⟨time, rfl⟩, hgrants⟩
    exact ⟨time, rfl, hgrants⟩

end Concat

/-- The queue has, or had, a place for the order. -/
def Queued (stock : Stock) (owner id : UInt64) (order : Order) : Prop :=
  ∃ slot ∈ stock.refunds.slots, slot.owner = owner ∧ slot.id = id ∧ slot.order = order

theorem queued_enqueue {owner id : UInt64} {order : Order} {time : Instant}
    {user key : UInt64} {parcel : Order} :
    Queued (stock.enqueue owner id order time) user key parcel ↔
      Queued stock user key parcel ∨ (owner = user ∧ id = key ∧ order = parcel) := by
  simp only [Queued, Stock.refunds_enqueue, Rack.slots_add, List.mem_append, List.mem_singleton,
    or_and_right, exists_or, exists_eq_left]
  rfl

theorem queued_dequeue {id : UInt64} {time : Instant} {user key : UInt64} {parcel : Order} :
    Queued (stock.dequeue id time) user key parcel ↔ Queued stock user key parcel := by
  simp [Queued, Stock.refunds_dequeue]

/-- What a stock that mirrors the tables knows of the requests that were granted. -/
structure Tracked (past : List Request) (stock : Stock) : Prop where
  accepted_iff : ∀ owner id order,
    Accepted past owner id order ↔ stock.deposit id = some (owner, order)
  takenBack_iff : ∀ owner id order,
    TakenBack past owner id order ↔ Queued stock owner id order

namespace Tracked

variable {past : List Request} {request : Request}

theorem empty : Tracked [] .empty where
  accepted_iff := by
    intro owner id order
    constructor
    · rintro ⟨time, hgranted⟩
      exact absurd hgranted (not_granted_nil _)
    · intro hdeposit
      cases hdeposit
  takenBack_iff := by
    intro owner id order
    constructor
    · rintro ⟨time, hgranted⟩
      exact absurd hgranted (not_granted_nil _)
    · rintro ⟨slot, hmem, -⟩
      cases hmem

theorem same (h : Tracked past stock) (hnone : ¬ (request.changes = true ∧ Grants past request)) :
    Tracked (past ++ [request]) stock where
  accepted_iff := by
    intro owner id order
    rw [accepted_concat, h.accepted_iff, or_iff_left]
    rintro ⟨⟨time, rfl⟩, hgrants⟩
    exact hnone ⟨rfl, hgrants⟩
  takenBack_iff := by
    intro owner id order
    rw [takenBack_concat, h.takenBack_iff, or_iff_left]
    rintro ⟨⟨time, rfl⟩, hgrants⟩
    exact hnone ⟨rfl, hgrants⟩

theorem change (h : Tracked past stock) {next : Stock} (hgrants : Grants past request)
    (hchange : stock.Change (settled request) next) : Tracked (past ++ [request]) next where
  accepted_iff := by
    intro owner id order
    rw [accepted_concat, h.accepted_iff]
    cases request with
    | addOrder user key parcel time =>
        cases hchange with
        | register _ _ _ _ hnew =>
            rw [Stock.deposit_register]
            have hdeposit := Stock.deposit_eq_none.2 hnew
            by_cases hid : id = key
            · subst hid
              simp [hdeposit, hgrants, Prod.ext_iff]
            · simp [hid, Ne.symm hid]
    | removeOrders ids status time =>
        cases hchange
        simp
    | setStatus key status time =>
        cases hchange
        simp
    | addRefund user key parcel time =>
        cases hchange
        simp
    | removeRefund key time =>
        cases hchange
        simp
    | record | order | expiration | checkRemovable | orders | refunds => cases hchange
  takenBack_iff := by
    intro owner id order
    rw [takenBack_concat, h.takenBack_iff]
    cases request with
    | addRefund user key parcel time =>
        cases hchange
        rw [queued_enqueue]
        simp [hgrants]
    | removeRefund key time =>
        cases hchange
        rw [queued_dequeue]
        simp
    | addOrder user key parcel time =>
        cases hchange
        simp [Queued]
    | removeOrders ids status time =>
        cases hchange
        simp [Queued]
    | setStatus key status time =>
        cases hchange
        simp [Queued, Stock.mark]
    | record | order | expiration | checkRemovable | orders | refunds => cases hchange

end Tracked

/-- The tables after the requests of the past, and a stock that tells what they hold. -/
structure Kept (past : List Request) (tables : Tables) (stock : Stock) (slots : List Slot) :
    Prop where
  legible : Legible tables
  mirrors : Mirrors stock tables slots
  tracked : Tracked past stock

end Relational

end ParcelDesk
