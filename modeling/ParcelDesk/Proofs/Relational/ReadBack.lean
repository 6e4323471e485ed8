import ParcelDesk.Proofs.Relational.Granted

/-!
# Reading back

Whatever was asked before, and however large its numbers, what was accepted is read as it was
written, and a number that no column can hold is turned down before it is stored.
-/

namespace ParcelDesk

namespace Relational

variable {past : List Request} {stock : Stock} {tables : Tables} {slots : List Slot}

/-! ## Numbers that do not fit -/

/-- The work is refused a number that no column can hold. -/
def Overruns (work : Work α) (tables : Tables) : Prop :=
  ∃ error final value, work.Runs tables (.error error) final ∧ ¬ Fits value ∧
    (outOfRange value).ToldBy error

theorem Overruns.bind {work : Work α} (h : Overruns work tables) (next : α → Work β) :
    Overruns (work >>= next) tables := by
  obtain ⟨error, final, value, hruns, hvalue⟩ := h
  exact ⟨error, final, value, hruns.bind_error, hvalue⟩

theorem runs_findRecord_of_not_fits {id : UInt64} (h : ¬ Fits id) (tables : Tables) :
    (findRecord id).Runs tables (.error (outOfRange id)) (some tables) := by
  rw [findRecord, bound_of_not_fits h]
  exact .fail

/-- The live places of a user from a place on, as many as a page may show. -/
def shown (slots : List Slot) (owner : UInt64) (start : Nat) (limit : Option Nat) : List Slot :=
  let live := (slots.drop start).filter fun slot => slot.owner == owner && slot.live
  match limit with
  | some limit => live.take limit
  | none => live

theorem serve_fst {request : Request} {mode : Mode} {work : Work request.Answer}
    (htransaction : transaction request = .ok (mode, work)) {result : Except Error request.Answer}
    (hruns : work.Runs tables result (some tables)) (ended : List Ended) :
    (serve Faults.never request ⟨some tables, (), ended⟩).1 = Reply.ofExcept result := by
  rw [serve, htransaction]
  dsimp only
  cases result with
  | error error => rw [Database.transact_of_error hruns]
  | ok answer => rw [Database.transact_of_ok hruns]

theorem ofExcept_eq_ok {result : Except Error α} {answer : α} :
    Reply.ofExcept result = .ok answer ↔ result = .ok answer := by
  cases result with
  | error error => exact ⟨fun h => (nomatch h), fun h => (nomatch h)⟩
  | ok value =>
      constructor
      · rintro ⟨⟩
        rfl
      · rintro ⟨⟩
        rfl

namespace Kept

theorem record_iff (h : Kept past tables stock slots) (ended : List Ended) {id : UInt64}
    {record : Record} :
    (serve Faults.never (.record id) ⟨some tables, (), ended⟩).1 = .ok record ↔
      Fits id ∧ stock.history.get? id = some record := by
  by_cases hid : Fits id
  · rw [serve_fst rfl (runs_record h.mirrors.records hid), ofExcept_eq_ok, History.find]
    cases stock.history.get? id with
    | none => simp
    | some found => simp [hid]
  · have hruns : (Relational.record id).Runs tables (.error (outOfRange id)) (some tables) :=
      (runs_findRecord_of_not_fits hid tables).bind_error
    rw [serve_fst rfl hruns, ofExcept_eq_ok]
    simp [hid]

/-- The number of an order on record is one that a column holds. -/
theorem fits_of_record (h : Kept past tables stock slots) {id : UInt64} {record : Record}
    (hrecord : stock.history.get? id = some record) : Fits id := by
  have hfind := h.mirrors.records.find?_eq id
  rw [hrecord, Option.map_some] at hfind
  obtain ⟨key, held, hkey, -, hrow⟩ := h.legible.history _ (List.mem_of_find?_eq_some hfind)
  have hsame : (id.toInt64 == key.toInt64) = true := by
    rw [beq_iff_eq]
    exact congrArg HistoryRow.id hrow
  rw [toInt64_beq_toInt64, beq_iff_eq] at hsame
  exact hsame ▸ hkey

theorem recorded (h : Kept past tables stock slots) (ended : List Ended) {owner id : UInt64}
    {order : Order} (haccepted : Accepted past owner id order) :
    ∃ status time, (serve Faults.never (.record id) ⟨some tables, (), ended⟩).1 =
      .ok ⟨order, status, owner, time⟩ := by
  rw [h.tracked.accepted_iff, Stock.deposit_eq_some] at haccepted
  obtain ⟨record, hrecord, rfl, rfl⟩ := haccepted
  exact ⟨record.status, record.changed, (h.record_iff ended).2 ⟨h.fits_of_record hrecord, hrecord⟩⟩

end Kept

/-! ## Numbers that are needed -/

namespace Kept

end Kept

def top : UInt64 := 9223372036854775807

end Relational

end ParcelDesk
