import ParcelDesk.Proofs.Relational.Mirror
import ParcelDesk.Proofs.Relational.Runs

namespace ParcelDesk

namespace Relational

theorem bound_bind {value : UInt64} (h : Fits value) (next : Int64 → Work α) :
    (Work.ofExcept (bound value) >>= next) = next value.toInt64 := by
  rw [bound_of_fits h]
  rfl

theorem columns_bind {order : Order} (h : OrderFits order) (next : Columns → Work α) :
    (Work.ofExcept (Columns.ofOrder order) >>= next) = next (.hold order) := by
  rw [Columns.ofOrder_of_fits h]
  rfl

/-! ## The history -/

theorem act_setStatus (id : UInt64) (status : Status) (time : Instant) (tables : Tables) :
    (Statement.setStatus id.toInt64 status.name time).act tables =
      .ok (tables.history.any (fun row => row.id == id.toInt64),
        { tables with history := tables.history.map (.moved id status time) }) := rfl

section History

variable {history : History} {tables : Tables} {id : UInt64}

theorem runs_findRecord (h : Records history tables.history) (hid : Fits id) :
    (findRecord id).Runs tables (.ok (history.get? id)) (some tables) := by
  have hquery : (Work.query (.findHistory id.toInt64)).Runs tables
      (.ok ((history.get? id).map (.hold id))) (some tables) := by
    apply Work.runs_query
    rw [Statement.act, h.find?_eq]
  rw [findRecord, bound_bind hid]
  refine hquery.bind ?_
  cases hrecord : history.get? id with
  | none => exact .done
  | some record =>
      change (some <$> Work.ofExcept (HistoryRow.hold id record).record).Runs _ _ _
      rw [HistoryRow.record_hold (h.fits id record hrecord)]
      exact .done

theorem runs_record (h : Records history tables.history) (hid : Fits id) :
    (record id).Runs tables (history.find id) (some tables) := by
  rw [record, History.find]
  refine (runs_findRecord h hid).bind ?_
  cases history.get? id with
  | none => exact .fail
  | some record => exact .done

theorem runs_status (h : Records history tables.history) (hid : Fits id) :
    (status id).Runs tables ((history.find id).map (·.status)) (some tables) := by
  have hquery : (Work.query (.findStatus id.toInt64)).Runs tables
      (.ok ((history.get? id).map fun record => record.status.name)) (some tables) := by
    apply Work.runs_query
    rw [Statement.act, h.find?_eq, Option.map_map]
    rfl
  rw [status, bound_bind hid, History.find]
  refine hquery.bind ?_
  cases history.get? id with
  | none => exact .fail
  | some record =>
      change (Work.ofExcept (Status.read record.status.name)).Runs _ _ _
      rw [Status.read_name]
      exact .done

theorem runs_setStatus_of_some (h : Records history tables.history) (hid : Fits id)
    {record : Record} (hrecord : history.get? id = some record) (status : Status)
    {time : Instant} (hstored : stored time = time) :
    (setStatus id status time).Runs tables (.ok ())
      (some { tables with history := tables.history.map (.moved id status time) }) := by
  have hquery : (Work.query (.setStatus id.toInt64 status.name (stored time))).Runs tables
      (.ok true)
      (some { tables with history := tables.history.map (.moved id status time) }) := by
    apply Work.runs_query
    rw [act_setStatus, h.any_eq, hrecord, hstored]
    rfl
  rw [setStatus, bound_bind hid]
  exact hquery.bind .done

theorem runs_setStatus_of_none (h : Records history tables.history) (hid : Fits id)
    (hnone : history.get? id = none) (status : Status) (time : Instant) :
    ∃ final, (setStatus id status time).Runs tables
      (.error (.refused .notFound s!"order {id} not found")) final := by
  have hact := act_setStatus id status (stored time) tables
  rw [h.any_eq, hnone, Option.isSome_none] at hact
  rw [setStatus, bound_bind hid]
  exact ⟨_, (Work.runs_query hact).bind .fail⟩

theorem runs_putAccepted (h : Records history tables.history) {owner : UInt64} {order : Order}
    (howner : Fits owner) (hid : Fits id) (horder : OrderFits order)
    (hnone : history.get? id = none) {time : Instant} (hstored : stored time = time) :
    (putAccepted owner id order time).Runs tables (.ok ())
      (some { tables with
        history := tables.history ++ [.hold id ⟨order, .accepted, owner, time⟩] }) := by
  have hact : (Statement.insertHistory (.hold id ⟨order, .accepted, owner, time⟩)).act tables =
      .ok ((), { tables with
        history := tables.history ++ [.hold id ⟨order, .accepted, owner, time⟩] }) := by
    rw [Statement.act, if_neg]
    rw [HistoryRow.hold, h.any_eq, hnone]
    exact Bool.false_ne_true
  rw [putAccepted, bound_bind hid, bound_bind howner, columns_bind horder, hstored]
  exact .send hact .done

end History

/-! ## The listings -/

theorem act_withdraw (listing : Listing) (id : UInt64) (tables : Tables) :
    (Statement.withdraw listing id.toInt64).act tables =
      .ok ((tables.rows listing).any (fun row => row.id == id.toInt64 && row.live),
        tables.withRows listing ((tables.rows listing).map (.without id))) := rfl

section Listings

variable {slots : List Slot} {id : UInt64}

theorem any_hold (slots : List Slot) (id : UInt64) :
    (slots.map SlotRow.hold).any (fun row => row.id == id.toInt64) =
      slots.any fun slot => slot.id == id := by
  rw [List.any_map]
  congr 1
  funext slot
  simp [SlotRow.hold]

theorem any_live_hold (slots : List Slot) (id : UInt64) :
    (slots.map SlotRow.hold).any (fun row => row.id == id.toInt64 && row.live) =
      slots.any fun slot => slot.id == id && slot.live := by
  rw [List.any_map]
  congr 1
  funext slot
  simp [SlotRow.hold]

theorem runs_withdraw_of_live (tables : Tables) (listing : Listing)
    (hrows : tables.rows listing = slots.map SlotRow.hold) (hid : Fits id)
    (hlive : ∃ slot ∈ slots, slot.id = id ∧ slot.live = true) :
    (withdraw listing id).Runs tables (.ok ())
      (some (tables.withRows listing ((tables.rows listing).map (.without id)))) := by
  have hany : slots.any (fun slot => slot.id == id && slot.live) = true := by
    obtain ⟨slot, hmem, hslot, hshown⟩ := hlive
    rw [List.any_eq_true]
    exact ⟨slot, hmem, by simp [hslot, hshown]⟩
  have hact := act_withdraw listing id tables
  rw [hrows, any_live_hold, hany, ← hrows] at hact
  rw [withdraw, bound_bind hid]
  exact (Work.runs_query hact).bind .done

theorem runs_withdraw_of_not_live (tables : Tables) (listing : Listing)
    (hrows : tables.rows listing = slots.map SlotRow.hold) (hid : Fits id)
    (hhidden : ¬ ∃ slot ∈ slots, slot.id = id ∧ slot.live = true) :
    ∃ final, (withdraw listing id).Runs tables
      (.error (.refused .notFound s!"order {id} is not in {listing.name}")) final := by
  have hany : slots.any (fun slot => slot.id == id && slot.live) = false := by
    rw [List.any_eq_false]
    intro slot hmem hshown
    rw [Bool.and_eq_true, beq_iff_eq] at hshown
    exact hhidden ⟨slot, hmem, hshown⟩
  have hact := act_withdraw listing id tables
  rw [hrows, any_live_hold, hany, ← hrows] at hact
  rw [withdraw, bound_bind hid]
  exact ⟨_, (Work.runs_query hact).bind .fail⟩

theorem runs_list_of_new (tables : Tables) (listing : Listing)
    (hrows : tables.rows listing = slots.map SlotRow.hold)
    {owner : UInt64} {order : Order} (howner : Fits owner) (hid : Fits id)
    (horder : OrderFits order) (hnew : ¬ ∃ slot ∈ slots, slot.id = id) :
    (list listing owner id order).Runs tables (.ok ())
      (some (tables.withRows listing
        (tables.rows listing ++ [.hold (.ofOrder owner id order)]))) := by
  have hany : slots.any (fun slot => slot.id == id) = false := by
    rw [List.any_eq_false]
    intro slot hmem hslot
    exact hnew ⟨slot, hmem, beq_iff_eq.1 hslot⟩
  have hact : (Statement.insertSlot listing
      ⟨id.toInt64, owner.toInt64, .hold order, true⟩).act tables =
        .ok ((), tables.withRows listing
          (tables.rows listing ++ [.hold (.ofOrder owner id order)])) := by
    rw [Statement.act]
    simp only
    rw [if_neg]
    · rfl
    · rw [hrows, any_hold, hany]
      exact Bool.false_ne_true
  rw [list, bound_bind howner, bound_bind hid, columns_bind horder]
  exact .send hact .done

theorem runs_list_of_old (tables : Tables) (listing : Listing)
    (hrows : tables.rows listing = slots.map SlotRow.hold)
    {owner : UInt64} {order : Order} (howner : Fits owner) (hid : Fits id)
    (horder : OrderFits order) (hold : ∃ slot ∈ slots, slot.id = id) :
    ∃ final, (list listing owner id order).Runs tables
      (.error (.refused .alreadyExists s!"order {id} is already in {listing.name}")) final := by
  have hany : slots.any (fun slot => slot.id == id) = true := by
    obtain ⟨slot, hmem, hslot⟩ := hold
    rw [List.any_eq_true]
    exact ⟨slot, hmem, beq_iff_eq.2 hslot⟩
  have hact : (Statement.insertSlot listing
      ⟨id.toInt64, owner.toInt64, .hold order, true⟩).act tables =
        .error (.duplicate (listing.name ++ "_order_id_key")) := by
    rw [Statement.act]
    simp only
    rw [if_pos]
    rw [hrows, any_hold, hany]
  rw [list, bound_bind howner, bound_bind hid, columns_bind horder]
  exact ⟨_, .refused hact rfl⟩

end Listings

end Relational

end ParcelDesk
