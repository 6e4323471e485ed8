import ParcelDesk.Proofs.Relational.Listings
import ParcelDesk.Proofs.Store.Alike

namespace ParcelDesk

namespace Relational

/-- A work does to the tables what a request does to the stock, and has the same answer. -/
inductive Follows (stock : Stock) (tables : Tables) (request : Request)
    (work : Work request.Answer) : Prop
  | ok {answer : request.Answer} {after : Stock} {later : Tables} {places : List Slot}
      (hserve : Stock.serve request stock = (.ok answer, after))
      (hruns : work.Runs tables (.ok answer) (some later))
      (hmirrors : Mirrors after later places)
  | fail {error other : Error} {final : Option Tables}
      (hserve : Stock.serve request stock = (Reply.fail error, stock))
      (hruns : work.Runs tables (.error other) final)
      (hvariant : error.variant = other.variant)

variable {stock : Stock} {tables : Tables} {slots : List Slot}

theorem follows_of_read {request : Request} {work : Work request.Answer}
    {result : Except Error request.Answer} (h : Mirrors stock tables slots)
    (hserve : Stock.serve request stock = (Reply.ofExcept result, stock))
    (hruns : work.Runs tables result (some tables)) : Follows stock tables request work := by
  cases result with
  | ok answer => exact .ok hserve hruns h
  | error error => exact .fail hserve hruns rfl

theorem follows_addOrder (h : Mirrors stock tables slots) {owner id : UInt64} {order : Order}
    (howner : Fits owner) (hid : Fits id) (horder : OrderFits order) {time : Instant}
    (hstored : stored time = time) :
    Follows stock tables (.addOrder owner id order time) (addOrder owner id order time) := by
  have hfind := runs_findRecord h.records hid
  cases hrecord : stock.history.get? id with
  | some record =>
      rw [hrecord] at hfind
      exact .fail (Stock.addOrder_of_some hrecord owner order time) (hfind.bind .fail) rfl
  | none =>
      rw [hrecord] at hfind
      have hnew : ¬ ∃ slot ∈ slots, slot.id = id := by
        rintro ⟨slot, hmem, rfl⟩
        have hdeposit := h.deposit_eq hmem
        rw [Stock.deposit_eq_none.2 hrecord] at hdeposit
        cases hdeposit
      have hlist := runs_list_of_new tables .orders h.orders_eq howner hid horder hnew
      refine .ok (h.sound.addOrder_of_none hrecord owner order time)
        (hfind.bind (hlist.bind ?_)) (h.register hrecord howner hid horder time)
      have hlisted : Records stock.history (tables.withRows .orders
          (tables.rows .orders ++ [.hold (.ofOrder owner id order)])).history := h.records
      exact runs_putAccepted hlisted howner hid horder hrecord hstored

theorem follows_setStatus (h : Mirrors stock tables slots) {id : UInt64} (hid : Fits id)
    (status : Status) {time : Instant} (hstored : stored time = time) :
    Follows stock tables (.setStatus id status time) (setStatus id status time) := by
  cases hrecord : stock.history.get? id with
  | some record =>
      exact .ok (Stock.setStatus_of_some hrecord status time)
        (runs_setStatus_of_some h.records hid hrecord status hstored) (h.mark id status time)
  | none =>
      obtain ⟨final, hruns⟩ := runs_setStatus_of_none h.records hid hrecord status time
      exact .fail (Stock.setStatus_of_none hrecord status time) hruns rfl

theorem follows_addRefund (h : Mirrors stock tables slots) {owner id : UInt64} {order : Order}
    (howner : Fits owner) (hid : Fits id) (horder : OrderFits order) {time : Instant}
    (hstored : stored time = time) :
    Follows stock tables (.addRefund owner id order time) (addRefund owner id order time) := by
  have hfind := runs_record h.records hid
  cases hrecord : stock.history.get? id with
  | none =>
      rw [History.find_of_none hrecord] at hfind
      exact .fail (Stock.addRefund_of_none hrecord owner order time) hfind.bind_error rfl
  | some record =>
      rw [History.find_of_some hrecord] at hfind
      by_cases hstatus : record.status = .issuedToClient
      · by_cases hsame : record.owner = owner
        · by_cases hold : Rack.Lists stock.refunds id
          · obtain ⟨final, hlist⟩ :=
              runs_list_of_old tables .refunds h.refunds_eq howner hid horder hold
            have hruns : (addRefund owner id order time).Runs tables
                (.error (.refused .alreadyExists
                  s!"order {id} is already in {Listing.refunds.name}")) final := by
              refine hfind.bind ?_
              rw [if_neg (not_not_intro hstatus), if_neg (not_not_intro hsame)]
              exact hlist.bind_error
            exact .fail (h.sound.addRefund_of_lists hrecord hstatus hsame hold order time) hruns
              rfl
          · have hlist := runs_list_of_new tables .refunds h.refunds_eq howner hid horder hold
            have hlisted : Records stock.history (tables.withRows .refunds
                (tables.rows .refunds ++ [.hold (.ofOrder owner id order)])).history := h.records
            refine .ok (h.sound.addRefund_of_not_lists hrecord hstatus hsame hold order time)
              (hfind.bind ?_) (h.enqueue hrecord hsame hold howner hid horder time)
            rw [if_neg (not_not_intro hstatus), if_neg (not_not_intro hsame)]
            exact hlist.bind (runs_setStatus_of_some hlisted hid hrecord .returned hstored)
        · have hruns : (addRefund owner id order time).Runs tables
              (.error (.refused .wrongInput s!"can't refund order {id}: wrong user id"))
              (some tables) := by
            refine hfind.bind ?_
            rw [if_neg (not_not_intro hstatus), if_pos hsame]
            exact .fail
          exact .fail (Stock.addRefund_of_owner hrecord hstatus hsame order time) hruns rfl
      · have hruns : (addRefund owner id order time).Runs tables
            (.error (.refused .wrongStatus
              s!"can't refund order {id}: status = {record.status.words}")) (some tables) := by
          refine hfind.bind ?_
          rw [if_pos hstatus]
          exact .fail
        exact .fail (Stock.addRefund_of_status hrecord hstatus owner order time) hruns rfl

theorem follows_removeRefund (h : Mirrors stock tables slots) {id : UInt64} (hid : Fits id)
    {time : Instant} (hstored : stored time = time) :
    Follows stock tables (.removeRefund id time) (removeRefund id time) := by
  have hfind := runs_status h.records hid
  cases hrecord : stock.history.get? id with
  | none =>
      rw [History.find_of_none hrecord] at hfind
      exact .fail (Stock.removeRefund_of_none hrecord time) hfind.bind_error rfl
  | some record =>
      rw [History.find_of_some hrecord] at hfind
      by_cases hstatus : record.status = .returned
      · by_cases hshows : Rack.Shows stock.refunds id
        · have hwithdraw := runs_withdraw_of_live tables .refunds h.refunds_eq hid hshows
          have hwithdrawn : Records stock.history (tables.withRows .refunds
              ((tables.rows .refunds).map (.without id))).history := h.records
          refine .ok (h.sound.removeRefund_of_shows hrecord hstatus hshows time)
            (hfind.bind ?_) (h.dequeue id time)
          rw [if_neg (not_not_intro hstatus)]
          exact hwithdraw.bind
            (runs_setStatus_of_some hwithdrawn hid hrecord .issuedToCourier hstored)
        · obtain ⟨final, hwithdraw⟩ :=
            runs_withdraw_of_not_live tables .refunds h.refunds_eq hid hshows
          have hruns : (removeRefund id time).Runs tables
              (.error (.refused .notFound s!"order {id} is not in {Listing.refunds.name}"))
              final := by
            refine hfind.bind ?_
            rw [if_neg (not_not_intro hstatus)]
            exact hwithdraw.bind_error
          exact .fail (h.sound.removeRefund_of_not_shows hrecord hstatus hshows time) hruns rfl
      · have hruns : (removeRefund id time).Runs tables
            (.error (.refused .wrongStatus
              s!"can't return order {id}: status = {record.status.words}")) (some tables) := by
          refine hfind.bind ?_
          rw [if_pos hstatus]
          exact .fail
        exact .fail (Stock.removeRefund_of_status hrecord hstatus time) hruns rfl

/-- Orders that can be handed out, none of them twice, are handed out without a refusal. -/
theorem runs_removeAll (h : Mirrors stock tables slots) {ids : List UInt64}
    (hids : ∀ id ∈ ids, Fits id) (hnodup : ids.Nodup)
    (hall : ∀ id ∈ ids, stock.Removable id) (status : Status) {time : Instant}
    (hstored : stored time = time) :
    ∃ later places, (removeAll status time ids).Runs tables (.ok ()) (some later) ∧
      Mirrors (stock.releaseAll ids status time) later places := by
  induction ids generalizing stock tables slots with
  | nil => exact ⟨tables, slots, .done, h⟩
  | cons id rest ih =>
      obtain ⟨record, hrecord, -, hshows⟩ := hall id List.mem_cons_self
      obtain ⟨slot, hmem, -, hslot, hlive⟩ := h.shows_iff.1 hshows
      rw [List.nodup_cons] at hnodup
      have hid := hids id List.mem_cons_self
      have hwithdraw := runs_withdraw_of_live tables .orders h.orders_eq hid
        ⟨slot, hmem, hslot, hlive⟩
      have hwithdrawn : Records stock.history (tables.withRows .orders
          ((tables.rows .orders).map (.without id))).history := h.records
      have hset := runs_setStatus_of_some hwithdrawn hid hrecord status hstored
      have hrest : ∀ other ∈ rest, (stock.release id status time).Removable other := by
        intro other hother
        have hdiffers : other ≠ id := by
          rintro rfl
          exact hnodup.1 hother
        obtain ⟨found, hfound, hissued, hshown⟩ := hall other (List.mem_cons_of_mem id hother)
        refine ⟨found, ?_, hissued, ?_⟩
        · rw [Stock.get?_release, if_neg hdiffers, hfound]
        · rw [h.sound.shows_release]
          exact ⟨hshown, hdiffers⟩
      obtain ⟨later, places, hruns, hlater⟩ := ih (h.release hrecord status time)
        (fun other hother => hids other (List.mem_cons_of_mem id hother)) hnodup.2 hrest
      exact ⟨later, places, hwithdraw.bind (hset.bind hruns), hlater⟩

theorem follows_removeOrders (h : Mirrors stock tables slots) {ids : List UInt64}
    (hids : ∀ id ∈ ids, Fits id) (status : Status) {time : Instant}
    (hstored : stored time = time) :
    Follows stock tables (.removeOrders ids status time) (removeOrders ids status time) := by
  have hfits : ∀ id ∈ distinct ids, Fits id := fun id hid => hids id (mem_distinct.1 hid)
  have hchecks := runs_checkAll h hfits
  by_cases hall : ∀ id ∈ ids, stock.Removable id
  · have hdistinct : ∀ id ∈ distinct ids, stock.Removable id :=
      fun id hid => hall id (mem_distinct.1 hid)
    have hnone : errorsOf ((distinct ids).map stock.checkRemovable) = [] := by
      rw [errorsOf_eq_nil]
      intro result hresult
      obtain ⟨id, hid, rfl⟩ := List.mem_map.1 hresult
      exact h.sound.removable_iff.1 (hdistinct id hid)
    obtain ⟨later, places, hruns, hlater⟩ :=
      runs_removeAll h hfits (nodup_distinct ids) hdistinct status hstored
    rw [hnone] at hchecks
    exact .ok (h.sound.removeOrders_of_removable hall status time) (hchecks.bind hruns) hlater
  · have hruns : (removeOrders ids status time).Runs tables
        (.error (.fold (errorsOf ((distinct ids).map stock.checkRemovable)))) (some tables) := by
      refine hchecks.bind ?_
      cases herrors : errorsOf ((distinct ids).map stock.checkRemovable) with
      | nil =>
          exfalso
          apply hall
          intro id hid
          rw [errorsOf_eq_nil] at herrors
          exact h.sound.removable_iff.2
            (herrors _ (List.mem_map_of_mem (mem_distinct.2 hid)))
      | cons error rest => exact .fail
    exact .fail (h.sound.removeOrders_of_not_removable hall status time) hruns rfl

end Relational

end ParcelDesk
