import ParcelDesk.Proofs.Relational.Works

namespace ParcelDesk

namespace Relational

variable {stock : Stock} {tables : Tables} {slots : List Slot}

/-! ## Orders that wait -/

theorem find?_live_hold (slots : List Slot) (owner id : UInt64) :
    (slots.map SlotRow.hold).find? (fun row =>
        row.owner == owner.toInt64 && row.id == id.toInt64 && row.live) =
      (slots.find? fun slot => slot.owner == owner && slot.id == id && slot.live).map
        SlotRow.hold := by
  rw [List.find?_map]
  congr 1
  congr 1
  funext slot
  simp [SlotRow.hold]

theorem runs_findLive (h : Mirrors stock tables slots) {owner id : UInt64}
    (howner : Fits owner) (hid : Fits id) :
    (findLive owner id).Runs tables (.ok (stock.holdings.get owner id).toOption)
      (some tables) := by
  have hquery : (Work.query (.findLive owner.toInt64 id.toInt64)).Runs tables
      (.ok ((slots.find? fun slot => slot.owner == owner && slot.id == id && slot.live).map
        fun slot => .hold slot.order)) (some tables) := by
    apply Work.runs_query
    rw [Statement.act, h.orders_eq, find?_live_hold, Option.map_map]
    rfl
  rw [findLive, bound_bind howner, bound_bind hid]
  refine hquery.bind ?_
  cases hfind : slots.find? fun slot => slot.owner == owner && slot.id == id && slot.live with
  | none =>
      have hhidden : ¬ (stock.holding owner).rack.Shows id := by
        rw [h.shows_iff]
        rintro ⟨slot, hmem, hslot⟩
        have hother := List.find?_eq_none.1 hfind slot hmem
        apply hother
        simp [hslot]
      obtain ⟨detail, hget⟩ := h.sound.get_of_not_shows hhidden
      rw [hget]
      exact .done
  | some slot =>
      have hmem := List.mem_of_find?_eq_some hfind
      have hslot := List.find?_some hfind
      rw [Bool.and_eq_true, Bool.and_eq_true, beq_iff_eq, beq_iff_eq] at hslot
      obtain ⟨⟨rfl, rfl⟩, hlive⟩ := hslot
      rw [h.sound.get_of_shows (h.deposit_eq hmem) (h.shows_iff.2 ⟨slot, hmem, rfl, rfl, hlive⟩)]
      change (some <$> Work.ofExcept (Columns.hold slot.order).order).Runs _ _ _
      rw [Columns.order_hold (h.orders_fit slot hmem).order_fits]
      exact .done

theorem any_owner_hold (h : Mirrors stock tables slots) (owner : UInt64) :
    tables.orders.any (fun row => row.owner == owner.toInt64) =
      (stock.holdings.get? owner).isSome := by
  have hslots : tables.orders.any (fun row => row.owner == owner.toInt64) =
      slots.any fun slot => slot.owner == owner := by
    rw [h.orders_eq, List.any_map]
    congr 1
    funext slot
    simp [SlotRow.hold]
  rw [hslots]
  cases hholding : stock.holdings.get? owner with
  | none =>
      rw [Option.isSome_none, List.any_eq_false]
      intro slot hmem howner
      have hrack := h.mem_rack.2 ⟨hmem, beq_iff_eq.1 howner⟩
      rw [Stock.holding, hholding] at hrack
      cases hrack
  | some holding =>
      obtain ⟨slot, hmem⟩ := List.exists_mem_of_ne_nil _ (h.sound.holding_used owner _ hholding)
      rw [← Stock.holding_of_get? hholding] at hmem
      obtain ⟨hslot, howner⟩ := h.mem_rack.1 hmem
      rw [Option.isSome_some, List.any_eq_true]
      exact ⟨slot, hslot, beq_iff_eq.2 howner⟩

theorem runs_checkUser (h : Mirrors stock tables slots) {owner : UInt64}
    (howner : Fits owner) :
    (checkUser owner).Runs tables ((stock.holdings.user owner).map fun _ => ())
      (some tables) := by
  have hquery : (Work.query (.hasUser owner.toInt64)).Runs tables
      (.ok (stock.holdings.get? owner).isSome) (some tables) := by
    apply Work.runs_query
    rw [Statement.act, any_owner_hold h]
  rw [checkUser, bound_bind howner, Holdings.user]
  refine hquery.bind ?_
  cases stock.holdings.get? owner with
  | none => exact .fail
  | some holding => exact .done

theorem runs_order (h : Mirrors stock tables slots) {owner id : UInt64}
    (howner : Fits owner) (hid : Fits id) :
    (order owner id).Runs tables (stock.holdings.get owner id) (some tables) := by
  have huser := runs_checkUser h howner
  rw [order]
  cases hholding : stock.holdings.get? owner with
  | none =>
      rw [Holdings.user, hholding] at huser
      rw [Holdings.get, Holdings.user, hholding]
      exact huser.bind_error
  | some holding =>
      rw [Holdings.user, hholding] at huser
      refine huser.bind ((runs_findLive h howner hid).bind ?_)
      rw [h.sound.get_of_holding hholding]
      cases holding.orders.get? id with
      | none => exact .fail
      | some order => exact .done

theorem runs_checkRemovable (h : Mirrors stock tables slots) {id : UInt64} (hid : Fits id) :
    (checkRemovable id).Runs tables ((stock.checkRemovable id).map fun _ => ())
      (some tables) := by
  have hfind := runs_record h.records hid
  rw [checkRemovable, Stock.checkRemovable]
  cases hrecord : stock.history.get? id with
  | none =>
      rw [History.find_of_none hrecord] at hfind ⊢
      exact hfind.bind_error
  | some record =>
      rw [History.find_of_some hrecord] at hfind ⊢
      refine hfind.bind ?_
      change Work.Runs (if record.status.isIssued = true then _ else _) _
        ((if record.status.isIssued = true then _ else _ : Except Error Record).map _) _
      cases hissued : record.status.isIssued with
      | true =>
          rw [if_pos rfl, if_pos rfl]
          exact .fail
      | false =>
          rw [if_neg Bool.false_ne_true, if_neg Bool.false_ne_true]
          have howner := (h.records.fits id record hrecord).owner_fits
          refine (runs_findLive h howner hid).bind ?_
          obtain ⟨holding, hholding, -⟩ := h.sound.exists_holding hrecord
          rw [h.sound.get_of_holding hholding]
          cases holding.orders.get? id with
          | none => exact .fail
          | some order => exact .done

theorem runs_checkAll (h : Mirrors stock tables slots) {ids : List UInt64}
    (hids : ∀ id ∈ ids, Fits id) :
    (checkAll ids).Runs tables (.ok (errorsOf (ids.map stock.checkRemovable)))
      (some tables) := by
  induction ids with
  | nil => exact .done
  | cons id rest ih =>
      have hcheck := (runs_checkRemovable h (hids id List.mem_cons_self)).attempt
      have hrest := ih fun other hother => hids other (List.mem_cons_of_mem id hother)
      rw [checkAll, List.map_cons]
      refine hcheck.bind (hrest.bind ?_)
      cases stock.checkRemovable id with
      | ok record => exact .done
      | error error => exact .done

end Relational

end ParcelDesk
