import ParcelDesk.Proofs.Relational.Reads

namespace ParcelDesk

theorem filter_drop_findIdx? (p q : α → Bool) (items : List α) :
    (items.findIdx? fun item => p item && q item).map
        (fun place => (items.drop place).filter p) =
      ((items.filter p).findIdx? q).map fun place => (items.filter p).drop place := by
  induction items with
  | nil => rfl
  | cons item rest ih =>
      rw [List.findIdx?_cons]
      cases hp : p item with
      | false =>
          rw [List.filter_cons_of_neg (hp ▸ Bool.false_ne_true), ← ih, Bool.false_and,
            if_neg Bool.false_ne_true, Option.map_map]
          rfl
      | true =>
          rw [List.filter_cons_of_pos hp, List.findIdx?_cons, Bool.true_and]
          cases hq : q item with
          | false =>
              rw [if_neg Bool.false_ne_true, if_neg Bool.false_ne_true, Option.map_map,
                Option.map_map]
              exact ih
          | true =>
              rw [if_pos rfl, if_pos rfl, Option.map_some, Option.map_some, List.drop_zero,
                List.drop_zero, List.filter_cons_of_pos hp]

theorem take_min_of_length_le {items : List α} {bound : Nat} (h : items.length ≤ bound)
    (count : Nat) : items.take (min count bound) = items.take count := by
  rw [← List.take_take, List.take_of_length_le h]

theorem drop_min_of_length_le {items : List α} {bound : Nat} (h : items.length ≤ bound)
    (count : Nat) : items.drop (min count bound) = items.drop count := by
  by_cases hcount : count ≤ bound
  · rw [Nat.min_eq_left hcount]
  · rw [Nat.min_eq_right (Nat.le_of_not_le hcount), List.drop_of_length_le h,
      List.drop_of_length_le (Nat.le_trans h (Nat.le_of_not_le hcount))]

namespace Relational

variable {stock : Stock} {tables : Tables} {slots : List Slot}

theorem mapM_slot_hold {slots : List Slot} (hfits : ∀ slot ∈ slots, SlotFits slot)
    (hlive : ∀ slot ∈ slots, slot.live = true) :
    (slots.map SlotRow.hold).mapM SlotRow.slot = .ok slots := by
  rw [mapM_map_ok fun slot hmem => SlotRow.slot_hold (hfits slot hmem) (hlive slot hmem),
    List.map_id']

/-- A listing counts its rows, from 1 on, in a column, so it has no more rows than a column can
count. -/
def Numbered (tables : Tables) : Prop :=
  ∀ listing, (tables.rows listing).length ≤ greatest

theorem numbered_iff {tables : Tables} :
    Numbered tables ↔ tables.orders.length ≤ greatest ∧ tables.refunds.length ≤ greatest := by
  constructor
  · intro h
    exact ⟨h .orders, h .refunds⟩
  · rintro ⟨horders, hrefunds⟩ listing
    cases listing with
    | orders => exact horders
    | refunds => exact hrefunds

instance (tables : Tables) : Decidable (Numbered tables) :=
  decidable_of_iff _ numbered_iff.symm

theorem scanUser_eq (h : Mirrors stock tables slots) {owner : UInt64} {start place : Nat}
    (hplace : (slots.drop start).filter (fun slot => slot.owner == owner) =
      (stock.holding owner).rack.slots.drop place) :
    (tables.orders.drop start).filter (fun row => row.owner == owner.toInt64 && row.live) =
      (((stock.holding owner).rack.slots.drop place).filter Slot.live).map SlotRow.hold := by
  have hpred : (fun row : SlotRow => row.owner == owner.toInt64 && row.live) ∘ SlotRow.hold =
      fun slot => slot.live && slot.owner == owner := by
    funext slot
    simp [SlotRow.hold, Bool.and_comm]
  rw [h.orders_eq, ← List.map_drop, List.filter_map, hpred, ← hplace, List.filter_filter]

theorem runs_slots {rows : List SlotRow} {shown : List Slot}
    (hrows : rows = shown.map SlotRow.hold) (hfits : ∀ slot ∈ shown, SlotFits slot)
    (hlive : ∀ slot ∈ shown, slot.live = true) (tables : Tables) :
    (Relational.slots rows).Runs tables (.ok shown) (some tables) := by
  rw [Relational.slots, hrows, mapM_slot_hold hfits hlive]
  exact .done

theorem mem_scan {rack : Rack} {start : Nat} {limit : Option Nat} {slot : Slot}
    (h : slot ∈ rack.scan start limit) : slot ∈ rack.slots ∧ slot.live = true := by
  have hmem : slot ∈ (rack.slots.drop start).filter Slot.live := by
    cases limit with
    | none => exact h
    | some limit => exact List.mem_of_mem_take h
  rw [List.mem_filter] at hmem
  exact ⟨List.mem_of_mem_drop hmem.1, hmem.2⟩

/-- The places that a user's listing shows from a row on are those that their rack shows from the
place in that row on. A limit beyond what a column holds cuts off no more than one within. -/
theorem runs_scanUser (h : Mirrors stock tables slots) (hnumbered : Numbered tables)
    {owner : UInt64} {start place : Nat}
    (hplace : (slots.drop start).filter (fun slot => slot.owner == owner) =
      (stock.holding owner).rack.slots.drop place) (limit : Option Nat) :
    (Work.query (.scanUser owner.toInt64 start (limit.map (min · greatest)))).Runs tables
      (.ok (((stock.holding owner).rack.scan place limit).map SlotRow.hold)) (some tables) := by
  have hrows := scanUser_eq h hplace
  have hshort : (((stock.holding owner).rack.slots.drop place).filter Slot.live).length ≤
      greatest := by
    have hlength := congrArg List.length hrows
    rw [List.length_map] at hlength
    rw [← hlength]
    refine Nat.le_trans (List.length_filter_le _ _) ?_
    rw [List.length_drop]
    exact Nat.le_trans (Nat.sub_le _ _) (hnumbered .orders)
  apply Work.runs_query
  cases limit with
  | none =>
      change Except.ok ((tables.orders.drop start).filter _, tables) = _
      rw [hrows]
      rfl
  | some limit =>
      change Except.ok (((tables.orders.drop start).filter _).take (min limit greatest), tables) = _
      rw [hrows, ← List.map_take, take_min_of_length_le hshort]
      rfl

/-- The row of an order of a user leads to its place on their rack. -/
theorem runs_position (h : Mirrors stock tables slots) {owner first : UInt64}
    (howner : Fits owner) (hfirst : Fits first) :
    ((stock.holding owner).rack.position first = none ∧
      (position owner first).Runs tables
        (.error (.refused .notFound s!"order {first} not found for user {owner}"))
          (some tables)) ∨
    ∃ place start, (stock.holding owner).rack.position first = some place ∧
      (position owner first).Runs tables (.ok start) (some tables) ∧
        (slots.drop start).filter (fun slot => slot.owner == owner) =
          (stock.holding owner).rack.slots.drop place := by
  have hplaces := filter_drop_findIdx? (fun slot : Slot => slot.owner == owner)
    (fun slot => slot.id == first) slots
  have hindexed := (h.sound.holding_sound owner).indexed
  rw [← h.racks_eq, ← hindexed.position_eq] at hplaces
  have hquery : (Work.query (.position owner.toInt64 first.toInt64)).Runs tables
      (.ok (slots.findIdx? fun slot => slot.owner == owner && slot.id == first))
      (some tables) := by
    apply Work.runs_query
    rw [Statement.act, h.orders_eq, List.findIdx?_map]
    simp [Function.comp_def, SlotRow.hold]
  rw [position, bound_bind howner, bound_bind hfirst]
  cases hstart : slots.findIdx? fun slot => slot.owner == owner && slot.id == first with
  | none =>
      rw [hstart, Option.map_none] at hplaces
      rw [hstart] at hquery
      exact .inl ⟨Option.map_eq_none_iff.1 hplaces.symm, hquery.bind .fail⟩
  | some start =>
      rw [hstart, Option.map_some] at hplaces
      rw [hstart] at hquery
      obtain ⟨place, hplace, hdrop⟩ := Option.map_eq_some_iff.1 hplaces.symm
      exact .inr ⟨place, start, hplace, hquery.bind .done, hdrop.symm⟩

theorem runs_shown (h : Mirrors stock tables slots) (hnumbered : Numbered tables)
    {owner : UInt64} {start place : Nat}
    (hplace : (slots.drop start).filter (fun slot => slot.owner == owner) =
      (stock.holding owner).rack.slots.drop place) (limit : UInt64) :
    (Work.query (.scanUser owner.toInt64 start
      (if limit = 0 then none else some (min limit.toNat greatest))) >>=
        Relational.slots).Runs tables
      (.ok ((stock.holding owner).rack.scan place
        (if limit = 0 then none else some limit.toNat))) (some tables) := by
  have hlimit : (if limit = 0 then none else some (min limit.toNat greatest)) =
      (if limit = 0 then none else some limit.toNat).map (min · greatest) := by
    split <;> rfl
  rw [hlimit]
  refine (runs_scanUser h hnumbered hplace _).bind (runs_slots rfl ?_ ?_ tables)
  · exact fun slot hslot => h.orders_fit slot (h.mem_rack.1 (mem_scan hslot).1).1
  · exact fun slot hslot => (mem_scan hslot).2

theorem runs_orders (h : Mirrors stock tables slots) (hnumbered : Numbered tables)
    {owner first : UInt64} (howner : Fits owner) (hfirst : Fits first) (limit : UInt64) :
    (orders owner first limit).Runs tables (stock.holdings.list owner first limit)
      (some tables) := by
  have huser := runs_checkUser h howner
  rw [orders, Holdings.list]
  cases hholding : stock.holdings.get? owner with
  | none =>
      rw [Holdings.user, hholding] at huser ⊢
      exact huser.bind_error
  | some holding =>
      have hself := (h.sound.holding_sound owner).owner_eq
      have hposition := runs_position h howner hfirst
      have hstart := h.racks_eq owner
      have hshown := @runs_shown stock tables slots h hnumbered owner
      simp only [Stock.holding_of_get? hholding] at hself hposition hstart hshown
      rw [Holdings.user, hholding] at huser ⊢
      change Work.Runs _ _ (holding.list first limit) _
      rw [Holding.list]
      refine huser.bind ?_
      by_cases hzero : first = 0
      · rw [if_pos hzero, if_pos hzero]
        change (Work.ofExcept (bound owner) >>= _).Runs _ _ _
        rw [bound_bind howner]
        refine @hshown 0 0 ?_ limit
        rw [List.drop_zero, List.drop_zero, hstart]
      · rw [if_neg hzero, if_neg hzero, hself]
        obtain ⟨hnone, hruns⟩ | ⟨place, start, hplace, hruns, hdrop⟩ := hposition
        · rw [hnone]
          exact hruns.bind_error
        · rw [hplace]
          refine hruns.bind ?_
          dsimp only
          rw [bound_bind howner]
          exact hshown hdrop limit

theorem runs_refunds (h : Mirrors stock tables slots) (hnumbered : Numbered tables)
    (page size : UInt64) :
    (refunds page size).Runs tables
      (.ok (Rack.scan stock.refunds ((page.toNat - 1) * size.toNat) (some size.toNat)))
      (some tables) := by
  have hlength : stock.refunds.slots.length ≤ greatest := by
    have hrows := hnumbered .refunds
    rw [Tables.rows, h.refunds_eq, List.length_map] at hrows
    exact hrows
  have hpred : SlotRow.live ∘ SlotRow.hold = Slot.live := rfl
  have hquery : (Work.query (.scanRefunds (min ((page.toNat - 1) * size.toNat) greatest)
      (min size.toNat greatest))).Runs tables
      (.ok ((Rack.scan stock.refunds ((page.toNat - 1) * size.toNat)
        (some size.toNat)).map SlotRow.hold)) (some tables) := by
    apply Work.runs_query
    have hshort : ((stock.refunds.slots.drop ((page.toNat - 1) * size.toNat)).filter
        Slot.live).length ≤ greatest := by
      refine Nat.le_trans (List.length_filter_le _ _) ?_
      rw [List.length_drop]
      exact Nat.le_trans (Nat.sub_le _ _) hlength
    rw [Statement.act, h.refunds_eq, ← List.map_drop, List.filter_map, hpred, ← List.map_take,
      drop_min_of_length_le hlength, take_min_of_length_le hshort]
    rfl
  rw [refunds]
  refine hquery.bind (runs_slots rfl ?_ ?_ tables)
  · exact fun slot hslot => h.refunds_fit slot (mem_scan hslot).1
  · exact fun slot hslot => (mem_scan hslot).2

theorem refunds_cases (page size : UInt64) (queue : RefundQueue) :
    (∃ error, transaction (.refunds page size) = .error error ∧
      queue.list page size = .error error) ∨
    (transaction (.refunds page size) = .ok (.reading, refunds page size) ∧
      queue.list page size =
        .ok (Rack.scan queue ((page.toNat - 1) * size.toNat) (some size.toNat))) := by
  rw [transaction, RefundQueue.list]
  by_cases hsize : size = 0
  · rw [if_pos hsize, if_pos hsize]
    exact .inl ⟨_, rfl, rfl⟩
  · by_cases hpage : page = 0
    · rw [if_neg hsize, if_neg hsize, if_pos hpage, if_pos hpage]
      exact .inl ⟨_, rfl, rfl⟩
    · rw [if_neg hsize, if_neg hsize, if_neg hpage, if_neg hpage]
      exact .inr ⟨rfl, rfl⟩

end Relational

end ParcelDesk
