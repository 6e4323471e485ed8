import ParcelDesk.Proofs.Store.Soundness

namespace ParcelDesk

theorem errorsOf_eq_nil {results : List (Except Error α)} :
    errorsOf results = [] ↔ ∀ result ∈ results, ∃ value, result = .ok value := by
  induction results with
  | nil => simp [errorsOf]
  | cons head rest ih =>
      cases head with
      | ok value => simp [errorsOf, ih]
      | error error => simp [errorsOf]

theorem errorsOf_map_map (f : ι → α → β) (check : ι → Except Error α) (items : List ι) :
    errorsOf (items.map fun item => (check item).map (f item)) =
      errorsOf (items.map check) := by
  induction items with
  | nil => rfl
  | cons head rest ih =>
      rw [List.map_cons, List.map_cons]
      cases hcheck : check head with
      | ok value => exact ih
      | error error => exact congrArg (error :: ·) ih

theorem valuesOf_map_ok (values : List α) :
    valuesOf (values.map Except.ok : List (Except Error α)) = values := by
  induction values with
  | nil => rfl
  | cons head rest ih => exact congrArg (head :: ·) ih

namespace Stock

variable {stock : Stock}

/-! What each request answers while the stock is sound. -/

theorem Sound.exists_holding (h : stock.Sound) {id : UInt64} {record : Record}
    (hrecord : stock.history.get? id = some record) :
    ∃ holding, stock.holdings.get? record.owner = some holding ∧
      ∃ slot ∈ holding.rack.slots, slot.id = id := by
  have hlists := h.recorded id record.owner record.order (deposit_of_get? hrecord)
  cases hholding : stock.holdings.get? record.owner with
  | none =>
      rw [Stock.holding, hholding] at hlists
      exact absurd hlists (Rack.not_lists_empty id)
  | some holding =>
      rw [holding_of_get? hholding] at hlists
      exact ⟨holding, rfl, hlists⟩

theorem Sound.get_of_holding (h : stock.Sound) {owner : UInt64} {holding : Holding}
    (hholding : stock.holdings.get? owner = some holding) (id : UInt64) :
    stock.holdings.get owner id =
      match holding.orders.get? id with
      | some order => .ok order
      | none => .error (.refused .notFound s!"user {owner} doesn't have order {id}") := by
  have howner := (h.holding_sound owner).owner_eq
  rw [holding_of_get? hholding] at howner
  subst howner
  rw [Holdings.get, Holdings.user, hholding]
  rfl

theorem Sound.get_of_shows (h : stock.Sound) {owner id : UInt64} {order : Order}
    (hdeposit : stock.deposit id = some (owner, order))
    (hshows : (stock.holding owner).rack.Shows id) :
    stock.holdings.get owner id = .ok order := by
  obtain ⟨slot, hmem, rfl, hlive⟩ := hshows
  have hslot := h.listed owner slot hmem
  have horder : order = slot.order := by
    rw [hdeposit] at hslot
    cases hslot
    rfl
  have hwaits := ((h.holding_sound owner).waits_iff slot.id order).2
    ⟨slot, hmem, rfl, hlive, horder.symm⟩
  cases hholding : stock.holdings.get? owner with
  | none =>
      rw [Stock.holding, hholding] at hwaits
      cases hwaits
  | some found =>
      rw [holding_of_get? hholding] at hwaits
      rw [Holdings.get, Holdings.user, hholding]
      change found.get slot.id = .ok order
      rw [Holding.get, hwaits]

theorem Sound.get_of_not_shows (h : stock.Sound) {owner id : UInt64}
    (hhidden : ¬ (stock.holding owner).rack.Shows id) :
    ∃ detail, stock.holdings.get owner id = .error (.refused .notFound detail) := by
  rw [Holdings.get, Holdings.user]
  cases hholding : stock.holdings.get? owner with
  | none => exact ⟨_, rfl⟩
  | some found =>
      rw [(h.holding_sound owner).shows_iff, holding_of_get? hholding] at hhidden
      change ∃ detail, found.get id = .error (.refused .notFound detail)
      rw [Holding.get]
      cases horder : found.orders.get? id with
      | none => exact ⟨_, rfl⟩
      | some order => exact absurd ⟨order, horder⟩ hhidden

theorem Sound.get_eq_ok (h : stock.Sound) {owner id : UInt64} {order : Order} :
    stock.holdings.get owner id = .ok order ↔
      stock.deposit id = some (owner, order) ∧ (stock.holding owner).rack.Shows id := by
  constructor
  · intro hget
    by_cases hshows : (stock.holding owner).rack.Shows id
    · obtain ⟨slot, hmem, rfl, hlive⟩ := hshows
      have hdeposit := h.listed owner slot hmem
      have hfound := h.get_of_shows hdeposit ⟨slot, hmem, rfl, hlive⟩
      rw [hget] at hfound
      cases hfound
      exact ⟨hdeposit, slot, hmem, rfl, hlive⟩
    · obtain ⟨detail, hdetail⟩ := h.get_of_not_shows hshows
      rw [hget] at hdetail
      cases hdetail
  · rintro ⟨hdeposit, hshows⟩
    exact h.get_of_shows hdeposit hshows

theorem Sound.checkRemovable_eq_ok (h : stock.Sound) {id : UInt64} {record : Record} :
    stock.checkRemovable id = .ok record ↔
      stock.history.get? id = some record ∧ record.status.isIssued = false ∧
        (stock.holding record.owner).rack.Shows id := by
  unfold checkRemovable
  cases hrecord : stock.history.get? id with
  | none =>
      rw [History.find_of_none hrecord]
      simp [bind, Except.bind]
  | some found =>
      rw [History.find_of_some hrecord]
      change (if found.status.isIssued = true then _ else _) = _ ↔ _
      cases hissued : found.status.isIssued with
      | true =>
          rw [if_pos rfl]
          constructor
          · intro hcheck
            cases hcheck
          · rintro ⟨hfound, hnot, -⟩
            cases hfound
            rw [hissued] at hnot
            cases hnot
      | false =>
          rw [if_neg Bool.false_ne_true]
          by_cases hshows : (stock.holding found.owner).rack.Shows id
          · rw [h.get_of_shows (deposit_of_get? hrecord) hshows]
            change Except.ok found = _ ↔ _
            constructor
            · intro hcheck
              cases hcheck
              exact ⟨rfl, hissued, hshows⟩
            · rintro ⟨hfound, -⟩
              cases hfound
              rfl
          · obtain ⟨detail, hdetail⟩ := h.get_of_not_shows hshows
            rw [hdetail]
            constructor
            · intro hcheck
              cases hcheck
            · rintro ⟨hfound, -, hlive⟩
              cases hfound
              exact absurd hlive hshows

theorem Sound.removable_iff (h : stock.Sound) {id : UInt64} :
    stock.Removable id ↔ ∃ record, stock.checkRemovable id = .ok record := by
  constructor
  · rintro ⟨record, hremovable⟩
    exact ⟨record, h.checkRemovable_eq_ok.2 hremovable⟩
  · rintro ⟨record, hcheck⟩
    exact ⟨record, h.checkRemovable_eq_ok.1 hcheck⟩

theorem addOrder_of_some {id : UInt64} {record : Record}
    (hrecord : stock.history.get? id = some record) (owner : UInt64) (order : Order)
    (time : Instant) :
    stock.addOrder owner id order time =
      (Reply.refuse .alreadyExists s!"order {id} has already been {record.status.words}",
        stock) := by
  rw [addOrder, hrecord]

theorem Sound.addOrder_of_none (h : stock.Sound) {id : UInt64}
    (hnew : stock.history.get? id = none) (owner : UInt64) (order : Order) (time : Instant) :
    stock.addOrder owner id order time = (.ok (), stock.register owner id order time) := by
  have hadd := (h.holding_sound owner).add_eq order (h.not_lists hnew owner)
  unfold Stock.holding at hadd
  rw [addOrder, hnew]
  simp only [Holdings.add, hadd, History.put_of_none hnew]
  rfl

theorem setStatus_of_some {id : UInt64} {record : Record}
    (hrecord : stock.history.get? id = some record) (status : Status) (time : Instant) :
    stock.setStatus id status time = (.ok (), stock.mark id status time) := by
  rw [setStatus, History.setStatus_of_some hrecord]
  rfl

theorem setStatus_of_none {id : UInt64} (hnew : stock.history.get? id = none)
    (status : Status) (time : Instant) :
    stock.setStatus id status time =
      (Reply.refuse .notFound s!"order {id} not found", stock) := by
  rw [setStatus, History.setStatus_of_none hnew]
  rfl

theorem Sound.remove_of_shows (h : stock.Sound) {owner id : UInt64} {order : Order}
    (hdeposit : stock.deposit id = some (owner, order))
    (hshows : (stock.holding owner).rack.Shows id) :
    stock.holdings.remove owner id =
      .ok (stock.holdings.insert owner ((stock.holding owner).release id)) := by
  have hget := h.get_of_shows hdeposit hshows
  rw [Holdings.get, Holdings.user] at hget
  rw [Holdings.remove, Holdings.user]
  cases hholding : stock.holdings.get? owner with
  | none =>
      rw [hholding] at hget
      cases hget
  | some found =>
      have hsound := h.holding_sound owner
      rw [holding_of_get? hholding] at hsound ⊢
      rw [hholding] at hget
      change (found.remove id >>= _) = _
      rw [hsound.remove_eq hget]
      rfl

private def Await (stock : Stock) (pairs : List (UInt64 × UInt64)) : Prop :=
  ∀ pair ∈ pairs, ∃ order, stock.deposit pair.1 = some (pair.2, order) ∧
    (stock.holding pair.2).rack.Shows pair.1

private theorem Await.release (h : stock.Sound) {id : UInt64}
    {pairs : List (UInt64 × UInt64)} (hwait : stock.Await pairs)
    (hid : id ∉ pairs.map Prod.fst) (status : Status) (time : Instant) :
    (stock.release id status time).Await pairs := by
  intro pair hpair
  obtain ⟨order, hdeposit, hshows⟩ := hwait pair hpair
  refine ⟨order, ?_, ?_⟩
  · rw [deposit_release, hdeposit]
  · rw [h.shows_release]
    refine ⟨hshows, ?_⟩
    rintro rfl
    exact hid (List.mem_map_of_mem hpair)

/-- Handing out orders that wait, none of them twice, never fails midway. -/
private theorem Sound.removeAll_eq (h : stock.Sound) (status : Status) (time : Instant)
    {pairs : List (UInt64 × UInt64)} (hnodup : (pairs.map Prod.fst).Nodup)
    (hwait : stock.Await pairs) :
    removeAll status time pairs stock =
      (.ok (), stock.releaseAll (pairs.map Prod.fst) status time) := by
  induction pairs generalizing stock with
  | nil => rfl
  | cons pair rest ih =>
      obtain ⟨id, owner⟩ := pair
      obtain ⟨order, hdeposit, hshows⟩ := hwait (id, owner) List.mem_cons_self
      obtain ⟨record, hrecord, rfl, rfl⟩ := deposit_eq_some.1 hdeposit
      rw [List.map_cons, List.nodup_cons] at hnodup
      have hrest : stock.Await rest :=
        fun other hother => hwait other (List.mem_cons_of_mem _ hother)
      have hstep : removeAll status time ((id, record.owner) :: rest) stock =
          removeAll status time rest (stock.release id status time) := by
        rw [removeAll, h.remove_of_shows hdeposit hshows]
        simp only [History.setStatus_of_some hrecord]
        rw [Stock.release, hrecord]
      rw [hstep, ih (h.release id status time) hnodup.2
        (hrest.release h hnodup.1 status time)]
      rfl

private theorem Sound.checks_eq (h : stock.Sound) {ids : List UInt64}
    (hall : ∀ id ∈ ids, stock.Removable id) :
    ∃ pairs : List (UInt64 × UInt64), pairs.map Prod.fst = ids ∧ stock.Await pairs ∧
      ids.map (fun id =>
        (stock.checkRemovable id).map fun record => (id, record.owner)) =
          pairs.map .ok := by
  induction ids with
  | nil =>
      refine ⟨[], rfl, ?_, rfl⟩
      intro pair hpair
      cases hpair
  | cons id rest ih =>
      obtain ⟨pairs, hfirst, hwait, hchecks⟩ :=
        ih fun other hother => hall other (List.mem_cons_of_mem _ hother)
      obtain ⟨record, hremovable⟩ := hall id List.mem_cons_self
      refine ⟨(id, record.owner) :: pairs, ?_, ?_, ?_⟩
      · rw [List.map_cons, hfirst]
      · intro pair hpair
        cases hpair with
        | head => exact ⟨record.order, deposit_of_get? hremovable.1, hremovable.2.2⟩
        | tail _ hpair => exact hwait pair hpair
      · rw [List.map_cons, List.map_cons, h.checkRemovable_eq_ok.2 hremovable, hchecks]
        rfl

theorem Sound.removeOrders_of_removable (h : stock.Sound) {ids : List UInt64}
    (hall : ∀ id ∈ ids, stock.Removable id) (status : Status) (time : Instant) :
    stock.removeOrders ids status time =
      (.ok (), stock.releaseAll (distinct ids) status time) := by
  obtain ⟨pairs, hfirst, hwait, hchecks⟩ :=
    h.checks_eq fun id hid => hall id (mem_distinct.1 hid)
  have hnone : errorsOf (pairs.map Except.ok : List (Except Error _)) = [] := by
    rw [errorsOf_eq_nil]
    intro result hresult
    obtain ⟨pair, -, rfl⟩ := List.mem_map.1 hresult
    exact ⟨pair, rfl⟩
  have hremove := h.removeAll_eq status time (hfirst ▸ nodup_distinct ids) hwait
  rw [removeOrders, hchecks, hnone, valuesOf_map_ok, ← hfirst]
  exact hremove

theorem Sound.removeOrders_of_not_removable (h : stock.Sound) {ids : List UInt64}
    (hsome : ¬ ∀ id ∈ ids, stock.Removable id) (status : Status) (time : Instant) :
    stock.removeOrders ids status time =
      (Reply.fail (.fold (errorsOf ((distinct ids).map stock.checkRemovable))), stock) := by
  rw [removeOrders, errorsOf_map_map]
  cases herrors : errorsOf ((distinct ids).map stock.checkRemovable) with
  | nil =>
      exfalso
      apply hsome
      intro id hid
      rw [h.removable_iff]
      rw [errorsOf_eq_nil] at herrors
      exact herrors _ (List.mem_map_of_mem (mem_distinct.2 hid))
  | cons error rest => rfl

theorem addRefund_of_none {id : UInt64} (hnew : stock.history.get? id = none)
    (owner : UInt64) (order : Order) (time : Instant) :
    stock.addRefund owner id order time =
      (Reply.refuse .notFound s!"order {id} not found", stock) := by
  rw [addRefund, History.find_of_none hnew]
  rfl

theorem addRefund_of_status {id : UInt64} {record : Record}
    (hrecord : stock.history.get? id = some record) (hstatus : record.status ≠ .issuedToClient)
    (owner : UInt64) (order : Order) (time : Instant) :
    stock.addRefund owner id order time =
      (Reply.refuse .wrongStatus
        s!"can't refund order {id}: status = {record.status.words}", stock) := by
  rw [addRefund, History.find_of_some hrecord]
  simp only
  rw [if_pos hstatus]

theorem addRefund_of_owner {id owner : UInt64} {record : Record}
    (hrecord : stock.history.get? id = some record) (hstatus : record.status = .issuedToClient)
    (howner : record.owner ≠ owner) (order : Order) (time : Instant) :
    stock.addRefund owner id order time =
      (Reply.refuse .wrongInput s!"can't refund order {id}: wrong user id", stock) := by
  rw [addRefund, History.find_of_some hrecord]
  simp only
  rw [if_neg (not_not_intro hstatus), if_pos howner]

theorem Sound.addRefund_of_lists (h : stock.Sound) {id owner : UInt64} {record : Record}
    (hrecord : stock.history.get? id = some record) (hstatus : record.status = .issuedToClient)
    (howner : record.owner = owner) (hold : Rack.Lists stock.refunds id) (order : Order)
    (time : Instant) :
    stock.addRefund owner id order time =
      (Reply.refuse .alreadyExists s!"order {id} is already listed", stock) := by
  rw [addRefund, History.find_of_some hrecord]
  simp only
  rw [if_neg (not_not_intro hstatus), if_neg (not_not_intro howner),
    RefundQueue.add_of_lists h.queue_indexed hold]
  rfl

theorem Sound.addRefund_of_not_lists (h : stock.Sound) {id owner : UInt64} {record : Record}
    (hrecord : stock.history.get? id = some record) (hstatus : record.status = .issuedToClient)
    (howner : record.owner = owner) (hnew : ¬ Rack.Lists stock.refunds id) (order : Order)
    (time : Instant) :
    stock.addRefund owner id order time = (.ok (), stock.enqueue owner id order time) := by
  rw [addRefund, History.find_of_some hrecord]
  simp only
  rw [if_neg (not_not_intro hstatus), if_neg (not_not_intro howner),
    RefundQueue.add_of_not_lists h.queue_indexed hnew]
  simp only [setStatus, History.setStatus_of_some hrecord]
  rfl

theorem removeRefund_of_none {id : UInt64} (hnew : stock.history.get? id = none)
    (time : Instant) :
    stock.removeRefund id time =
      (Reply.refuse .notFound s!"order {id} not found", stock) := by
  rw [removeRefund, History.find_of_none hnew]
  rfl

theorem removeRefund_of_status {id : UInt64} {record : Record}
    (hrecord : stock.history.get? id = some record) (hstatus : record.status ≠ .returned)
    (time : Instant) :
    stock.removeRefund id time =
      (Reply.refuse .wrongStatus
        s!"can't return order {id}: status = {record.status.words}", stock) := by
  rw [removeRefund, History.find_of_some hrecord]
  simp only
  rw [if_pos hstatus]

theorem Sound.removeRefund_of_not_shows (h : stock.Sound) {id : UInt64} {record : Record}
    (hrecord : stock.history.get? id = some record) (hstatus : record.status = .returned)
    (hgone : ¬ Rack.Shows stock.refunds id) (time : Instant) :
    stock.removeRefund id time =
      (Reply.refuse .notFound s!"order {id} is not in refunds", stock) := by
  rw [removeRefund, History.find_of_some hrecord]
  simp only
  rw [if_neg (not_not_intro hstatus),
    RefundQueue.remove_of_not_shows h.queue_indexed hgone]
  rfl

theorem Sound.removeRefund_of_shows (h : stock.Sound) {id : UInt64} {record : Record}
    (hrecord : stock.history.get? id = some record) (hstatus : record.status = .returned)
    (hshows : Rack.Shows stock.refunds id) (time : Instant) :
    stock.removeRefund id time = (.ok (), stock.dequeue id time) := by
  rw [removeRefund, History.find_of_some hrecord]
  simp only
  rw [if_neg (not_not_intro hstatus), RefundQueue.remove_of_shows h.queue_indexed hshows]
  simp only [setStatus, History.setStatus_of_some hrecord]
  rfl

/-- The changes that requests make, each with what must hold for it. -/
inductive Change (stock : Stock) : Request → Stock → Prop
  | register (owner id : UInt64) (order : Order) (time : Instant)
      (hnew : stock.history.get? id = none) :
      Change stock (.addOrder owner id order time) (stock.register owner id order time)
  | releaseAll (ids : List UInt64) (status : Status) (time : Instant)
      (hall : ∀ id ∈ ids, stock.Removable id) :
      Change stock (.removeOrders ids status time)
        (stock.releaseAll (distinct ids) status time)
  | mark (id : UInt64) (status : Status) (time : Instant) (record : Record)
      (hrecord : stock.history.get? id = some record) :
      Change stock (.setStatus id status time) (stock.mark id status time)
  | enqueue (id : UInt64) (order : Order) (time : Instant) (record : Record)
      (hrecord : stock.history.get? id = some record)
      (hstatus : record.status = .issuedToClient)
      (hnew : ¬ Rack.Lists stock.refunds id) :
      Change stock (.addRefund record.owner id order time)
        (stock.enqueue record.owner id order time)
  | dequeue (id : UInt64) (time : Instant) (record : Record)
      (hrecord : stock.history.get? id = some record)
      (hstatus : record.status = .returned)
      (hshows : Rack.Shows stock.refunds id) :
      Change stock (.removeRefund id time) (stock.dequeue id time)

theorem Sound.change (h : stock.Sound) {request : Request} {after : Stock}
    (hchange : stock.Change request after) : after.Sound := by
  cases hchange with
  | register owner id order time hnew => exact h.register hnew owner order time
  | releaseAll ids status time hall => exact h.releaseAll (distinct ids) status time
  | mark id status time record hrecord => exact h.mark id status time
  | enqueue id order time record hrecord hstatus hnew =>
      exact h.enqueue hrecord rfl hnew order time
  | dequeue id time record hrecord hstatus hshows => exact h.dequeue id time

theorem serve_record {id : UInt64} {record : Record} :
    serve (.record id) stock = (.ok record, stock) ↔ stock.history.get? id = some record := by
  rw [serve, History.find]
  cases stock.history.get? id with
  | none => simp [Reply.ofExcept, Reply.fail]
  | some found => simp [Reply.ofExcept]

theorem serve_record_of_none {id : UInt64} (h : stock.history.get? id = none) :
    serve (.record id) stock = (Reply.refuse .notFound s!"order {id} not found", stock) := by
  rw [serve, History.find_of_none h]
  rfl

theorem Sound.serve_expiration (h : stock.Sound) {owner id : UInt64} {date : Date} :
    serve (.expiration owner id) stock = (.ok date, stock) ↔
      ∃ order, stock.deposit id = some (owner, order) ∧
        (stock.holding owner).rack.Shows id ∧ order.expires = date := by
  rw [serve]
  constructor
  · intro hserve
    cases hget : stock.holdings.get owner id with
    | error error =>
        rw [hget] at hserve
        cases hserve
    | ok order =>
        rw [hget] at hserve
        cases hserve
        exact ⟨order, (h.get_eq_ok.1 hget).1, (h.get_eq_ok.1 hget).2, rfl⟩
  · rintro ⟨order, hdeposit, hshows, rfl⟩
    rw [h.get_of_shows hdeposit hshows]
    rfl

theorem Sound.serve_checkRemovable (h : stock.Sound) {id : UInt64} :
    serve (.checkRemovable id) stock = (.ok (), stock) ↔ stock.Removable id := by
  rw [h.removable_iff, serve]
  cases stock.checkRemovable id with
  | error error => simp [Except.map, Reply.ofExcept, Reply.fail]
  | ok record => simp [Except.map, Reply.ofExcept]

theorem serve_of_read {request : Request} (hread : request.changes = false) (stock : Stock) :
    ∃ result, serve request stock = (Reply.ofExcept result, stock) := by
  cases request with
  | record | order | expiration | checkRemovable | orders | refunds => exact ⟨_, rfl⟩
  | addOrder | removeOrders | setStatus | addRefund | removeRefund => cases hread

private theorem read_cases {request : Request} (hread : request.changes = false) :
    (∃ answer after, request.changes = true ∧ stock.Change request after ∧
      serve request stock = (.ok answer, after)) ∨
    (∃ answer, request.changes = false ∧ serve request stock = (.ok answer, stock)) ∨
    ∃ error, serve request stock = (Reply.fail error, stock) := by
  obtain ⟨result, hserve⟩ := serve_of_read hread stock
  cases result with
  | ok answer => exact .inr (.inl ⟨answer, hread, hserve⟩)
  | error error => exact .inr (.inr ⟨error, hserve⟩)

/-- All that a request can do: one change, an answer without a change, or a refusal that leaves
everything as it was. -/
theorem Sound.serve_cases (h : stock.Sound) (request : Request) :
    (∃ answer after, request.changes = true ∧ stock.Change request after ∧
      serve request stock = (.ok answer, after)) ∨
    (∃ answer, request.changes = false ∧ serve request stock = (.ok answer, stock)) ∨
    ∃ error, serve request stock = (Reply.fail error, stock) := by
  cases request with
  | addOrder owner id order time =>
      cases hrecord : stock.history.get? id with
      | none =>
          exact .inl ⟨(), _, rfl, .register owner id order time hrecord,
            h.addOrder_of_none hrecord owner order time⟩
      | some record => exact .inr (.inr ⟨_, addOrder_of_some hrecord owner order time⟩)
  | removeOrders ids status time =>
      by_cases hall : ∀ id ∈ ids, stock.Removable id
      · exact .inl ⟨(), _, rfl, .releaseAll ids status time hall,
          h.removeOrders_of_removable hall status time⟩
      · exact .inr (.inr ⟨_, h.removeOrders_of_not_removable hall status time⟩)
  | setStatus id status time =>
      cases hrecord : stock.history.get? id with
      | none => exact .inr (.inr ⟨_, setStatus_of_none hrecord status time⟩)
      | some record =>
          exact .inl ⟨(), _, rfl, .mark id status time record hrecord,
            setStatus_of_some hrecord status time⟩
  | addRefund owner id order time =>
      cases hrecord : stock.history.get? id with
      | none => exact .inr (.inr ⟨_, addRefund_of_none hrecord owner order time⟩)
      | some record =>
          by_cases hstatus : record.status = .issuedToClient
          · by_cases howner : record.owner = owner
            · by_cases hlists : Rack.Lists stock.refunds id
              · exact .inr (.inr
                  ⟨_, h.addRefund_of_lists hrecord hstatus howner hlists order time⟩)
              · subst howner
                exact .inl ⟨(), _, rfl, .enqueue id order time record hrecord hstatus hlists,
                  h.addRefund_of_not_lists hrecord hstatus rfl hlists order time⟩
            · exact .inr (.inr
                ⟨_, addRefund_of_owner hrecord hstatus howner order time⟩)
          · exact .inr (.inr ⟨_, addRefund_of_status hrecord hstatus owner order time⟩)
  | removeRefund id time =>
      cases hrecord : stock.history.get? id with
      | none => exact .inr (.inr ⟨_, removeRefund_of_none hrecord time⟩)
      | some record =>
          by_cases hstatus : record.status = .returned
          · by_cases hshows : Rack.Shows stock.refunds id
            · exact .inl ⟨(), _, rfl, .dequeue id time record hrecord hstatus hshows,
                h.removeRefund_of_shows hrecord hstatus hshows time⟩
            · exact .inr (.inr
                ⟨_, h.removeRefund_of_not_shows hrecord hstatus hshows time⟩)
          · exact .inr (.inr ⟨_, removeRefund_of_status hrecord hstatus time⟩)
  | record | order | expiration | checkRemovable | orders | refunds => exact read_cases rfl

end Stock

end ParcelDesk
