import ParcelDesk.Proofs.Desk.Journal

namespace ParcelDesk

namespace Journal

/-! What a journal and a stock have in common while every call is written down: the live places
are the orders that stand in the journal, in its order, each as it was accepted. -/

structure Tells (journal : Journal) (stock : Stock) : Prop where
  settled : stock.Settled
  waiting_eq : ∀ owner, journal.waiting owner = (stock.holding owner).rack.showing
  queued_eq : journal.queued = (Rack.showing stock.refunds).map Slot.id
  registration_eq : ∀ id, journal.registration? id =
    (stock.deposit id).map fun deposit => Slot.ofOrder deposit.1 id deposit.2
  count_eq : journal.refundCount = stock.refunds.slots.length

theorem tells_empty : Tells [] .empty where
  settled := Stock.settled_empty
  waiting_eq := fun _ => rfl
  queued_eq := rfl
  registration_eq := fun _ => rfl
  count_eq := rfl

variable {journal : Journal} {stock : Stock}

theorem Tells.idle (h : journal.Tells stock) {served : Served}
    (hregistered : served.registered? = none) (hhands : ∀ id, served.handsOut id = false)
    (hbrought : served.broughtBack? = none) (hsends : ∀ id, served.sendsBack id = false) :
    Tells (journal ++ [served]) stock where
  settled := h.settled
  waiting_eq := by
    intro owner
    rw [waiting_concat, hregistered]
    simpa [hhands] using h.waiting_eq owner
  queued_eq := by
    rw [queued_concat, hbrought]
    simpa [hsends] using h.queued_eq
  registration_eq := by
    intro id
    rw [registration?_concat, hregistered]
    simpa using h.registration_eq id
  count_eq := by
    rw [refundCount_concat, hbrought]
    exact h.count_eq

theorem Tells.register (h : journal.Tells stock) {parcel : Parcel} {order : Order}
    (hnew : stock.history.get? parcel.id = none) (time : Instant) :
    Tells (journal ++ [⟨.deed (.accept parcel), .ok (.inl (.priced order))⟩])
      (stock.register parcel.owner parcel.id order time) where
  settled := h.settled.register hnew parcel.owner order time
  waiting_eq := by
    intro owner
    rw [waiting_concat, h.settled.showing_register, h.waiting_eq]
    by_cases howner : parcel.owner = owner
    · simp [Served.handsOut, Served.registered?, howner]
    · simp [Served.handsOut, Served.registered?, howner]
  queued_eq := by
    rw [queued_concat]
    simpa [Served.sendsBack, Served.broughtBack?] using h.queued_eq
  registration_eq := by
    intro id
    rw [registration?_concat, h.registration_eq, Stock.deposit_register]
    by_cases hid : id = parcel.id
    · subst hid
      rw [Stock.deposit_eq_none.2 hnew, if_pos rfl]
      simp [Served.registered?, Option.filter]
    · rw [if_neg hid]
      simp [Served.registered?, Option.filter, Ne.symm hid]
  count_eq := by
    rw [refundCount_concat]
    exact h.count_eq

theorem Tells.releaseAll (h : journal.Tells stock) {served : Served} {ids : List UInt64}
    {status : Status} {time : Instant}
    (hsettled : (stock.releaseAll ids status time).Settled)
    (hregistered : served.registered? = none)
    (hhands : ∀ id, served.handsOut id = decide (id ∈ ids))
    (hbrought : served.broughtBack? = none)
    (hsends : ∀ id ∈ journal.queued, served.sendsBack id = false) :
    Tells (journal ++ [served]) (stock.releaseAll ids status time) where
  settled := hsettled
  waiting_eq := by
    intro owner
    rw [waiting_concat, hregistered, h.settled.showing_releaseAll, h.waiting_eq]
    simp [hhands]
  queued_eq := by
    rw [queued_concat, hbrought, Stock.refunds_releaseAll, ← h.queued_eq, List.filter_eq_self.2]
    · exact List.append_nil _
    · intro id hid
      rw [hsends id hid]
      rfl
  registration_eq := by
    intro id
    rw [registration?_concat, hregistered, h.registration_eq, Stock.deposit_releaseAll]
    simp
  count_eq := by
    rw [refundCount_concat, hbrought, Stock.refunds_releaseAll]
    exact h.count_eq

theorem Tells.enqueue (h : journal.Tells stock) {id : UInt64} {record : Record}
    (hrecord : stock.history.get? id = some record) (hstatus : record.status = .issuedToClient)
    (hnew : ¬ Rack.Lists stock.refunds id) (time : Instant) :
    Tells (journal ++ [⟨.deed (.refund record.owner id), .ok (.inl .done)⟩])
      (stock.enqueue record.owner id record.order time) where
  settled := h.settled.enqueue hrecord hstatus hnew time
  waiting_eq := by
    intro owner
    rw [waiting_concat, Stock.holding_enqueue]
    simpa [Served.handsOut, Served.registered?] using h.waiting_eq owner
  queued_eq := by
    rw [queued_concat, Stock.refunds_enqueue, Rack.showing_add _ rfl, List.map_append,
      ← h.queued_eq]
    simp [Served.sendsBack, Served.broughtBack?]
  registration_eq := by
    intro key
    rw [registration?_concat, h.registration_eq, Stock.deposit_enqueue]
    simp [Served.registered?]
  count_eq := by
    rw [refundCount_concat, Stock.refunds_enqueue, Rack.slots_add, List.length_append, h.count_eq]
    rfl

theorem Tells.dequeue (h : journal.Tells stock) {id : UInt64} {record : Record}
    (hrecord : stock.history.get? id = some record) (hstatus : record.status = .returned)
    (time : Instant) :
    Tells (journal ++ [⟨.deed (.sendBack id), .ok (.inl .done)⟩]) (stock.dequeue id time) where
  settled := h.settled.dequeue hrecord hstatus time
  waiting_eq := by
    intro owner
    have hhidden : ¬ (stock.holding owner).rack.Shows id := by
      intro hshows
      have howner := h.settled.owner_unique (Stock.deposit_of_get? hrecord) hshows.lists
      subst howner
      rw [← h.settled.accepted_iff id record hrecord, hstatus] at hshows
      cases hshows
    rw [waiting_concat, Stock.holding_dequeue, ← Rack.filter_showing hhidden, h.waiting_eq]
    simp [Served.handsOut, Served.registered?]
  queued_eq := by
    rw [queued_concat, Stock.refunds_dequeue, Rack.showing_retire, h.queued_eq, List.filter_map]
    simp [Served.sendsBack, Served.broughtBack?, Function.comp_def]
  registration_eq := by
    intro key
    rw [registration?_concat, h.registration_eq, Stock.deposit_dequeue]
    simp [Served.registered?]
  count_eq := by
    rw [refundCount_concat, Stock.refunds_dequeue, Rack.slots_retire, List.length_map, h.count_eq]
    rfl

theorem Tells.refund (h : journal.Tells stock) {id : UInt64} {record : Record}
    (hrecord : stock.history.get? id = some record) (hstatus : record.status = .issuedToClient)
    (time : Instant) :
    Tells (journal ++ [⟨.deed (.refund record.owner id), .ok (.inl .done)⟩])
      (stock.enqueue record.owner id record.order time) :=
  h.enqueue hrecord hstatus (h.settled.not_lists_of_issuedToClient hrecord hstatus) time

theorem Tells.unclaimed (h : journal.Tells stock) {id : UInt64} {record : Record}
    (hrecord : stock.history.get? id = some record) (hstatus : record.status = .accepted)
    {time : Instant} (hsettled : (stock.releaseAll [id] .issuedToCourier time).Settled) :
    Tells (journal ++ [⟨.deed (.sendBack id), .ok (.inl .done)⟩])
      (stock.releaseAll [id] .issuedToCourier time) := by
  apply h.releaseAll hsettled rfl
  · intro key
    simp [Served.handsOut]
  · rfl
  · intro key hkey
    rw [h.queued_eq] at hkey
    obtain ⟨slot, hslot, rfl⟩ := List.mem_map.1 hkey
    obtain ⟨hmem, hlive⟩ := Rack.mem_showing.1 hslot
    rw [Served.sendsBack, decide_eq_false_iff_not]
    rintro rfl
    have hreturned := (h.settled.returned_iff slot.id record hrecord).2 ⟨slot, hmem, rfl, hlive⟩
    rw [hstatus] at hreturned
    cases hreturned

theorem Tells.deed (h : journal.Tells stock) (deed : Deed) (clock : Nat → Instant) :
    Tells (journal ++
        [⟨.deed deed, (deed.call.runBy Stock.serve clock stock).reply.map Sum.inl⟩])
      (deed.call.runBy Stock.serve clock stock).state := by
  obtain ⟨hsettled, hcomes⟩ := deed.comes h.settled clock
  generalize deed.call.runBy Stock.serve clock stock = ran at hsettled hcomes
  obtain ⟨reply, final, news⟩ := ran
  cases hcomes with
  | failure stop => cases deed <;> exact h.idle rfl (fun _ => rfl) rfl (fun _ => rfl)
  | success hsuccess =>
      cases hsuccess with
      | accept hfresh horder hnew => exact h.register hnew _
      | give hsome hready =>
          exact h.releaseAll hsettled rfl (fun _ => rfl) rfl (fun _ _ => rfl)
      | refund hrecord hstatus hlimit hintime => exact h.refund hrecord hstatus _
      | sendBackReturned hrecord hstatus => exact h.dequeue hrecord hstatus _
      | sendBackUnclaimed hrecord hstatus hlimit hlate =>
          exact h.unclaimed hrecord hstatus hsettled

end Journal

/-! ## What the listings reply -/

/-- The reply of a listing that shows these places: an empty one is turned down. -/
inductive Told : List Slot → Reply (List Slot) → Prop
  | nothing (detail : String) : Told [] (Reply.refuse .notFound detail)
  | listed {slots : List Slot} (h : slots ≠ []) : Told slots (.ok slots)

namespace Desk

variable {stock : Stock}

theorem runBy_request_ok {request : Request} {answer : request.Answer}
    (h : Stock.serve request stock = (.ok answer, stock))
    (next : request.Answer → Call α) (clock : Nat → Instant) :
    (Call.request request >>= next).runBy Stock.serve clock stock =
      (next answer).runBy Stock.serve clock stock := by
  rw [Call.request_bind, Call.runBy_ask_ok h]

theorem runBy_request_fail {request : Request} {error : Error}
    (h : Stock.serve request stock = (Reply.fail error, stock))
    (next : request.Answer → Call α) (clock : Nat → Instant) :
    (Call.request request >>= next).runBy Stock.serve clock stock =
      ⟨Reply.fail error, stock, []⟩ := by
  rw [Call.request_bind, Call.runBy_ask_fail h]
  rfl

theorem serve_orders {owner first limit : UInt64} {result : Except Error (List Slot)}
    (h : stock.holdings.list owner first limit = result) :
    Stock.serve (.orders owner first limit) stock = (Reply.ofExcept result, stock) := by
  rw [← h]
  rfl

theorem serve_refunds {page size : UInt64} {result : Except Error (List Slot)}
    (h : RefundQueue.list stock.refunds page size = result) :
    Stock.serve (.refunds page size) stock = (Reply.ofExcept result, stock) := by
  rw [← h]
  rfl

theorem told_shown (slots : List Slot) (detail : String) (clock : Nat → Instant) :
    Told slots ((if slots.isEmpty then Call.refuse .notFound detail else pure slots :
      Call (List Slot)).runBy Stock.serve clock stock).reply := by
  cases slots with
  | nil => exact .nothing detail
  | cons slot rest => exact .listed (List.cons_ne_nil slot rest)

theorem told_orders (stock : Stock) (owner : UInt64) (clock : Nat → Instant) :
    Told (stock.holding owner).rack.showing
      ((orders owner 0 0).runBy Stock.serve clock stock).reply := by
  cases howner : stock.holdings.get? owner with
  | none =>
    have hlist : stock.holdings.list owner 0 0 =
        .error (.refused .notFound s!"user {owner} not found") := by
      rw [Holdings.list, Holdings.user, howner]
      rfl
    rw [orders, runBy_request_fail (serve_orders hlist), Stock.holding, howner]
    exact .nothing _
  | some holding =>
    have hlist : stock.holdings.list owner 0 0 = .ok holding.rack.showing := by
      rw [Holdings.list, Holdings.user, howner]
      rfl
    rw [orders, runBy_request_ok (serve_orders hlist), Stock.holding, howner]
    exact told_shown holding.rack.showing _ clock

theorem told_refunds (stock : Stock) {size : UInt64} (hsize : size ≠ 0)
    (hroom : stock.refunds.slots.length ≤ size.toNat) (clock : Nat → Instant) :
    Told (Rack.showing stock.refunds)
      ((refunds 1 size).runBy Stock.serve clock stock).reply := by
  have hlist : RefundQueue.list stock.refunds 1 size = .ok (Rack.showing stock.refunds) := by
    have hall : (Rack.showing stock.refunds).length ≤ size.toNat :=
      Nat.le_trans (List.length_filter_le _ _) hroom
    rw [RefundQueue.list, if_neg hsize, if_neg (by decide)]
    simp only [Rack.scan, UInt64.toNat_one, Nat.sub_self, Nat.zero_mul, List.drop_zero]
    rw [← Rack.showing, List.take_of_length_le hall]
  rw [refunds, runBy_request_ok (serve_refunds hlist)]
  exact told_shown (Rack.showing stock.refunds) _ clock

theorem state_orders (stock : Stock) (owner first limit : UInt64) (clock : Nat → Instant) :
    ((orders owner first limit).runBy Stock.serve clock stock).state = stock := by
  cases hlist : stock.holdings.list owner first limit with
  | error error =>
    rw [orders, runBy_request_fail (serve_orders hlist)]
  | ok slots =>
    rw [orders, runBy_request_ok (serve_orders hlist)]
    cases slots <;> rfl

theorem state_refunds (stock : Stock) (page size : UInt64) (clock : Nat → Instant) :
    ((refunds page size).runBy Stock.serve clock stock).state = stock := by
  cases hlist : RefundQueue.list stock.refunds page size with
  | error error =>
    rw [refunds, runBy_request_fail (serve_refunds hlist)]
  | ok slots =>
    rw [refunds, runBy_request_ok (serve_refunds hlist)]
    cases slots <;> rfl

end Desk

namespace Journal

variable {journal : Journal} {stock : Stock}

theorem Tells.served (h : journal.Tells stock) (service : Service) (clock : Nat → Instant) :
    Tells (journal ++ [⟨service, (service.call.runBy Stock.serve clock stock).reply⟩])
      (service.call.runBy Stock.serve clock stock).state := by
  cases service with
  | deed deed =>
      rw [Service.call, Call.runBy_map]
      exact h.deed deed clock
  | orders owner first limit =>
      rw [Service.call, Call.runBy_map, Desk.state_orders]
      exact h.idle rfl (fun _ => rfl) rfl (fun _ => rfl)
  | refunds page size =>
      rw [Service.call, Call.runBy_map, Desk.state_refunds]
      exact h.idle rfl (fun _ => rfl) rfl (fun _ => rfl)

theorem Tells.write (h : journal.Tells stock) (calls : List (Service × (Nat → Instant))) :
    Tells (journal ++ (Journal.write calls stock).1) (Journal.write calls stock).2 := by
  induction calls generalizing journal stock with
  | nil =>
      rw [Journal.write, List.append_nil]
      exact h
  | cons call rest ih =>
      obtain ⟨service, clock⟩ := call
      have hrest := ih (h.served service clock)
      rw [List.append_assoc] at hrest
      exact hrest

theorem Tells.returned_eq (h : journal.Tells stock) :
    journal.returned = Rack.showing stock.refunds := by
  rw [returned, h.queued_eq, List.filterMap_map]
  have hshown : ∀ slot ∈ Rack.showing stock.refunds,
      (journal.registration? ∘ Slot.id) slot = some slot := by
    intro slot hslot
    obtain ⟨hmem, hlive⟩ := Rack.mem_showing.1 hslot
    rw [Function.comp_apply, h.registration_eq, h.settled.queued_order slot hmem, Option.map_some,
      Slot.ofOrder, ← hlive]
  rw [List.filterMap_congr hshown, List.filterMap_some]

/-! The listings tell the truth about the calls in a journal: a user's listing shows what was
accepted for that user and has neither been given nor sent back since, and the queue what was
brought back and has not been sent back since, each order once and as it was accepted, the first one
first. -/

structure Truthful (journal : Journal) (stock : Stock) : Prop where
  orders_told : ∀ owner clock, Told (journal.waiting owner)
    ((Desk.orders owner 0 0).runBy Stock.serve clock stock).reply
  waiting_once : ∀ owner, ((journal.waiting owner).map Slot.id).Nodup
  refunds_told : ∀ size clock, size ≠ 0 → journal.refundCount ≤ size.toNat →
    Told journal.returned ((Desk.refunds 1 size).runBy Stock.serve clock stock).reply
  returned_ids : journal.returned.map Slot.id = journal.queued
  queued_once : journal.queued.Nodup

theorem Tells.truthful (h : journal.Tells stock) : journal.Truthful stock where
  orders_told := by
    intro owner clock
    rw [h.waiting_eq]
    exact Desk.told_orders stock owner clock
  waiting_once := by
    intro owner
    rw [h.waiting_eq]
    exact (h.settled.holding_sound owner).indexed.nodup_showing
  refunds_told := by
    intro size clock hsize hroom
    rw [h.count_eq] at hroom
    rw [h.returned_eq]
    exact Desk.told_refunds stock hsize hroom clock
  returned_ids := by rw [h.returned_eq, h.queued_eq]
  queued_once := by
    rw [h.queued_eq]
    exact h.settled.queue_indexed.nodup_showing

/-- After any calls from an empty stock, each made when the one before it was over. -/
theorem truthful_write (calls : List (Service × (Nat → Instant))) :
    (write calls .empty).1.Truthful (write calls .empty).2 :=
  (tells_empty.write calls).truthful

end Journal

end ParcelDesk
