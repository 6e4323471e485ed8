import ParcelDesk.Proofs.Desk.Crashes
import ParcelDesk.Proofs.Desk.Lifecycle
import ParcelDesk.Proofs.Desk.News

/-!
# Taking an order back

The window for a refund opens at the time that stands in the order's record, which is what the clock
told right before the order was given. So whether an order is taken back can be read off the calls
made so far and their clocks.
-/

namespace ParcelDesk

def Served.gives (id : UInt64) : Served → Bool
  | ⟨.deed (.give _), .ok (.inl (.given ids))⟩ => id ∈ ids
  | _ => false

namespace Journal

def timed (calls : List (Service × (Nat → Instant))) (stock : Stock) :
    List (Served × (Nat → Instant)) :=
  (write calls stock).1.zip (calls.map Prod.snd)

/-- The order was given at the time, and has not been brought back since. A call that gives orders
looks at the clock twice, for the day and for the time. -/
def OutSince (entries : List (Served × (Nat → Instant))) (id : UInt64) (time : Instant) : Prop :=
  ∃ earlier entry later, entries = earlier ++ entry :: later ∧ entry.1.gives id = true ∧
    entry.2 1 = time ∧ ∀ after ∈ later, after.1.broughtBack? ≠ some id

variable {entries : List (Served × (Nat → Instant))} {entry : Served × (Nat → Instant)}
  {id : UInt64} {time : Instant}

theorem outSince_concat :
    OutSince (entries ++ [entry]) id time ↔
      (entry.1.gives id = true ∧ entry.2 1 = time) ∨
        (OutSince entries id time ∧ entry.1.broughtBack? ≠ some id) := by
  constructor
  · rintro ⟨earlier, given, later, heq, hgives, htime, hlater⟩
    cases List.eq_nil_or_concat later with
    | inl hlast =>
        subst hlast
        obtain ⟨-, hsame⟩ := List.append_inj' heq rfl
        cases hsame
        exact .inl ⟨hgives, htime⟩
    | inr hmore =>
        -- the order was given before the last call, which did not bring it back
        obtain ⟨rest, last, rfl⟩ := hmore
        have hsplit : entries ++ [entry] = (earlier ++ given :: rest) ++ [last] := by
          simpa using heq
        obtain ⟨hentries, hsame⟩ := List.append_inj' hsplit rfl
        cases hsame
        refine .inr ⟨⟨earlier, given, rest, hentries, hgives, htime, ?_⟩, ?_⟩
        · exact fun after hmem => hlater after (by simp [hmem])
        · exact hlater entry (by simp)
  · rintro (⟨hgives, htime⟩ | ⟨⟨earlier, given, later, rfl, hgives, htime, hlater⟩, hkept⟩)
    · exact ⟨entries, entry, [], rfl, hgives, htime, List.forall_mem_nil _⟩
    · refine ⟨earlier, given, later ++ [entry], ?_, hgives, htime, ?_⟩
      · rw [List.append_assoc, List.cons_append]
      · intro after hmem
        rw [List.mem_append, List.mem_singleton] at hmem
        cases hmem with
        | inl hmem => exact hlater after hmem
        | inr hlast =>
            subst hlast
            exact hkept

/-- The order was accepted for the user, was given and has not been brought back since, and its
window has not ended. -/
def Returnable (calls : List (Service × (Nat → Instant))) (owner id : UInt64) (now : Instant) :
    Prop :=
  ∃ order time limit,
    (write calls .empty).1.registration? id = some (.ofOrder owner id order) ∧
      OutSince (timed calls .empty) id time ∧
        time.plus Desk.refundWindow = some limit ∧ now ≤ limit

theorem OutSince.exists_entry (h : OutSince entries id time) :
    ∃ entry ∈ entries, entry.2 1 = time := by
  obtain ⟨earlier, entry, later, rfl, -, htime, -⟩ := h
  exact ⟨entry, List.mem_append_right _ List.mem_cons_self, htime⟩

end Journal

namespace Stock

theorem stage?_eq_some {stock : Stock} {id : UInt64} {status : Status} {time : Instant} :
    stock.stage? id = some (status, time) ↔
      ∃ record, stock.history.get? id = some record ∧ record.status = status ∧
        record.changed = time := by
  rw [stage?, Option.map_eq_some_iff]
  simp only [Prod.mk.injEq]

end Stock

namespace Deed

variable {deed : Deed} {receipt : Receipt} {looks : List Instant} {mutation : Mutation Stock}
  {id : UInt64}

theorem Success.gives_iff (h : deed.Success receipt looks mutation) :
    (⟨.deed deed, .ok (.inl receipt)⟩ : Served).gives id = true ↔
      deed.stage = .issuedToClient ∧ id ∈ deed.ids := by
  cases h with
  | give hsome hready => simp [Served.gives, stage, ids, mem_distinct]
  | accept | refund | sendBackReturned | sendBackUnclaimed => simp [Served.gives, stage]

theorem Success.broughtBack_iff (h : deed.Success receipt looks mutation) :
    (⟨.deed deed, .ok (.inl receipt)⟩ : Served).broughtBack? = some id ↔
      deed.stage = .returned ∧ id ∈ deed.ids := by
  cases h with
  | refund => simp [Served.broughtBack?, stage, ids, eq_comm]
  | accept | give | sendBackReturned | sendBackUnclaimed => simp [Served.broughtBack?, stage]

theorem Success.stage_of_out {request : Request} {before after : Stock} {time : Instant}
    (h : deed.Success receipt looks ⟨request, before, after⟩) (hid : id ∈ deed.ids)
    (hout : before.stage? id = some (.issuedToClient, time)) : deed.stage = .returned := by
  obtain ⟨record, hrecord, hstatus, -⟩ := Stock.stage?_eq_some.1 hout
  have hleads := h.leadsTo hid hrecord
  rw [hstatus] at hleads
  exact Status.leadsTo_of_issuedToClient.1 hleads

theorem Success.length_looks (h : deed.Success receipt looks mutation)
    (hstage : deed.stage = .issuedToClient) : looks.length = 2 := by
  cases h with
  | give hsome hready => rfl
  | accept | refund | sendBackReturned | sendBackUnclaimed => cases hstage

theorem Success.getLast?_looksBy {stock : Stock} {clock : Nat → Instant}
    (h : deed.Success receipt (deed.call.looksBy Stock.serve clock stock) mutation)
    (hstage : deed.stage = .issuedToClient) :
    (deed.call.looksBy Stock.serve clock stock).getLast? = some (clock 1) := by
  have hlength := h.length_looks hstage
  obtain ⟨count, hcount⟩ := deed.looksBy_call Stock.serve clock stock
  rw [hcount, List.length_map, List.length_range] at hlength
  rw [hcount, hlength]
  rfl

end Deed

namespace Journal

variable {entries : List (Served × (Nat → Instant))} {stock : Stock}

/-! What the calls and the stock have in common: an order is with its owner since a time just if it
was given then and has not been brought back. -/

structure Dates (entries : List (Served × (Nat → Instant))) (stock : Stock) : Prop where
  settled : stock.Settled
  out_iff : ∀ id time, OutSince entries id time ↔ stock.stage? id = some (.issuedToClient, time)

theorem dates_empty : Dates [] .empty where
  settled := Stock.settled_empty
  out_iff := by
    intro id time
    constructor
    · rintro ⟨earlier, entry, later, heq, -⟩
      cases List.append_eq_nil_iff.1 heq.symm
      contradiction
    · intro hstage
      cases hstage

theorem Dates.idle (h : Dates entries stock) {entry : Served × (Nat → Instant)}
    (hgives : ∀ id, entry.1.gives id = false) (hbrought : entry.1.broughtBack? = none) :
    Dates (entries ++ [entry]) stock where
  settled := h.settled
  out_iff := by
    intro id time
    rw [outSince_concat, hgives, hbrought, ← h.out_iff]
    simp

theorem Dates.deed (h : Dates entries stock) (deed : Deed) (clock : Nat → Instant) :
    Dates (entries ++
        [(⟨.deed deed, (deed.call.runBy Stock.serve clock stock).reply.map Sum.inl⟩, clock)])
      (deed.call.runBy Stock.serve clock stock).state := by
  obtain ⟨hafter, ⟨receipt, request, hreply, hsuccess⟩ | ⟨stop, hreply, hstate⟩⟩ :=
    deed.ends_runBy h.settled clock
  · obtain ⟨moment, hmoment, hstage⟩ := hsuccess.stage?_eq
    rw [hreply]
    refine ⟨hafter, fun id time => ?_⟩
    rw [outSince_concat, hstage, h.out_iff]
    change ((⟨.deed deed, .ok (.inl receipt)⟩ : Served).gives id = true ∧ _) ∨
      (_ ∧ (⟨.deed deed, .ok (.inl receipt)⟩ : Served).broughtBack? ≠ some id) ↔ _
    rw [hsuccess.gives_iff, Ne, hsuccess.broughtBack_iff]
    by_cases hid : id ∈ deed.ids
    · rw [if_pos hid]
      simp only [hid, and_true, Option.some.injEq, Prod.mk.injEq]
      constructor
      · rintro (⟨hgiven, htime⟩ | ⟨hout, hkept⟩)
        · have hlast := hsuccess.getLast?_looksBy hgiven
          rw [hmoment] at hlast
          exact ⟨hgiven, (Option.some.inj hlast).trans htime⟩
        · -- the deed moved an order that was out, so it brought it back
          exact absurd (hsuccess.stage_of_out hid hout) hkept
      · rintro ⟨hgiven, htime⟩
        have hlast := hsuccess.getLast?_looksBy hgiven
        rw [hmoment] at hlast
        exact .inl ⟨hgiven, (Option.some.inj hlast).symm.trans htime⟩
    · simp [hid]
  · rw [hreply, hstate]
    cases deed <;> exact h.idle (fun _ => rfl) rfl

theorem Dates.served (h : Dates entries stock) (service : Service) (clock : Nat → Instant) :
    Dates (entries ++ [(⟨service, (service.call.runBy Stock.serve clock stock).reply⟩, clock)])
      (service.call.runBy Stock.serve clock stock).state := by
  cases service with
  | deed deed =>
      rw [Service.call, Call.runBy_map]
      exact h.deed deed clock
  | orders owner first limit =>
      rw [Service.call, Call.runBy_map, Desk.state_orders]
      exact h.idle (fun _ => rfl) rfl
  | refunds page size =>
      rw [Service.call, Call.runBy_map, Desk.state_refunds]
      exact h.idle (fun _ => rfl) rfl

theorem Dates.write (h : Dates entries stock) (calls : List (Service × (Nat → Instant))) :
    Dates (entries ++ timed calls stock) (Journal.write calls stock).2 := by
  induction calls generalizing entries stock with
  | nil =>
      rw [timed, Journal.write, List.zip_nil_left, List.append_nil]
      exact h
  | cons call rest ih =>
      obtain ⟨service, clock⟩ := call
      have hrest := ih (h.served service clock)
      rw [List.append_assoc] at hrest
      exact hrest

theorem dates_write (calls : List (Service × (Nat → Instant))) :
    Dates (timed calls .empty) (Journal.write calls .empty).2 :=
  dates_empty.write calls

/-- The order of a record is the one that was accepted. -/
theorem registration_of_get? {calls : List (Service × (Nat → Instant))} {id : UInt64}
    {record : Record} (h : (Journal.write calls .empty).2.history.get? id = some record) :
    (Journal.write calls .empty).1.registration? id =
      some (.ofOrder record.owner id record.order) := by
  have htells := (tells_empty.write calls).registration_eq id
  rw [List.nil_append, Stock.deposit_of_get? h] at htells
  exact htells

end Journal

namespace Stock

variable {stock : Stock} {owner id : UInt64} {now : Instant}

def refundFault (stock : Stock) (owner id : UInt64) (now : Instant) : Option Error :=
  match stock.history.get? id with
  | none => some (.refused .notFound s!"order {id} not found")
  | some record =>
      if record.status ≠ .issuedToClient then
        some (.refused .wrongStatus s!"can't refund order {id}: status = {record.status.words}")
      else if record.owner ≠ owner then
        some (.refused .wrongInput s!"can't refund order {id}: wrong user id")
      else if (record.changed.plus Desk.refundWindow).any fun limit => limit < now then
        some (.refused .twoDaysPassed
          s!"can't refund order {id}: issued on {String.ofList record.changed.clientText}")
      else none

/-- If the order is with its owner, its window ends within the calendar. -/
def Windowed (stock : Stock) (id : UInt64) : Prop :=
  ∀ record, stock.history.get? id = some record → record.status = .issuedToClient →
    ∃ limit, record.changed.plus Desk.refundWindow = some limit

def Refundable (stock : Stock) (owner id : UInt64) (now : Instant) : Prop :=
  ∃ record limit, stock.history.get? id = some record ∧ record.status = .issuedToClient ∧
    record.owner = owner ∧ record.changed.plus Desk.refundWindow = some limit ∧ now ≤ limit

theorem Windowed.refundFault_eq_none (h : stock.Windowed id) :
    stock.refundFault owner id now = none ↔ stock.Refundable owner id now := by
  unfold refundFault Refundable
  cases hrecord : stock.history.get? id with
  | none => simp
  | some record =>
      dsimp only
      by_cases hstatus : record.status = .issuedToClient
      · obtain ⟨limit, hlimit⟩ := h record hrecord hstatus
        by_cases howner : record.owner = owner
        · simp [hstatus, howner, hlimit, Instant.not_lt_iff]
        · simp [hstatus, howner]
      · simp [hstatus]

theorem refundFault_ne_alreadyExists {detail : String} :
    stock.refundFault owner id now ≠ some (.refused .alreadyExists detail) := by
  unfold refundFault
  cases stock.history.get? id with
  | none => simp
  | some record =>
      dsimp only
      split <;> [skip; split <;> [skip; split]] <;> simp

/-- An order has been taken back from its owner: its place is the last one of the queue, and nothing
else is different. -/
structure TookBack (stock : Stock) (owner id : UInt64) (order : Order) (now : Instant)
    (after : Stock) : Prop where
  record_told : serve (.record id) after = (.ok ⟨order, .returned, owner, now⟩, after)
  history_eq : ∀ key, key ≠ id → after.history.get? key = stock.history.get? key
  slots_eq : after.refunds.slots = stock.refunds.slots ++ [.ofOrder owner id order]
  showing_eq : Rack.showing after.refunds =
    Rack.showing stock.refunds ++ [.ofOrder owner id order]
  index_eq : ∀ key, key ≠ id → after.refunds.index.get? key = stock.refunds.index.get? key
  holdings_eq : after.holdings = stock.holdings

theorem tookBack {record : Record} (hrecord : stock.history.get? id = some record)
    (now : Instant) :
    stock.TookBack record.owner id record.order now
      (stock.enqueue record.owner id record.order now) where
  record_told := by
    rw [serve_record, get?_enqueue, if_pos rfl, hrecord]
    rfl
  history_eq := by
    intro key hkey
    rw [get?_enqueue, if_neg hkey]
  slots_eq := rfl
  showing_eq := Rack.showing_add _ rfl
  index_eq := by
    intro key hkey
    rw [refunds_enqueue, Rack.add, IdMap.get?_insert, Slot.id_ofOrder, if_neg hkey]
  holdings_eq := rfl

end Stock

namespace Desk

variable {stock : Stock} {owner id : UInt64} {now : Instant}

/-- All that a request to take an order back does after these calls. -/
structure Refunded (calls : List (Service × (Nat → Instant))) (owner id : UInt64) (now : Instant)
    (reply : Reply Unit) (after : Stock) : Prop where
  ok_iff : reply = .ok () ↔ Journal.Returnable calls owner id now
  taken : reply = .ok () → ∃ order,
    (Journal.write calls .empty).1.registration? id = some (.ofOrder owner id order) ∧
      (Journal.write calls .empty).2.TookBack owner id order now after
  refused : ∀ stop, reply = .error stop → after = (Journal.write calls .empty).2 ∧
    ∃ error, (Journal.write calls .empty).2.refundFault owner id now = some error ∧
      stop = .error error
  never_listed : ∀ detail, reply ≠ Reply.refuse .alreadyExists detail

theorem run_tryRefund_of_fault (h : stock.Windowed id) {error : Error}
    (hfault : stock.refundFault owner id now = some error) :
    ((tryRefund owner id).run Stock.serve now stock).reply = Reply.fail error ∧
      ((tryRefund owner id).run Stock.serve now stock).state = stock := by
  unfold tryRefund
  unfold Stock.refundFault at hfault
  cases hrecord : stock.history.get? id with
  | none =>
      rw [hrecord] at hfault
      cases hfault
      rw [Call.run_request_fail (Stock.serve_record_of_none hrecord)]
      exact ⟨rfl, rfl⟩
  | some record =>
      rw [hrecord] at hfault
      rw [Call.run_request_ok (Stock.serve_record.2 hrecord)]
      dsimp only at hfault
      by_cases hstatus : record.status = .issuedToClient
      · rw [if_neg (not_not_intro hstatus)] at hfault
        obtain ⟨limit, hlimit⟩ := h record hrecord hstatus
        rw [hlimit, Option.any_some] at hfault
        rw [Status.leadsTo_returned.2 hstatus, if_neg (by decide)]
        split at hfault
        next hother =>
          cases hfault
          rw [if_pos hother]
          exact ⟨rfl, rfl⟩
        next hsame =>
          rw [if_neg hsame, Call.now_bind, Call.run, later_bind, hlimit]
          dsimp only
          split at hfault
          next hlate =>
            cases hfault
            rw [if_pos (of_decide_eq_true hlate)]
            exact ⟨rfl, rfl⟩
          next => cases hfault
      · rw [if_pos hstatus] at hfault
        cases hfault
        have hstuck : record.status.leadsTo .returned = false :=
          Bool.eq_false_iff.2 fun hleads => hstatus (Status.leadsTo_returned.1 hleads)
        rw [hstuck]
        exact ⟨rfl, rfl⟩

variable {calls : List (Service × (Nat → Instant))}

/-- What stands in the stock about the window says the same as the calls. -/
theorem refundable_iff :
    (Journal.write calls .empty).2.Refundable owner id now ↔
      Journal.Returnable calls owner id now := by
  have hdates := Journal.dates_write calls
  constructor
  · rintro ⟨record, limit, hrecord, hstatus, rfl, hlimit, hintime⟩
    refine ⟨record.order, record.changed, limit, Journal.registration_of_get? hrecord, ?_, hlimit,
      hintime⟩
    rw [hdates.out_iff, Stock.stage?_eq_some]
    exact ⟨record, hrecord, hstatus, rfl⟩
  · rintro ⟨order, time, limit, hregistered, hout, hlimit, hintime⟩
    rw [hdates.out_iff, Stock.stage?_eq_some] at hout
    obtain ⟨record, hrecord, hstatus, rfl⟩ := hout
    rw [Journal.registration_of_get? hrecord] at hregistered
    cases hregistered
    exact ⟨record, limit, hrecord, hstatus, rfl, hlimit, hintime⟩

theorem refundFault_eq_none_of_windowed (hwindowed : (Journal.write calls .empty).2.Windowed id) :
    (Journal.write calls .empty).2.refundFault owner id now = none ↔
      Journal.Returnable calls owner id now :=
  hwindowed.refundFault_eq_none.trans refundable_iff

theorem refunded_of_fault (hwindowed : (Journal.write calls .empty).2.Windowed id) {error : Error}
    (hfault : (Journal.write calls .empty).2.refundFault owner id now = some error) :
    Refunded calls owner id now (Reply.fail error) (Journal.write calls .empty).2 := by
  constructor
  case ok_iff =>
    rw [← refundFault_eq_none_of_windowed hwindowed, hfault]
    exact ⟨fun hok => (nomatch hok), fun hnone => (nomatch hnone)⟩
  case taken => exact fun hok => nomatch hok
  case refused =>
    intro stop hstop
    cases hstop
    exact ⟨rfl, error, hfault, rfl⟩
  case never_listed =>
    intro detail hstop
    cases hstop
    exact Stock.refundFault_ne_alreadyExists hfault

theorem refunded_of_returnable {record : Record}
    (hrecord : (Journal.write calls .empty).2.history.get? id = some record)
    (hreturnable : Journal.Returnable calls record.owner id now) :
    Refunded calls record.owner id now (.ok ())
      ((Journal.write calls .empty).2.enqueue record.owner id record.order now) := by
  constructor
  case ok_iff => exact ⟨fun _ => hreturnable, fun _ => rfl⟩
  case taken =>
    intro _
    exact ⟨record.order, Journal.registration_of_get? hrecord, Stock.tookBack hrecord now⟩
  case refused => exact fun stop hstop => nomatch hstop
  case never_listed => exact fun detail hstop => nomatch hstop

theorem refunded (hwindowed : (Journal.write calls .empty).2.Windowed id) (owner : UInt64)
    (now : Instant) :
    Refunded calls owner id now
      ((refund owner id).run Stock.serve now (Journal.write calls .empty).2).reply
      ((refund owner id).run Stock.serve now (Journal.write calls .empty).2).state := by
  rw [refund, reply_announced, state_announced]
  cases hfault : (Journal.write calls .empty).2.refundFault owner id now with
  | some error =>
      obtain ⟨hfail, hsame⟩ := run_tryRefund_of_fault hwindowed hfault
      rw [hfail, hsame]
      exact refunded_of_fault hwindowed hfault
  | none =>
      have hsettled := (Journal.dates_write calls).settled
      obtain ⟨record, limit, hrecord, hstatus, rfl, hlimit, hintime⟩ :=
        hwindowed.refundFault_eq_none.1 hfault
      obtain ⟨hok, hafter⟩ := (tryRefund_yields hsettled hrecord hstatus hlimit
        (Instant.not_lt_iff.2 hintime)).run_eq
      rw [hok, hafter]
      exact refunded_of_returnable hrecord
        ((refundFault_eq_none_of_windowed hwindowed).1 hfault)

/-- Taking an order back is exactly told by the calls made before and by the window that opened when
the order was given. It is never turned down because the queue has the order already. -/
theorem refund_exactly (calls : List (Service × (Nat → Instant))) (owner id : UInt64)
    (hrange : ∀ time, Journal.OutSince (Journal.timed calls .empty) id time →
      ∃ limit, time.plus refundWindow = some limit) (now : Instant) :
    let ran := (refund owner id).run Stock.serve now (Journal.write calls .empty).2
    Refunded calls owner id now ran.reply ran.state := by
  refine refunded ?_ owner now
  intro record hrecord hstatus
  refine hrange record.changed (((Journal.dates_write calls).out_iff id record.changed).2 ?_)
  exact Stock.stage?_eq_some.2 ⟨record, hrecord, hstatus, rfl⟩

def boxGiven : List (Service × (Nat → Instant)) :=
  [(.deed (.accept (boxUntil noonDay)), fun _ => noon), (.deed (.give [1]), fun _ => noon)]

def noonLater : Instant := ⟨1894449600, 0, by decide, by decide, .inl (by decide)⟩

theorem eq_noon_of_outSince {time : Instant}
    (h : Journal.OutSince (Journal.timed boxGiven .empty) 1 time) : time = noon := by
  obtain ⟨entry, hmem, rfl⟩ := h.exists_entry
  have hclock := (List.of_mem_zip hmem).2
  change entry.2 ∈ [fun _ => noon, fun _ => noon] at hclock
  simp only [List.mem_cons, List.not_mem_nil, or_false, or_self] at hclock
  rw [hclock]

/-- The box can be brought back up to the noon two days later. -/
theorem box_at_window_end :
    (∀ time, Journal.OutSince (Journal.timed boxGiven .empty) 1 time →
      ∃ limit, time.plus refundWindow = some limit) ∧
    let ran := (refund 7 1).run Stock.serve noonLater (Journal.write boxGiven .empty).2
    ran.reply = .ok () ∧ Refunded boxGiven 7 1 noonLater ran.reply ran.state := by
  have hlimit : noon.plus refundWindow = some noonLater := by decide +kernel
  have hrange : ∀ time, Journal.OutSince (Journal.timed boxGiven .empty) 1 time →
      ∃ limit, time.plus refundWindow = some limit := by
    intro time hout
    exact ⟨noonLater, eq_noon_of_outSince hout ▸ hlimit⟩
  have hreturnable : Journal.Returnable boxGiven 7 1 noonLater := by
    refine ⟨⟨noonDay, .box, 100, 70, false⟩, noon, noonLater, by decide +kernel, ?_, hlimit,
      by decide⟩
    exact ⟨[_], _, [], rfl, by decide +kernel, rfl, List.forall_mem_nil _⟩
  have hrefunded := refund_exactly boxGiven 7 1 hrange noonLater
  exact ⟨hrange, hrefunded.ok_iff.2 hreturnable, hrefunded⟩

end Desk

end ParcelDesk
