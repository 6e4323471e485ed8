import ParcelDesk.Proofs.Calendar.Spans
import ParcelDesk.Proofs.Desk.Crashes
import ParcelDesk.Proofs.Desk.Giving

/-!
# Sending an order back

An order goes to the courier out of the queue at any time, and out of its owner's list once it is
past its grace. The grace is an instant, while giving compares days; both change at the same
instant, which alone belongs to neither.
-/

namespace ParcelDesk

namespace Stock

variable {stock : Stock} {limit now : Instant} {id : UInt64}

/-- The first reason why the desk does not send an order back that may be fetched up to the
limit. -/
def sendBackFault (stock : Stock) (limit now : Instant) (id : UInt64) : Option Error :=
  match stock.history.get? id with
  | none => some (.refused .notFound s!"order {id} not found")
  | some record =>
      match record.status with
      | .returned => none
      | .accepted =>
          if now ≤ limit then
            some (.refused .notExpired
              s!"can't return order {id}: expires on {Desk.dateText record.order.expires}")
          else none
      | status =>
          some (.refused .wrongStatus s!"can't return order {id}: status = {status.words}")

/-- An order that was brought back, or that nobody has fetched up to the limit. -/
def Unwanted (stock : Stock) (limit now : Instant) (id : UInt64) : Prop :=
  ∃ record, stock.history.get? id = some record ∧
    (record.status = .returned ∨ (record.status = .accepted ∧ limit < now))

theorem sendBackFault_eq_none :
    stock.sendBackFault limit now id = none ↔ stock.Unwanted limit now id := by
  unfold sendBackFault Unwanted
  cases stock.history.get? id with
  | none => simp
  | some record =>
      dsimp only
      cases hstatus : record.status with
      | accepted => simp [hstatus, Instant.not_le_iff]
      | issuedToClient | issuedToCourier | returned => simp [hstatus]

/-- An order has gone to the courier out of the queue, and nothing else is different. -/
structure LeftQueue (stock : Stock) (id : UInt64) (now : Instant) (after : Stock) : Prop where
  history_eq : ∀ key, after.history.get? key =
    if key = id then (stock.history.get? key).map (·.moved .issuedToCourier now)
    else stock.history.get? key
  shown : Rack.Shows stock.refunds id
  gone : ¬ Rack.Shows after.refunds id
  slots_eq : after.refunds.slots =
    stock.refunds.slots.map fun slot => if slot.id = id then slot.retire else slot
  index_eq : after.refunds.index = stock.refunds.index
  holdings_eq : after.holdings = stock.holdings

structure LeftHolding (stock : Stock) (owner id : UInt64) (now : Instant) (after : Stock) :
    Prop where
  history_eq : ∀ key, after.history.get? key =
    if key = id then (stock.history.get? key).map (·.moved .issuedToCourier now)
    else stock.history.get? key
  shown : (stock.holding owner).rack.Shows id
  gone : ¬ (after.holding owner).rack.Shows id
  parted : ∃ holding rest, stock.holdings.get? owner = some holding ∧
    after.holdings.get? owner = some rest ∧ holding.Parted [id] rest
  others_eq : ∀ user, user ≠ owner → after.holdings.get? user = stock.holdings.get? user
  refunds_eq : after.refunds = stock.refunds

theorem Settled.leftQueue (h : stock.Settled) {record : Record}
    (hrecord : stock.history.get? id = some record) (hstatus : record.status = .returned)
    (now : Instant) : stock.LeftQueue id now (stock.dequeue id now) where
  history_eq := get?_dequeue id now stock
  shown := (h.returned_iff id record hrecord).1 hstatus
  gone := by
    rw [refunds_dequeue, Rack.shows_retire]
    exact fun hshows => hshows.2 rfl
  slots_eq := rfl
  index_eq := rfl
  holdings_eq := rfl

theorem Settled.leftHolding (h : stock.Settled) {record : Record}
    (hrecord : stock.history.get? id = some record) (hstatus : record.status = .accepted)
    (now : Instant) :
    stock.LeftHolding record.owner id now (stock.releaseAll [id] .issuedToCourier now) := by
  have howner : ∀ key ∈ [id], ∃ order, stock.deposit key = some (record.owner, order) := by
    intro key hkey
    cases List.mem_singleton.1 hkey
    exact ⟨record.order, deposit_of_get? hrecord⟩
  obtain ⟨holding, hholding, -⟩ := h.exists_holding hrecord
  obtain ⟨rest, hget, hparted, hothers⟩ :=
    holdings_releaseAll howner hholding .issuedToCourier now
  constructor
  case history_eq =>
    intro key
    rw [get?_releaseAll]
    exact if_congr List.mem_singleton rfl rfl
  case shown => exact (h.accepted_iff id record hrecord).1 hstatus
  case gone =>
    rw [h.shows_releaseAll]
    exact fun hshows => hshows.2 List.mem_cons_self
  case parted => exact ⟨holding, rest, hholding, hget, hparted⟩
  case others_eq => exact hothers
  case refunds_eq => exact refunds_releaseAll [id] .issuedToCourier now stock

end Stock

namespace Desk

variable {stock : Stock} {limit now : Instant} {id : UInt64}

/-- All that a request to send an order back does, which may be fetched up to the limit. -/
structure SentBack (stock : Stock) (limit now : Instant) (id : UInt64) (reply : Reply Unit)
    (after : Stock) : Prop where
  ok_iff : reply = .ok () ↔ stock.Unwanted limit now id
  returned : ∀ record, stock.history.get? id = some record → record.status = .returned →
    stock.LeftQueue id now after
  unclaimed : ∀ record, stock.history.get? id = some record → record.status = .accepted →
    limit < now → stock.LeftHolding record.owner id now after
  refused : ∀ stop, reply = .error stop → after = stock ∧
    ∃ error, stock.sendBackFault limit now id = some error ∧ stop = .error error

/-- What became of two requests, one to give an order and one to send it back. -/
structure Exclusive (stock : Stock) (limit now : Instant) (id : UInt64)
    (given : Reply (List UInt64)) (sent : Reply Unit) : Prop where
  given_iff : ∀ record, stock.history.get? id = some record → record.status = .accepted →
    ((∃ ids, given = .ok ids) ↔ now < limit)
  not_both : ¬ ((∃ ids, given = .ok ids) ∧ sent = .ok ())
  neither_iff : ∀ record, stock.history.get? id = some record → record.status = .accepted →
    ((¬ (∃ ids, given = .ok ids) ∧ sent ≠ .ok ()) ↔ now = limit)

theorem run_trySendBack_of_fault (h : stock.Settled)
    (hlimit : ∀ record, stock.history.get? id = some record → record.status = .accepted →
      record.order.expires.start.plus returnGrace = some limit)
    {error : Error} (hfault : stock.sendBackFault limit now id = some error) :
    ((trySendBack id).run Stock.serve now stock).reply = Reply.fail error ∧
      ((trySendBack id).run Stock.serve now stock).state = stock := by
  unfold trySendBack
  unfold Stock.sendBackFault at hfault
  cases hrecord : stock.history.get? id with
  | none =>
      rw [hrecord] at hfault
      cases hfault
      rw [Call.run_request_fail (Stock.serve_record_of_none hrecord)]
      exact ⟨rfl, rfl⟩
  | some record =>
      rw [hrecord] at hfault
      rw [Call.run_request_ok (Stock.serve_record.2 hrecord), Call.now_bind, Call.run]
      dsimp only at hfault ⊢
      cases hstatus : record.status with
      | returned =>
          rw [hstatus] at hfault
          cases hfault
      | accepted =>
          rw [hstatus] at hfault
          dsimp only at hfault ⊢
          have hshows := (h.accepted_iff id record hrecord).1 hstatus
          rw [Call.run_request_ok (h.serve_expiration.2
            ⟨record.order, Stock.deposit_of_get? hrecord, hshows, rfl⟩), later_bind,
            hlimit record hrecord hstatus]
          dsimp only
          split at hfault
          next hwaits =>
            cases hfault
            rw [if_pos hwaits]
            exact ⟨rfl, rfl⟩
          next => cases hfault
      | issuedToClient | issuedToCourier =>
          rw [hstatus] at hfault
          cases hfault
          exact ⟨rfl, rfl⟩

theorem sentBack_of_fault {error : Error}
    (hfault : stock.sendBackFault limit now id = some error) :
    SentBack stock limit now id (Reply.fail error) stock := by
  have hwanted : ¬ stock.Unwanted limit now id := by
    rw [← Stock.sendBackFault_eq_none, hfault]
    exact Option.some_ne_none error
  constructor
  case ok_iff => exact ⟨fun hok => (nomatch hok), fun hunwanted => absurd hunwanted hwanted⟩
  case returned =>
    intro record hrecord hstatus
    exact absurd ⟨record, hrecord, .inl hstatus⟩ hwanted
  case unclaimed =>
    intro record hrecord hstatus hlate
    exact absurd ⟨record, hrecord, .inr ⟨hstatus, hlate⟩⟩ hwanted
  case refused =>
    intro stop hstop
    cases hstop
    exact ⟨rfl, error, hfault, rfl⟩

theorem sentBack_of_returned (h : stock.Settled) {record : Record}
    (hrecord : stock.history.get? id = some record) (hreturned : record.status = .returned) :
    SentBack stock limit now id (.ok ()) (stock.dequeue id now) := by
  constructor
  case ok_iff => exact ⟨fun _ => ⟨record, hrecord, .inl hreturned⟩, fun _ => rfl⟩
  case returned =>
    intro found hfound hstatus
    exact h.leftQueue hfound hstatus now
  case unclaimed =>
    intro found hfound hstatus
    cases hrecord.symm.trans hfound
    rw [hreturned] at hstatus
    cases hstatus
  case refused => exact fun stop hstop => nomatch hstop

theorem sentBack_of_unclaimed (h : stock.Settled) {record : Record}
    (hrecord : stock.history.get? id = some record) (haccepted : record.status = .accepted)
    (hlate : limit < now) :
    SentBack stock limit now id (.ok ()) (stock.releaseAll [id] .issuedToCourier now) := by
  constructor
  case ok_iff => exact ⟨fun _ => ⟨record, hrecord, .inr ⟨haccepted, hlate⟩⟩, fun _ => rfl⟩
  case returned =>
    intro found hfound hstatus
    cases hrecord.symm.trans hfound
    rw [haccepted] at hstatus
    cases hstatus
  case unclaimed =>
    intro found hfound hstatus _
    exact h.leftHolding hfound hstatus now
  case refused => exact fun stop hstop => nomatch hstop

theorem sentBack (h : stock.Settled)
    (hlimit : ∀ record, stock.history.get? id = some record →
      record.order.expires.start.plus returnGrace = some limit) (now : Instant) :
    SentBack stock limit now id ((sendBack id).run Stock.serve now stock).reply
      ((sendBack id).run Stock.serve now stock).state := by
  rw [sendBack, reply_announced, state_announced]
  cases hfault : stock.sendBackFault limit now id with
  | some error =>
      obtain ⟨hfail, hsame⟩ := run_trySendBack_of_fault h
        (fun record hrecord _ => hlimit record hrecord) hfault
      rw [hfail, hsame]
      exact sentBack_of_fault hfault
  | none =>
      obtain ⟨record, hrecord, hreturned | ⟨haccepted, hlate⟩⟩ :=
        Stock.sendBackFault_eq_none.1 hfault
      · obtain ⟨hok, hafter⟩ := (trySendBack_yields_of_returned h hrecord hreturned now).run_eq
        rw [hok, hafter]
        exact sentBack_of_returned h hrecord hreturned
      · obtain ⟨hok, hafter⟩ := (trySendBack_yields_of_accepted h hrecord haccepted
          (hlimit record hrecord) (Instant.not_le_iff.2 hlate)).run_eq
        rw [hok, hafter]
        exact sentBack_of_unclaimed h hrecord haccepted hlate

theorem give_one_iff (h : stock.Settled) (id : UInt64) (now : Instant) :
    (∃ ids, ((give [id]).run Stock.serve now stock).reply = .ok ids) ↔
      ∃ record, stock.history.get? id = some record ∧ record.status = .accepted ∧
        ¬ record.order.expires < now.date := by
  have hgave := gave h [id] now
  rw [distinct_singleton] at hgave
  constructor
  · rintro ⟨ids, hok⟩
    obtain ⟨rfl, -⟩ := hgave.given ids hok
    obtain ⟨-, hall⟩ := hgave.ok_iff.1 hok
    obtain ⟨record, hrecord, -, hstatus, hfresh⟩ := hall id List.mem_cons_self
    exact ⟨record, hrecord, hstatus, hfresh⟩
  · rintro ⟨record, hrecord, hstatus, hfresh⟩
    refine ⟨[id], hgave.ok_iff.2 ⟨List.cons_ne_nil _ _, ?_⟩⟩
    intro key hkey
    cases List.mem_singleton.1 hkey
    refine ⟨record, hrecord, ?_, hstatus, hfresh⟩
    rw [Stock.batchOwner_cons, Stock.ownerOf_of_some hrecord, Option.some_or]

theorem exclusive (h : stock.Settled)
    (hlimit : ∀ record, stock.history.get? id = some record →
      record.order.expires.start.plus returnGrace = some limit)
    (htoday : ∀ record, stock.history.get? id = some record →
      (now < limit ↔ ¬ record.order.expires < now.date)) :
    Exclusive stock limit now id ((give [id]).run Stock.serve now stock).reply
      ((sendBack id).run Stock.serve now stock).reply := by
  have hsent := sentBack h hlimit now
  have hgiven : ∀ record, stock.history.get? id = some record → record.status = .accepted →
      ((∃ ids, ((give [id]).run Stock.serve now stock).reply = .ok ids) ↔ now < limit) := by
    intro record hrecord hstatus
    rw [give_one_iff h, htoday record hrecord]
    constructor
    · rintro ⟨found, hfound, -, hfresh⟩
      cases hrecord.symm.trans hfound
      exact hfresh
    · exact fun hfresh => ⟨record, hrecord, hstatus, hfresh⟩
  constructor
  case given_iff => exact hgiven
  case not_both =>
    rintro ⟨hgive, hback⟩
    obtain ⟨record, hrecord, hstatus, -⟩ := (give_one_iff h id now).1 hgive
    have hearly := (hgiven record hrecord hstatus).1 hgive
    obtain ⟨found, hfound, hreturned | ⟨-, hlate⟩⟩ := hsent.ok_iff.1 hback
    · cases hrecord.symm.trans hfound
      rw [hstatus] at hreturned
      cases hreturned
    · exact Instant.lt_asymm hearly hlate
  case neither_iff =>
    intro record hrecord hstatus
    have hback : ((sendBack id).run Stock.serve now stock).reply = .ok () ↔ limit < now := by
      -- an order that waits is not in the queue, so only its grace decides
      rw [hsent.ok_iff]
      constructor
      · rintro ⟨found, hfound, hreturned | ⟨-, hlate⟩⟩
        · cases hrecord.symm.trans hfound
          rw [hstatus] at hreturned
          cases hreturned
        · exact hlate
      · exact fun hlate => ⟨record, hrecord, .inr ⟨hstatus, hlate⟩⟩
    rw [hgiven record hrecord hstatus, Ne, hback, Instant.not_lt_and_not_lt_iff]

/-- Sending an order back is exactly told by where it stands and the instant 24 hours after the
start of its last day, whatever has been done at the desk before, and no order can be given as
well. -/
theorem sendBack_exactly (past : List Move) (id : UInt64) (expires : Date)
    (hlast : expires ≠ Date.last)
    (hexpires : ∀ record, ((Counter.opened .empty).run past).stock.history.get? id = some record →
      record.order.expires = expires) (now : Instant) :
    let stock := ((Counter.opened .empty).run past).stock
    let given := (give [id]).run Stock.serve now stock
    let sent := (sendBack id).run Stock.serve now stock
    SentBack stock (expires.dayLater hlast) now id sent.reply sent.state ∧
      Exclusive stock (expires.dayLater hlast) now id given.reply sent.reply := by
  have hsettled := ((Counter.kept_opened Stock.settled_empty).run past).settled
  have hlimit : ∀ record, ((Counter.opened .empty).run past).stock.history.get? id = some record →
      record.order.expires.start.plus returnGrace = some (expires.dayLater hlast) := by
    intro record hrecord
    rw [hexpires record hrecord, Date.plus_returnGrace hlast]
  refine ⟨sentBack hsettled hlimit now, exclusive hsettled hlimit ?_⟩
  intro record hrecord
  rw [hexpires record hrecord, Date.lt_dayLater]

theorem noonDay_ne_last : noonDay ≠ Date.last := by
  decide

/-- At the instant 24 hours after the start of its only day the box can neither be given nor sent
back. -/
theorem box_at_limit :
    noonDay ≠ Date.last ∧
    (∀ record, (stockWithBox noonDay).history.get? 1 = some record →
      record.order.expires = noonDay) ∧
    let limit := noonDay.dayLater noonDay_ne_last
    let given := (give [1]).run Stock.serve limit (stockWithBox noonDay)
    let sent := (sendBack 1).run Stock.serve limit (stockWithBox noonDay)
    ¬ (∃ ids, given.reply = .ok ids) ∧ sent.reply ≠ .ok () ∧
      SentBack (stockWithBox noonDay) limit limit 1 sent.reply sent.state := by
  have hbox : (stockWithBox noonDay).history.get? 1 =
      some ⟨⟨noonDay, .box, 100, 70, false⟩, .accepted, 7, noon⟩ := by
    decide +kernel
  have hexpires : ∀ record, (stockWithBox noonDay).history.get? 1 = some record →
      record.order.expires = noonDay := by
    intro record hrecord
    cases hbox.symm.trans hrecord
    rfl
  obtain ⟨hsent, hexclusive⟩ := sendBack_exactly (boxHandedIn noonDay) 1 noonDay noonDay_ne_last
    hexpires (noonDay.dayLater noonDay_ne_last)
  obtain ⟨hnot, hstays⟩ := (hexclusive.neither_iff _ hbox rfl).2 rfl
  exact ⟨noonDay_ne_last, hexpires, hnot, hstays, hsent⟩

end Desk

end ParcelDesk
