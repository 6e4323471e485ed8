import ParcelDesk.Proofs.Call.Punctual
import ParcelDesk.Proofs.Desk.Counter
import ParcelDesk.Proofs.Desk.Faults
import ParcelDesk.Proofs.Desk.Replay
import ParcelDesk.Sheet.Instructions

namespace ParcelDesk

namespace Stock

def Dated (stock : Stock) : Prop :=
  ∀ id record, stock.history.get? id = some record → record.changed.Unsigned

theorem dated_empty : Stock.empty.Dated :=
  fun _ _ hrecord => nomatch hrecord

variable {stock : Stock}

private theorem Dated.of_marked (h : stock.Dated) {after : Stock} {status : Status}
    {time : Instant} (htime : time.Unsigned) {touched : UInt64 → Prop} [DecidablePred touched]
    (hafter : ∀ key, after.history.get? key =
      if touched key then (stock.history.get? key).map (·.moved status time)
      else stock.history.get? key) : after.Dated := by
  intro key later hlater
  rw [hafter key] at hlater
  split at hlater
  · obtain ⟨record, -, rfl⟩ := Option.map_eq_some_iff.1 hlater
    exact htime
  · exact h key later hlater

theorem Dated.change (h : stock.Dated) {request : Request} {after : Stock}
    (hdated : request.Dated) (hchange : stock.Change request after) : after.Dated := by
  cases hchange with
  | register owner id order time hnew =>
      intro key record hrecord
      rw [get?_register] at hrecord
      split at hrecord
      · cases hrecord
        exact hdated time rfl
      · exact h key record hrecord
  | releaseAll ids status time hall =>
      exact h.of_marked (hdated time rfl) (get?_releaseAll (distinct ids) status time stock)
  | mark id status time record hrecord =>
      exact h.of_marked (hdated time rfl) (get?_mark id status time stock)
  | enqueue id order time record hrecord hstatus hnew =>
      exact h.of_marked (hdated time rfl) (get?_enqueue record.owner id order time stock)
  | dequeue id time record hrecord hstatus hshows =>
      exact h.of_marked (hdated time rfl) (get?_dequeue id time stock)

theorem plain_of_change {request : Request} (h : request.changes = true)
    (answer : request.Answer) : request.Plain answer := by
  cases request with
  | record | order | expiration | checkRemovable | orders | refunds => cases h
  | addOrder | removeOrders | setStatus | addRefund | removeRefund => exact True.intro

theorem Dated.plain (h : stock.Dated) {request : Request} {answer : request.Answer}
    (hserve : serve request stock = (.ok answer, stock)) : request.Plain answer := by
  cases request with
  | record id => exact h id answer (serve_record.1 hserve)
  | _ => exact True.intro

/-- A dated request never crashes, and its answer and what it leaves are dated again. -/
theorem Sound.serve_dated (h : stock.Sound) (hstock : stock.Dated) {request : Request}
    (hrequest : request.Dated) :
    (∃ answer after, Stock.serve request stock = (.ok answer, after) ∧ request.Plain answer ∧
      after.Sound ∧ after.Dated) ∨
    ∃ error, Stock.serve request stock = (Reply.fail error, stock) := by
  obtain ⟨answer, after, hchanges, hchange, hserve⟩ | ⟨answer, hread, hserve⟩ |
    ⟨error, hserve⟩ := h.serve_cases request
  · exact .inl ⟨answer, after, hserve, plain_of_change hchanges answer, h.change hchange,
      hstock.change hrequest hchange⟩
  · exact .inl ⟨answer, stock, hserve, hstock.plain hserve, h, hstock⟩
  · exact .inr ⟨error, hserve⟩

end Stock

namespace Call.Punctual

variable {crashes : Prop} {call : Call α} {stock : Stock}

theorem advance (h : call.Punctual crashes) (hsound : stock.Sound) (hdated : stock.Dated)
    {time : Instant} (htime : time.Unsigned) :
    (call.advance Stock.serve time stock).1.Punctual crashes ∧
      (call.advance Stock.serve time stock).2.Dated := by
  cases h with
  | done => exact ⟨.done, hdated⟩
  | fail => exact ⟨.fail, hdated⟩
  | crash h => exact ⟨.crash h, hdated⟩
  | readClock h => exact ⟨h time htime, hdated⟩
  | announce h => exact ⟨h, hdated⟩
  | ask hrequest hok hfail =>
      obtain ⟨answer, after, hserve, hplain, -, hafter⟩ | ⟨error, hserve⟩ :=
        hsound.serve_dated hdated hrequest
      · rw [Call.advance_ask_ok hserve]
        exact ⟨hok answer hplain, hafter⟩
      · rw [Call.advance_ask_fail hserve]
        exact ⟨hfail error, hdated⟩

theorem run_ne_crash (h : call.Punctual False) (hsound : stock.Sound) (hdated : stock.Dated)
    {time : Instant} (htime : time.Unsigned) (cause : Crash) :
    (call.run Stock.serve time stock).reply ≠ .error (.crash cause) := by
  induction h generalizing stock with
  | done => exact fun hcrash => nomatch hcrash
  | fail => exact fun hcrash => nomatch hcrash
  | crash h => exact h.elim
  | readClock h ih => exact ih time htime hsound hdated
  | announce h ih => exact ih hsound hdated
  | ask hrequest hok hfail ihok ihfail =>
      rw [Call.run]
      obtain ⟨answer, after, hserve, hplain, hafter, hlater⟩ | ⟨error, hserve⟩ :=
        hsound.serve_dated hdated hrequest
      · rw [hserve]
        exact ihok answer hplain hafter hlater
      · rw [hserve]
        exact ihfail error hsound hdated

end Call.Punctual

theorem Deed.punctual_call (deed : Deed) : deed.call.Punctual True := by
  cases deed with
  | accept parcel => exact ((Desk.punctual_tryAccept parcel).announced _ _).map _
  | give ids => exact (Desk.punctual_give ids).map _
  | refund owner id => exact ((Desk.punctual_tryRefund owner id).announced _ _).map _
  | sendBack id => exact ((Desk.punctual_trySendBack id True.intro).announced _ _).map _

def Move.Dated : Move → Prop
  | .enter _ => True
  | .advance _ time => time.Unsigned

instance : DecidablePred Move.Dated
  | .enter _ => inferInstanceAs (Decidable True)
  | .advance _ time => inferInstanceAs (Decidable time.Unsigned)

namespace Counter

structure Dated (counter : Counter) : Prop where
  stock : counter.stock.Dated
  visits : ∀ visit ∈ counter.visits, visit.left.Punctual True

theorem dated_opened : (opened .empty).Dated where
  stock := Stock.dated_empty
  visits := fun _ hmem => nomatch hmem

theorem Dated.step {start : Stock} {counter : Counter} (h : counter.Dated)
    (hkept : Kept start counter) {move : Move} (hmove : move.Dated) :
    (counter.step move).Dated := by
  cases move with
  | enter deed =>
      refine ⟨h.stock, ?_⟩
      intro visit hvisit
      rw [Counter.step, List.mem_append, List.mem_singleton] at hvisit
      cases hvisit with
      | inl hold => exact h.visits visit hold
      | inr hnew =>
          subst hnew
          exact deed.punctual_call
  | advance number time =>
      cases hvisit : counter.visits[number]? with
      | none =>
          rw [step_advance_none hvisit]
          exact h
      | some visit =>
          rw [step_advance_some hvisit]
          obtain ⟨hleft, hstock⟩ := (h.visits visit (List.mem_of_getElem? hvisit)).advance
            hkept.settled.toSound h.stock hmove
          refine ⟨hstock, ?_⟩
          intro other hother
          rcases List.mem_or_eq_of_mem_set hother with hold | rfl
          · exact h.visits other hold
          · exact hleft

theorem Dated.run {start : Stock} {counter : Counter} (h : counter.Dated)
    (hkept : Kept start counter) {moves : List Move} (hmoves : ∀ move ∈ moves, move.Dated) :
    (counter.run moves).Dated := by
  induction moves generalizing counter with
  | nil => exact h
  | cons move rest ih =>
      exact ih (h.step hkept (hmoves move List.mem_cons_self)) (hkept.step move)
        fun other hother => hmoves other (List.mem_cons_of_mem move hother)

end Counter

namespace Desk

variable {stock : Stock} {time : Instant} {id : UInt64} {record : Record}

theorem trySendBack_crashes (h : stock.Settled)
    (hrecord : stock.history.get? id = some record) (hstatus : record.status = .accepted)
    (hlast : record.order.expires = Date.last) :
    ((trySendBack id).run Stock.serve time stock).reply =
      .error (.crash .instantOverflow) := by
  have hshows := (h.accepted_iff id record hrecord).1 hstatus
  have hexpiration := h.serve_expiration.2
    ⟨record.order, Stock.deposit_of_get? hrecord, hshows, rfl⟩
  unfold trySendBack
  rw [Call.request_bind, Call.run_ask_ok (Stock.serve_record.2 hrecord)]
  dsimp only
  rw [hstatus, Call.now_bind, Call.run]
  dsimp only
  rw [Call.request_bind, Call.run_ask_ok hexpiration]
  dsimp only
  rw [later_bind, hlast, Date.plus_returnGrace_last]
  rfl

theorem trySendBack_ne_crash (h : stock.Settled) (hdated : stock.Dated)
    (htime : time.Unsigned)
    (hsafe : ∀ record, stock.history.get? id = some record → record.status = .accepted →
      record.order.expires ≠ Date.last) (cause : Crash) :
    ((trySendBack id).run Stock.serve time stock).reply ≠ .error (.crash cause) := by
  have hended : ∀ request : Request, request.stamp? = some time →
      ((Call.request request).run Stock.serve time stock).reply ≠ .error (.crash cause) := by
    intro request hstamp
    have hpunctual : (Call.request request).Punctual False := by
      apply Call.Punctual.request
      intro moment hmoment
      rw [hstamp] at hmoment
      cases hmoment
      exact htime
    exact hpunctual.run_ne_crash h.toSound hdated htime cause
  unfold trySendBack
  rw [Call.request_bind]
  cases hrecord : stock.history.get? id with
  | none =>
      rw [Call.run, Stock.serve_record_of_none hrecord]
      intro hcrash
      cases hcrash
  | some record =>
      rw [Call.run_ask_ok (Stock.serve_record.2 hrecord)]
      dsimp only
      rw [Call.now_bind, Call.run]
      cases hstatus : record.status with
      | returned => exact hended (.removeRefund id time) rfl
      | accepted =>
          have hshows := (h.accepted_iff id record hrecord).1 hstatus
          have hlimit := Date.plus_returnGrace (hsafe record hrecord hstatus)
          dsimp only
          rw [Call.run_request_ok (h.serve_expiration.2
            ⟨record.order, Stock.deposit_of_get? hrecord, hshows, rfl⟩), later_bind, hlimit]
          dsimp only
          split
          · intro hcrash
            cases hcrash
          · exact hended (.removeOrders [id] .issuedToCourier time) rfl
      | issuedToClient =>
          intro hcrash
          cases hcrash
      | issuedToCourier =>
          intro hcrash
          cases hcrash

theorem reply_sendBack (id : UInt64) (time : Instant) (stock : Stock) :
    ((execute (.sendBack id)).run Stock.serve time stock).reply =
      ((trySendBack id).run Stock.serve time stock).reply.map fun _ => "issued to courier" := by
  change ((sendBack id >>= fun _ => pure "issued to courier").run Stock.serve time stock).reply = _
  unfold sendBack
  rw [Call.run_map, run_announced]

theorem map_eq_crash {reply : Reply α} {f : α → β} {cause : Crash} :
    reply.map f = .error (.crash cause) ↔ reply = .error (.crash cause) := by
  rcases reply with stop | value
  · constructor
    all_goals
      intro hcrash
      cases hcrash
      rfl
  · constructor
    all_goals
      intro hcrash
      cases hcrash

/-- A command crashes only if it sends an order back that still waits and expires on the last day
of the calendar, and then it does. -/
theorem crash_iff (h : stock.Settled) (hdated : stock.Dated) (htime : time.Unsigned)
    (command : Command) (cause : Crash) :
    ((execute command).run Stock.serve time stock).reply = .error (.crash cause) ↔
      cause = .instantOverflow ∧ ∃ id record, command = .sendBack id ∧
        stock.history.get? id = some record ∧ record.status = .accepted ∧
        record.order.expires = Date.last := by
  constructor
  · intro hcrash
    cases command with
    | sendBack id =>
        rw [reply_sendBack, map_eq_crash] at hcrash
        by_cases hsafe : ∀ record, stock.history.get? id = some record →
            record.status = .accepted → record.order.expires ≠ Date.last
        · exact absurd hcrash (trySendBack_ne_crash h hdated htime hsafe cause)
        · simp only [Classical.not_forall, not_not] at hsafe
          obtain ⟨record, hrecord, hstatus, hlast⟩ := hsafe
          rw [trySendBack_crashes h hrecord hstatus hlast] at hcrash
          cases hcrash
          exact ⟨rfl, id, record, rfl, hrecord, hstatus, hlast⟩
    | accept | refund | give | orders | refunds =>
        refine absurd hcrash (Call.Punctual.run_ne_crash ?_ h.toSound hdated htime cause)
        apply punctual_execute
        intro id hid
        cases hid
  · rintro ⟨rfl, id, record, rfl, hrecord, hstatus, hlast⟩
    rw [reply_sendBack, trySendBack_crashes h hrecord hstatus hlast]
    rfl

/-- Whatever has been done at the desk in the years 0 to 9999, no command crashes in these years
but one that sends an order back whose grace ends beyond the calendar. -/
theorem execute_crashes_iff (past : List Move) (hpast : ∀ move ∈ past, move.Dated)
    (command : Command) (time : Instant) (htime : time.Unsigned) (cause : Crash) :
    ((execute command).run Stock.serve time ((Counter.opened .empty).run past).stock).reply =
        .error (.crash cause) ↔
      cause = .instantOverflow ∧ ∃ id record, command = .sendBack id ∧
        ((Counter.opened .empty).run past).stock.history.get? id = some record ∧
        record.status = .accepted ∧ record.order.expires = Date.last := by
  have hkept := Counter.kept_opened Stock.settled_empty
  exact crash_iff (hkept.run past).settled (Counter.dated_opened.run hkept hpast).stock htime
    command cause

def noon : Instant := ⟨1894276800, 0, by decide, by decide, .inl (by decide)⟩

def noonDay : Date := ⟨21924, by decide, by decide⟩

def boxUntil (expires : Date) : Parcel := ⟨7, 1, expires, .box, false, 100, 50⟩

def boxHandedIn (expires : Date) : List Move :=
  .enter (.accept (boxUntil expires)) :: List.replicate 4 (.advance 0 noon)

def stockWithBox (expires : Date) : Stock :=
  ((Counter.opened .empty).run (boxHandedIn expires)).stock

/-- Every other order can be asked for, even one that expires a day before the calendar's end. -/
theorem execute_answers_before_last_day :
    (∀ move ∈ boxHandedIn ⟨95026235, by decide, by decide⟩, move.Dated) ∧ noon.Unsigned ∧
      ((execute (.sendBack 1)).run Stock.serve noon
        (stockWithBox ⟨95026235, by decide, by decide⟩)).reply ≠
          .error (.crash .instantOverflow) := by
  refine ⟨by decide +kernel, by decide +kernel, ?_⟩
  intro hcrash
  obtain ⟨-, id, record, hid, hrecord, -, hlast⟩ :=
    (execute_crashes_iff (boxHandedIn ⟨95026235, by decide, by decide⟩) (by decide +kernel)
      (.sendBack 1) noon (by decide +kernel) .instantOverflow).1 hcrash
  cases hid
  have hbox : (stockWithBox ⟨95026235, by decide, by decide⟩).history.get? 1 =
      some ⟨⟨⟨95026235, by decide, by decide⟩, .box, 100, 70, false⟩, .accepted, 7, noon⟩ := by
    decide +kernel
  cases hbox.symm.trans hrecord
  cases hlast

/-- A sheet on which the box is accepted until the calendar's last day and then sent back. -/
def lastDaySheet : List Char :=
  "op,user,orders,expiration,package,weight,cost\naccept,7,1,31-12-+262142,box,100,50\nreturn,,1"
    |>.toList

/-- Both rows of the sheet can be read, and the second command crashes after the first. -/
theorem last_day_crashes :
    (Sheet.instructions lastDaySheet).map Except.toOption =
      [some (.run (.accept (boxUntil .last))), some (.run (.sendBack 1))] ∧
    (∀ move ∈ boxHandedIn .last, move.Dated) ∧ noon.Unsigned ∧
    ((execute (.sendBack 1)).run Stock.serve noon (stockWithBox .last)).reply =
      .error (.crash .instantOverflow) := by
  refine ⟨by decide +kernel, by decide +kernel, by decide +kernel, ?_⟩
  have hbox : (stockWithBox .last).history.get? 1 =
      some ⟨⟨.last, .box, 100, 70, false⟩, .accepted, 7, noon⟩ := by
    decide +kernel
  have hsettled : (stockWithBox .last).Settled :=
    ((Counter.kept_opened Stock.settled_empty).run (boxHandedIn .last)).settled
  rw [reply_sendBack, trySendBack_crashes hsettled hbox rfl rfl]
  rfl

end Desk

end ParcelDesk
