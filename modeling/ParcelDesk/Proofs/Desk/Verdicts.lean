import ParcelDesk.Proofs.Desk.Accepting
import ParcelDesk.Proofs.Desk.Refunding
import ParcelDesk.Proofs.Desk.SendingBack
import ParcelDesk.Proofs.Store.Exchange

/-!
# What a deed reads

A deed reads no more of the stores than the records of its own orders: two stocks with the same
records of them give it the same reply, and it makes the same change in both.
-/

namespace ParcelDesk

inductive Impact where
  | nothing
  | register (owner id : UInt64) (order : Order)
  | release (ids : List UInt64) (status : Status)
  | enqueue (owner id : UInt64) (order : Order)
  | dequeue (id : UInt64)

namespace Impact

def ids : Impact → List UInt64
  | .nothing => []
  | .register _ id _ | .enqueue _ id _ | .dequeue id => [id]
  | .release ids _ => ids

def apply (time : Instant) : Impact → Stock → Stock
  | .nothing, stock => stock
  | .register owner id order, stock => stock.register owner id order time
  | .release ids status, stock => stock.releaseAll ids status time
  | .enqueue owner id order, stock => stock.enqueue owner id order time
  | .dequeue id, stock => stock.dequeue id time

theorem get?_apply {impact : Impact} {id : UInt64} (h : id ∉ impact.ids) (time : Instant)
    (stock : Stock) : (impact.apply time stock).history.get? id = stock.history.get? id := by
  cases impact with
  | nothing => rfl
  | register owner key order =>
      rw [apply, Stock.get?_register, if_neg (List.ne_of_not_mem_cons h)]
  | release keys status =>
      rw [apply, Stock.get?_releaseAll]
      exact if_neg h
  | enqueue owner key order =>
      rw [apply, Stock.get?_enqueue, if_neg (List.ne_of_not_mem_cons h)]
  | dequeue key => rw [apply, Stock.get?_dequeue, if_neg (List.ne_of_not_mem_cons h)]

end Impact

namespace Stock

def SameRecords (stock : Stock) (ids : List UInt64) (other : Stock) : Prop :=
  ∀ id ∈ ids, other.history.get? id = stock.history.get? id

variable {stock other : Stock} {time : Instant}

theorem SameRecords.acceptFault_eq {parcel : Parcel} (h : stock.SameRecords [parcel.id] other) :
    other.acceptFault time parcel = stock.acceptFault time parcel := by
  rw [acceptFault, acceptFault, h _ List.mem_cons_self]

theorem SameRecords.batchOwner_eq {ids : List UInt64} (h : stock.SameRecords ids other) :
    other.batchOwner ids = stock.batchOwner ids := by
  induction ids with
  | nil => rfl
  | cons id rest ih =>
      rw [batchOwner_cons, batchOwner_cons, ownerOf, ownerOf, h id List.mem_cons_self,
        ih fun key hkey => h key (List.mem_cons_of_mem id hkey)]

theorem SameRecords.giveFaults_eq {ids : List UInt64} (h : stock.SameRecords ids other)
    (today : Date) :
    ids.filterMap (other.giveFault today (other.batchOwner ids)) =
      ids.filterMap (stock.giveFault today (stock.batchOwner ids)) := by
  rw [h.batchOwner_eq]
  apply List.filterMap_congr
  intro id hid
  rw [giveFault, giveFault, h id hid]

end Stock

namespace Desk

variable {stock : Stock} {id : UInt64} {record : Record} {time : Instant}

/-- An order whose window has no end on the calendar is not taken back from another user, and the
call crashes if its owner brings it. -/
theorem reply_tryRefund_of_overflow (hrecord : stock.history.get? id = some record)
    (hstatus : record.status = .issuedToClient)
    (hlimit : record.changed.plus refundWindow = none) (owner : UInt64) (time : Instant) :
    ((tryRefund owner id).run Stock.serve time stock).reply =
      if record.owner ≠ owner then
        Reply.refuse .wrongInput s!"can't refund order {id}: wrong user id"
      else .error (.crash .instantOverflow) := by
  unfold tryRefund
  rw [Call.run_request_ok (Stock.serve_record.2 hrecord), Status.leadsTo_returned.2 hstatus,
    if_neg (by decide)]
  split
  · rfl
  · rw [Call.now_bind, Call.run, later_bind, hlimit]
    rfl

end Desk

namespace Deed

variable {stock : Stock} {time : Instant}

/-- A deed with this reply has made this change: none if it did not succeed. -/
inductive Leaves : Deed → Reply Receipt → Impact → Prop
  | stopped (deed : Deed) (stop : Stop) : Leaves deed (.error stop) .nothing
  | accepted (parcel : Parcel) (order : Order) :
      Leaves (.accept parcel) (.ok (.priced order))
        (.register parcel.owner parcel.id order)
  | given (ids : List UInt64) :
      Leaves (.give ids) (.ok (.given (distinct ids))) (.release (distinct ids) .issuedToClient)
  | refunded (owner id : UInt64) (order : Order) :
      Leaves (.refund owner id) (.ok .done) (.enqueue owner id order)
  | unqueued (id : UInt64) : Leaves (.sendBack id) (.ok .done) (.dequeue id)
  | unclaimed (id : UInt64) :
      Leaves (.sendBack id) (.ok .done) (.release [id] .issuedToCourier)

theorem Leaves.ids_subset {deed : Deed} {reply : Reply Receipt} {impact : Impact}
    (h : deed.Leaves reply impact) : impact.ids ⊆ deed.ids := by
  cases h with
  | stopped stop => exact List.nil_subset _
  | given ids => exact fun id => mem_distinct.1
  | accepted | refunded | unqueued | unclaimed => exact List.Subset.refl _

/-- The deed comes to this on every stock that has the same records of its orders. -/
def Decided (deed : Deed) (time : Instant) (stock : Stock) : Prop :=
  ∃ reply impact, deed.Leaves reply impact ∧
    ∀ other : Stock, other.Settled → stock.SameRecords deed.ids other →
      (deed.call.run Stock.serve time other).reply = reply ∧
        (deed.call.run Stock.serve time other).state = impact.apply time other

theorem settled_run (deed : Deed) (h : stock.Settled) (time : Instant) :
    (deed.call.run Stock.serve time stock).state.Settled := by
  rw [← Call.runBy_still]
  exact (deed.ends_runBy h fun _ => time).1

theorem state_of_stop (deed : Deed) (h : stock.Settled) {stop : Stop}
    (hreply : (deed.call.run Stock.serve time stock).reply = .error stop) :
    (deed.call.run Stock.serve time stock).state = stock := by
  rw [← Call.runBy_still] at hreply ⊢
  rcases (deed.ends_runBy h fun _ => time).2 with ⟨receipt, request, hok, -⟩ | ⟨_, -, hstate⟩
  · rw [hok] at hreply
    cases hreply
  · exact hstate

theorem decided_of_stop (deed : Deed) (stop : Stop)
    (h : ∀ other : Stock, other.Settled → stock.SameRecords deed.ids other →
      (deed.call.run Stock.serve time other).reply = .error stop) :
    deed.Decided time stock :=
  ⟨.error stop, .nothing, .stopped deed stop, fun other hother hsame =>
    ⟨h other hother hsame, deed.state_of_stop hother (h other hother hsame)⟩⟩

theorem decided_of_success {deed : Deed} {receipt : Receipt} {impact : Impact}
    (hleaves : deed.Leaves (.ok receipt) impact) {looks : List Instant}
    (hstill : ∀ look ∈ looks, look = time)
    (h : ∀ other : Stock, stock.SameRecords deed.ids other →
      ∃ request, deed.Success receipt looks ⟨request, other, impact.apply time other⟩) :
    deed.Decided time stock := by
  refine ⟨.ok receipt, impact, hleaves, fun other hother hsame => ?_⟩
  obtain ⟨request, hsuccess⟩ := h other hsame
  exact (hsuccess.yields hother hstill).run_eq

theorem reply_call_of_stop {call : Call α} {f : α → Receipt} {kind : Status} {ids : List UInt64}
    {stop : Stop} (h : (call.run Stock.serve time stock).reply = .error stop) :
    ((Desk.announced kind ids call >>= fun value => pure (f value)).run Stock.serve time
      stock).reply = .error stop := by
  rw [Call.run_map, Desk.reply_announced, h]
  rfl

theorem accept_decided (parcel : Parcel) (time : Instant) (stock : Stock) :
    (Deed.accept parcel).Decided time stock := by
  cases hfault : stock.acceptFault time parcel with
  | some error =>
      refine decided_of_stop _ (.error error) fun other _ hsame => ?_
      rw [← Stock.SameRecords.acceptFault_eq hsame] at hfault
      exact reply_call_of_stop (Desk.run_tryAccept_of_fault hfault).1
  | none =>
      obtain ⟨hfresh, hpackable, -⟩ := Stock.acceptFault_eq_none.1 hfault
      obtain ⟨order, horder, -⟩ := hpackable.exists_order
      refine decided_of_success (.accepted parcel order) (List.forall_mem_singleton.2 rfl)
        fun other hsame => ?_
      rw [← Stock.SameRecords.acceptFault_eq hsame] at hfault
      exact ⟨_, .accept hfresh horder (Stock.acceptFault_eq_none.1 hfault).2.2⟩

theorem give_decided (ids : List UInt64) (time : Instant) (stock : Stock) :
    (Deed.give ids).Decided time stock := by
  have hbatch {other : Stock} (hsame : stock.SameRecords ids other) :
      stock.SameRecords (distinct ids) other := fun id hid => hsame id (mem_distinct.1 hid)
  by_cases hsome : distinct ids = []
  · refine decided_of_stop _ (.error (.refused .wrongInput "no orders to give"))
      fun other _ _ => reply_call_of_stop ?_
    rw [hsome]
    rfl
  by_cases hfaults : (distinct ids).filterMap
      (stock.giveFault time.date (stock.batchOwner (distinct ids))) = []
  · refine decided_of_success (.given ids) (List.forall_mem_cons.2
      ⟨rfl, List.forall_mem_singleton.2 rfl⟩) fun other hsame => ?_
    rw [← (hbatch hsame).giveFaults_eq] at hfaults
    obtain ⟨owner, -, hready⟩ :=
      Desk.exists_owner_of_givable hsome (Stock.filterMap_giveFault_eq_nil.1 hfaults)
    refine ⟨_, .give ?_ fun id hid => hready id (mem_distinct.2 hid)⟩
    rintro rfl
    exact hsome rfl
  · refine decided_of_stop _ (.error (.fold ((distinct ids).filterMap
      (stock.giveFault time.date (stock.batchOwner (distinct ids))))))
      fun other hother hsame => reply_call_of_stop ?_
    rw [Call.run_map, ← (hbatch hsame).giveFaults_eq]
    rw [← (hbatch hsame).giveFaults_eq] at hfaults
    rw [(Desk.run_tryGive_of_faults hother hsome hfaults).1]
    rfl

theorem refund_decided (owner id : UInt64) (time : Instant) (stock : Stock) :
    (Deed.refund owner id).Decided time stock := by
  have hget {other : Stock} (hsame : stock.SameRecords [id] other) :
      other.history.get? id = stock.history.get? id := hsame id List.mem_cons_self
  by_cases hwindowed : stock.Windowed id
  · have hwindow {other : Stock} (hsame : stock.SameRecords [id] other) : other.Windowed id := by
      intro record hrecord
      exact hwindowed record ((hget hsame).symm.trans hrecord)
    cases hfault : stock.refundFault owner id time with
    | some error =>
        refine decided_of_stop _ (.error error) fun other _ hsame => reply_call_of_stop ?_
        rw [Stock.refundFault, ← hget hsame] at hfault
        exact (Desk.run_tryRefund_of_fault (hwindow hsame) hfault).1
    | none =>
        obtain ⟨record, limit, hrecord, hstatus, rfl, hlimit, hintime⟩ :=
          hwindowed.refundFault_eq_none.1 hfault
        refine decided_of_success (.refunded record.owner id record.order)
          (List.forall_mem_singleton.2 rfl) fun other hsame => ?_
        exact ⟨_, .refund ((hget hsame).trans hrecord) hstatus hlimit
          (Instant.not_lt_iff.2 hintime)⟩
  · simp only [Stock.Windowed, Classical.not_forall, not_exists] at hwindowed
    obtain ⟨record, hrecord, hstatus, hlimit⟩ := hwindowed
    have hreply {other : Stock} (hsame : stock.SameRecords [id] other) :=
      Desk.reply_tryRefund_of_overflow ((hget hsame).trans hrecord) hstatus
        (Option.eq_none_iff_forall_ne_some.2 hlimit) owner time
    by_cases howner : record.owner = owner
    · refine decided_of_stop _ (.crash .instantOverflow) fun other _ hsame => reply_call_of_stop ?_
      rw [hreply hsame, if_neg (not_not_intro howner)]
    · refine decided_of_stop _ (.error (.refused .wrongInput
        s!"can't refund order {id}: wrong user id")) fun other _ hsame => reply_call_of_stop ?_
      rw [hreply hsame, if_pos howner]
      rfl

theorem sendBack_decided_of_limit (id : UInt64) (time limit : Instant)
    (hlimit : ∀ record, stock.history.get? id = some record → record.status = .accepted →
      record.order.expires.start.plus Desk.returnGrace = some limit) :
    (Deed.sendBack id).Decided time stock := by
  have hget {other : Stock} (hsame : stock.SameRecords [id] other) :
      other.history.get? id = stock.history.get? id := hsame id List.mem_cons_self
  cases hfault : stock.sendBackFault limit time id with
  | some error =>
      refine decided_of_stop _ (.error error) fun other hother hsame => reply_call_of_stop ?_
      rw [Stock.sendBackFault, ← hget hsame] at hfault
      refine (Desk.run_trySendBack_of_fault hother (fun record hrecord => ?_) hfault).1
      exact hlimit record ((hget hsame).symm.trans hrecord)
  | none =>
      obtain ⟨record, hrecord, hreturned | ⟨haccepted, hlate⟩⟩ :=
        Stock.sendBackFault_eq_none.1 hfault
      · exact decided_of_success (.unqueued id) (List.forall_mem_singleton.2 rfl)
          fun other hsame => ⟨_, .sendBackReturned ((hget hsame).trans hrecord) hreturned⟩
      · exact decided_of_success (.unclaimed id) (List.forall_mem_singleton.2 rfl)
          fun other hsame => ⟨_, .sendBackUnclaimed ((hget hsame).trans hrecord) haccepted
            (hlimit record hrecord haccepted) (Instant.not_le_iff.2 hlate)⟩

theorem sendBack_decided (id : UInt64) (time : Instant) (stock : Stock) :
    (Deed.sendBack id).Decided time stock := by
  by_cases hlast : ∃ record, stock.history.get? id = some record ∧ record.status = .accepted ∧
      record.order.expires = Date.last
  · obtain ⟨record, hrecord, haccepted, hlast⟩ := hlast
    refine decided_of_stop _ (.crash .instantOverflow) fun other hother hsame =>
      reply_call_of_stop ?_
    exact Desk.trySendBack_crashes hother ((hsame id List.mem_cons_self).trans hrecord) haccepted
      hlast
  · by_cases hwaits : ∃ record, stock.history.get? id = some record ∧ record.status = .accepted
    · obtain ⟨record, hrecord, haccepted⟩ := hwaits
      have hdate : record.order.expires ≠ Date.last :=
        fun heq => hlast ⟨record, hrecord, haccepted, heq⟩
      refine sendBack_decided_of_limit id time (record.order.expires.dayLater hdate)
        fun found hfound _ => ?_
      cases hrecord.symm.trans hfound
      exact Date.plus_returnGrace hdate
    · -- the limit does not matter to an order that does not wait
      exact sendBack_decided_of_limit id time time fun record hrecord haccepted =>
        absurd ⟨record, hrecord, haccepted⟩ hwaits

/-- What a deed comes to is decided by the records of its orders. -/
theorem decided (deed : Deed) (time : Instant) (stock : Stock) : deed.Decided time stock := by
  cases deed with
  | accept parcel => exact accept_decided parcel time stock
  | give ids => exact give_decided ids time stock
  | refund owner id => exact refund_decided owner id time stock
  | sendBack id => exact sendBack_decided id time stock

end Deed

end ParcelDesk
