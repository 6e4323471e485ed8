import ParcelDesk.Proofs.Call.Runs
import ParcelDesk.Proofs.Desk.Endings

namespace ParcelDesk

namespace Desk

variable {time : Instant} {before : Stock}

/-! What was known right before a deed made its change suffices for the deed to succeed there
alone, if the clock stands still. -/

theorem tryAccept_yields {parcel : Parcel} {order : Order}
    (hsettled : before.Settled) (hfresh : ¬ parcel.expires < time.date)
    (horder : parcel.order = .ok order) (hnew : before.history.get? parcel.id = none) :
    (tryAccept parcel).Yields Stock.serve time before order
      (before.register parcel.owner parcel.id order time) := by
  rw [tryAccept_eq]
  refine .readClock ?_
  rw [if_neg hfresh, horder]
  change (Call.request _ >>= _).Yields _ _ _ _ _
  rw [Call.request_bind]
  exact .answered (hsettled.addOrder_of_none hnew parcel.owner order time) .done

theorem tryRefund_yields {id : UInt64} {record : Record} {limit : Instant}
    (hsettled : before.Settled) (hrecord : before.history.get? id = some record)
    (hstatus : record.status = .issuedToClient)
    (hlimit : record.changed.plus refundWindow = some limit) (hintime : ¬ limit < time) :
    (tryRefund record.owner id).Yields Stock.serve time before ()
      (before.enqueue record.owner id record.order time) := by
  have hnew := hsettled.not_lists_of_issuedToClient hrecord hstatus
  unfold tryRefund
  rw [Call.request_bind]
  refine .answered (Stock.serve_record.2 hrecord) ?_
  dsimp only
  rw [hstatus, if_neg (by decide), if_neg (not_not_intro rfl), Call.now_bind]
  refine .readClock ?_
  rw [later_bind, hlimit]
  dsimp only
  rw [if_neg hintime]
  exact .answered (hsettled.addRefund_of_not_lists hrecord hstatus rfl hnew record.order time)
    .done

theorem trySendBack_yields_of_returned {id : UInt64} {record : Record}
    (hsettled : before.Settled) (hrecord : before.history.get? id = some record)
    (hstatus : record.status = .returned) (time : Instant) :
    (trySendBack id).Yields Stock.serve time before () (before.dequeue id time) := by
  have hshows := (hsettled.returned_iff id record hrecord).1 hstatus
  unfold trySendBack
  rw [Call.request_bind]
  refine .answered (Stock.serve_record.2 hrecord) ?_
  dsimp only
  rw [hstatus, Call.now_bind]
  refine .readClock ?_
  exact .answered (hsettled.removeRefund_of_shows hrecord hstatus hshows time) .done

theorem trySendBack_yields_of_accepted {id : UInt64} {record : Record} {limit : Instant}
    (hsettled : before.Settled) (hrecord : before.history.get? id = some record)
    (hstatus : record.status = .accepted)
    (hlimit : record.order.expires.start.plus returnGrace = some limit)
    (hlate : ¬ time ≤ limit) :
    (trySendBack id).Yields Stock.serve time before ()
      (before.releaseAll [id] .issuedToCourier time) := by
  have hshows := (hsettled.accepted_iff id record hrecord).1 hstatus
  have hremovable : ∀ key ∈ [id], before.Removable key := by
    intro key hkey
    cases List.mem_singleton.1 hkey
    exact hsettled.removable_of_accepted hrecord hstatus
  unfold trySendBack
  rw [Call.request_bind]
  refine .answered (Stock.serve_record.2 hrecord) ?_
  dsimp only
  rw [hstatus, Call.now_bind]
  refine .readClock ?_
  dsimp only
  rw [Call.request_bind]
  refine .answered (hsettled.serve_expiration.2
    ⟨record.order, Stock.deposit_of_get? hrecord, hshows, rfl⟩) ?_
  dsimp only
  rw [later_bind, hlimit]
  dsimp only
  rw [if_neg hlate]
  exact .answered (hsettled.removeOrders_of_removable hremovable .issuedToCourier time) .done

def Ready (today : Date) (owner : UInt64) (stock : Stock) (id : UInt64) : Prop :=
  ∃ record, stock.history.get? id = some record ∧ record.status = .accepted ∧
    record.owner = owner ∧ ¬ record.order.expires < today

theorem checkGive_yields {today : Date} {owner : Option UInt64} {user id : UInt64}
    (hsettled : before.Settled) (howner : owner.getD user = user)
    (hready : Ready today user before id) :
    (checkGive today owner id).Yields Stock.serve time before (some user, none) before := by
  obtain ⟨record, hrecord, hstatus, rfl, hfresh⟩ := hready
  have hshows := (hsettled.accepted_iff id record hrecord).1 hstatus
  unfold checkGive
  rw [Call.attempt_request_bind]
  refine .answered (Stock.serve_record.2 hrecord) ?_
  dsimp only
  rw [howner, hstatus, if_neg (not_not_intro rfl), if_neg (by decide),
    Call.attempt_request_bind]
  refine .answered (hsettled.serve_expiration.2
    ⟨record.order, Stock.deposit_of_get? hrecord, hshows, rfl⟩) ?_
  dsimp only
  rw [if_neg hfresh, Call.attempt_request_bind]
  exact .answered
    (hsettled.serve_checkRemovable.2 (hsettled.removable_of_accepted hrecord hstatus)) .done

theorem checkBatch_yields {today : Date} {owner : Option UInt64} {user : UInt64}
    {ids : List UInt64} (hsettled : before.Settled) (howner : owner.getD user = user)
    (hready : ∀ id ∈ ids, Ready today user before id) :
    (checkBatch today owner ids).Yields Stock.serve time before [] before := by
  induction ids generalizing owner with
  | nil => exact .done
  | cons id rest ih =>
      unfold checkBatch
      refine (checkGive_yields hsettled howner (hready id List.mem_cons_self)).bind ?_
      have hrest : (checkBatch today (some user) rest).Yields Stock.serve time before []
          before := ih rfl fun key hkey => hready key (List.mem_cons_of_mem id hkey)
      exact hrest.bind .done

theorem tryGive_yields {owner : UInt64} {ids : List UInt64} (hsettled : before.Settled)
    (hsome : ids ≠ []) (hready : ∀ id ∈ ids, Ready time.date owner before id) :
    (tryGive ids).Yields Stock.serve time before ()
      (before.releaseAll (distinct ids) .issuedToClient time) := by
  have hremovable : ∀ id ∈ ids, before.Removable id := by
    intro id hid
    obtain ⟨record, hrecord, hstatus, -⟩ := hready id hid
    exact hsettled.removable_of_accepted hrecord hstatus
  unfold tryGive
  rw [if_neg (by simpa using hsome), Call.now_bind]
  refine .readClock ?_
  refine (checkBatch_yields hsettled rfl hready).bind ?_
  dsimp only
  rw [Call.now_bind]
  refine .readClock ?_
  exact .answered (hsettled.removeOrders_of_removable hremovable .issuedToClient time) .done

end Desk

namespace Deed

/-- A deed that has succeeded among others succeeds again alone, with the same receipt and the same
change, from the stock right before its change. -/
theorem Success.yields {deed : Deed} {receipt : Receipt} {looks : List Instant}
    {mutation : Mutation Stock} (h : deed.Success receipt looks mutation) {time : Instant}
    (hsettled : mutation.before.Settled) (hstill : ∀ look ∈ looks, look = time) :
    deed.call.Yields Stock.serve time mutation.before receipt mutation.after := by
  cases h with
  | accept hfresh horder hnew =>
      cases hstill _ List.mem_cons_self
      have hrun := Desk.tryAccept_yields hsettled hfresh horder hnew
      exact (hrun.announced _ _).bind .done
  | @give ids owner first moment before hsome hready =>
      cases hstill first List.mem_cons_self
      cases hstill moment (List.mem_cons_of_mem _ List.mem_cons_self)
      have hids : distinct ids ≠ [] := by
        intro hnone
        obtain ⟨id, hid⟩ := List.exists_mem_of_ne_nil ids hsome
        have hmember := mem_distinct.2 hid
        rw [hnone] at hmember
        cases hmember
      have hrun := Desk.tryGive_yields hsettled hids
        fun id hid => hready id (mem_distinct.1 hid)
      rw [distinct_distinct] at hrun
      have hgive : (Desk.give ids).Yields Stock.serve time before (distinct ids)
          (before.releaseAll (distinct ids) .issuedToClient time) := by
        refine Call.Yields.announced ?_ _ _
        exact hrun.bind .done
      exact hgive.bind .done
  | refund hrecord hstatus hlimit hintime =>
      cases hstill _ List.mem_cons_self
      have hrun := Desk.tryRefund_yields hsettled hrecord hstatus hlimit hintime
      exact (hrun.announced _ _).bind .done
  | sendBackReturned hrecord hstatus =>
      cases hstill _ List.mem_cons_self
      have hrun := Desk.trySendBack_yields_of_returned hsettled hrecord hstatus time
      exact (hrun.announced _ _).bind .done
  | sendBackUnclaimed hrecord hstatus hlimit hlate =>
      cases hstill _ List.mem_cons_self
      have hrun := Desk.trySendBack_yields_of_accepted hsettled hrecord hstatus hlimit hlate
      exact (hrun.announced _ _).bind .done

end Deed

end ParcelDesk
