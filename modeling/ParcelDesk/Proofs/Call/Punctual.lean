import ParcelDesk.Proofs.Calendar.Spans
import ParcelDesk.Proofs.Call.Rules
import ParcelDesk.Proofs.Store.Requests

/-!
# Punctual calls

A call is punctual if the moments it writes into the stores are those it reads off the clock, as
long as the clock is in the years 0 to 9999. Such calls are only ever told of moments in these
years, which is what the spans of time that they reckon with rest on.
-/

namespace ParcelDesk

namespace Request

/-- The moment that a request would write down. -/
def stamp? : Request → Option Instant
  | .addOrder _ _ _ time | .removeOrders _ _ time | .setStatus _ _ time
  | .addRefund _ _ _ time | .removeRefund _ time => some time
  | _ => none

def Dated (request : Request) : Prop :=
  ∀ time, request.stamp? = some time → time.Unsigned

def Plain : (request : Request) → request.Answer → Prop
  | .record _, found => found.changed.Unsigned
  | _, _ => True

theorem dated_of_read {request : Request} (h : request.changes = false) : request.Dated := by
  intro time htime
  cases request with
  | record | order | expiration | checkRemovable | orders | refunds => cases htime
  | addOrder | removeOrders | setStatus | addRefund | removeRefund => cases h

end Request

namespace Call

/-- A punctual call. It crashes only if `crashes` holds. -/
inductive Punctual (crashes : Prop) : Call α → Prop
  | done {value : α} : Punctual crashes (.done value)
  | fail {error : Error} : Punctual crashes (.fail error)
  | crash {cause : Crash} (h : crashes) : Punctual crashes (.crash cause)
  | readClock {next : Instant → Call α}
      (h : ∀ time : Instant, time.Unsigned → Punctual crashes (next time)) :
      Punctual crashes (.readClock next)
  | announce {kind : Status} {ids : List UInt64} {error : Option String} {next : Call α}
      (h : Punctual crashes next) : Punctual crashes (.announce kind ids error next)
  | ask {request : Request} {next : Except Error request.Answer → Call α}
      (hdated : request.Dated)
      (hok : ∀ answer, request.Plain answer → Punctual crashes (next (.ok answer)))
      (hfail : ∀ error, Punctual crashes (next (.error error))) :
      Punctual crashes (.ask request next)

namespace Punctual

variable {crashes : Prop} {call : Call α}

theorem bind {next : α → Call β} (h : call.Punctual crashes)
    (hnext : ∀ value, (next value).Punctual crashes) : (call >>= next).Punctual crashes := by
  change (call.bind next).Punctual crashes
  induction h with
  | done => exact hnext _
  | fail => exact .fail
  | crash h => exact .crash h
  | readClock h ih => exact .readClock ih
  | announce h ih => exact .announce ih
  | ask hdated hok hfail ihok ihfail => exact .ask hdated ihok ihfail

theorem map (h : call.Punctual crashes) (f : α → β) :
    (call >>= fun value => pure (f value)).Punctual crashes :=
  h.bind fun _ => .done

theorem attempt (h : call.Punctual crashes) : call.attempt.Punctual crashes := by
  induction h with
  | done => exact .done
  | fail => exact .done
  | crash h => exact .crash h
  | readClock h ih => exact .readClock ih
  | announce h ih => exact .announce ih
  | ask hdated hok hfail ihok ihfail => exact .ask hdated ihok ihfail

theorem announced (h : call.Punctual crashes) (kind : Status) (ids : List UInt64) :
    (Desk.announced kind ids call).Punctual crashes := by
  refine h.attempt.bind fun result => ?_
  cases result with
  | ok value => exact .announce .done
  | error error =>
      dsimp only
      split
      · exact .announce .fail
      · exact .fail

theorem request {request : Request} (hdated : request.Dated) :
    (Call.request request).Punctual crashes :=
  .ask hdated (fun _ _ => .done) fun _ => .fail

theorem ofExcept (result : Except Error α) : (Call.ofExcept result).Punctual crashes := by
  cases result with
  | ok value => exact .done
  | error error => exact .fail

end Punctual

end Call

namespace Desk

variable {crashes : Prop}

theorem punctual_tryAccept (parcel : Parcel) : (tryAccept parcel).Punctual crashes := by
  unfold tryAccept
  rw [Call.now_bind]
  refine .readClock fun time htime => ?_
  split
  · exact .fail
  · refine (Call.Punctual.ofExcept _).bind fun packaging => ?_
    refine (Call.Punctual.ofExcept _).bind fun order => ?_
    refine Call.Punctual.map (Call.Punctual.request ?_) _
    rintro moment ⟨⟩
    exact htime

/-- The window of a refund is known, since the order was issued in one of the years 0 to 9999. -/
theorem punctual_tryRefund (owner id : UInt64) : (tryRefund owner id).Punctual crashes := by
  unfold tryRefund
  rw [Call.request_bind]
  refine .ask (Request.dated_of_read rfl) (fun record hchanged => ?_) fun _ => .fail
  dsimp only
  split
  · exact .fail
  split
  · exact .fail
  rw [Call.now_bind]
  refine .readClock fun time htime => ?_
  obtain ⟨limit, hlimit⟩ :=
    (show record.changed.Unsigned from hchanged).exists_limit
  rw [later, hlimit]
  change (if limit < time then _ else _ : Call Unit).Punctual crashes
  split
  · exact .fail
  · apply Call.Punctual.request
    rintro moment ⟨⟩
    exact htime

theorem punctual_checkGive (today : Date) (owner : Option UInt64) (id : UInt64) :
    (checkGive today owner id).Punctual crashes := by
  unfold checkGive
  rw [Call.attempt_request_bind]
  refine .ask (Request.dated_of_read rfl) (fun record _ => ?_) fun _ => .done
  dsimp only
  split
  · exact .done
  split
  · exact .done
  rw [Call.attempt_request_bind]
  refine .ask (Request.dated_of_read rfl) (fun expires _ => ?_) fun _ => .done
  dsimp only
  split
  · exact .done
  rw [Call.attempt_request_bind]
  exact .ask (Request.dated_of_read rfl) (fun _ _ => .done) fun _ => .done

theorem punctual_checkBatch (today : Date) (owner : Option UInt64) (ids : List UInt64) :
    (checkBatch today owner ids).Punctual crashes := by
  induction ids generalizing owner with
  | nil => exact .done
  | cons id rest ih =>
      unfold checkBatch
      refine (punctual_checkGive today owner id).bind fun checked => ?_
      exact (ih checked.1).map _

theorem punctual_tryGive (ids : List UInt64) : (tryGive ids).Punctual crashes := by
  unfold tryGive
  split
  · exact .fail
  rw [Call.now_bind]
  refine .readClock fun time _ => ?_
  refine (punctual_checkBatch time.date none ids).bind fun errors => ?_
  cases errors with
  | cons error rest => exact .fail
  | nil =>
      rw [Call.now_bind]
      refine .readClock fun moment hmoment => ?_
      apply Call.Punctual.request
      rintro stamp ⟨⟩
      exact hmoment

/-- Nothing is known here of the day on which an order expires, so this call may crash. -/
theorem punctual_trySendBack (id : UInt64) (h : crashes) :
    (trySendBack id).Punctual crashes := by
  unfold trySendBack
  rw [Call.request_bind]
  refine .ask (Request.dated_of_read rfl) (fun record _ => ?_) fun _ => .fail
  dsimp only
  rw [Call.now_bind]
  refine .readClock fun time htime => ?_
  cases record.status with
  | returned =>
      apply Call.Punctual.request
      rintro moment ⟨⟩
      exact htime
  | accepted =>
      refine (Call.Punctual.request (Request.dated_of_read rfl)).bind fun expires => ?_
      rw [later]
      split
      · change (if time ≤ _ then _ else _ : Call Unit).Punctual crashes
        split
        · exact .fail
        · apply Call.Punctual.request
          rintro moment ⟨⟩
          exact htime
      · exact .crash h
  | issuedToClient => exact .fail
  | issuedToCourier => exact .fail

theorem punctual_orders (owner first limit : UInt64) :
    (orders owner first limit).Punctual crashes := by
  refine (Call.Punctual.request (Request.dated_of_read rfl)).bind fun slots => ?_
  split
  · exact .fail
  · exact .done

theorem punctual_refunds (page size : UInt64) : (refunds page size).Punctual crashes := by
  refine (Call.Punctual.request (Request.dated_of_read rfl)).bind fun slots => ?_
  split
  · exact .fail
  · exact .done

theorem punctual_give (ids : List UInt64) : (give ids).Punctual crashes :=
  ((punctual_tryGive (distinct ids)).map fun _ => distinct ids).announced _ _

theorem punctual_execute (command : Command) (h : ∀ id, command = .sendBack id → crashes) :
    (execute command).Punctual crashes := by
  cases command with
  | accept parcel => exact ((punctual_tryAccept parcel).announced _ _).map _
  | refund owner id => exact ((punctual_tryRefund owner id).announced _ _).map _
  | give ids => exact (punctual_give ids).map _
  | sendBack id => exact ((punctual_trySendBack id (h id rfl)).announced _ _).map _
  | orders owner first limit => exact (punctual_orders owner first limit).map _
  | refunds page size => exact (punctual_refunds page size).map _

end Desk

end ParcelDesk
