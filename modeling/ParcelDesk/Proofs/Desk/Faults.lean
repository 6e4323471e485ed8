import ParcelDesk.Proofs.Call.Faults
import ParcelDesk.Proofs.Desk.Journal

/-!
# The desk above faults

Every call of the desk is careful: it makes one change at most, right before it ends, and a request
that fails keeps it from ending well.
-/

namespace ParcelDesk

open Call (Careful Standing)

def Unmarred : Standing → α → Prop :=
  fun standing _ => standing ≠ .marred

namespace Desk

variable {standing : Standing}

theorem careful_request (request : Request) : Careful Unmarred .clean (Call.request request) :=
  .change (fun _ => .done Standing.noConfusion) fun _ => .fail Standing.noConfusion

theorem careful_read {post : Standing → α → Prop} {request : Request}
    (hread : request.changes = false) {next : request.Answer → Call α}
    (h : ∀ answer, Careful post .clean (next answer)) :
    Careful post .clean (Call.request request >>= next) := by
  rw [Call.request_bind]
  exact .read Standing.noConfusion hread h fun _ => .fail Standing.noConfusion

theorem careful_tryAccept (parcel : Parcel) : Careful Unmarred .clean (tryAccept parcel) := by
  rw [tryAccept_eq]
  refine .readClock Standing.noConfusion fun time => ?_
  split
  · exact .fail Standing.noConfusion
  · cases parcel.order with
    | error error => exact .fail Standing.noConfusion
    | ok order =>
        exact (careful_request (.addOrder parcel.owner parcel.id order time)).bind
          fun _ _ h => .done h

theorem careful_tryRefund (owner id : UInt64) : Careful Unmarred .clean (tryRefund owner id) := by
  refine careful_read rfl fun record => ?_
  split
  · exact .fail Standing.noConfusion
  · split
    · exact .fail Standing.noConfusion
    · rw [Call.now_bind]
      refine .readClock Standing.noConfusion fun time => ?_
      rw [later_bind]
      split
      · split
        · exact .fail Standing.noConfusion
        · exact careful_request (.addRefund owner id record.order time)
      · exact .crash Standing.noConfusion

theorem careful_trySendBack (id : UInt64) : Careful Unmarred .clean (trySendBack id) := by
  refine careful_read rfl fun record => ?_
  rw [Call.now_bind]
  refine .readClock Standing.noConfusion fun time => ?_
  cases record.status with
  | returned => exact careful_request (.removeRefund id time)
  | accepted =>
      refine careful_read rfl fun expires => ?_
      rw [later_bind]
      split
      · split
        · exact .fail Standing.noConfusion
        · exact careful_request (.removeOrders [id] .issuedToCourier time)
      · exact .crash Standing.noConfusion
  | issuedToClient | issuedToCourier => exact .fail Standing.noConfusion

/-- Checks go on after a request that has failed. If nothing had gone wrong before them, what they
come to tells of it. -/
structure Checks (standing : Standing) (tells : α → Prop) (after : Standing) (value : α) :
    Prop where
  unchanged : after ≠ .changed
  told : standing = .clean → after = .marred → tells value

theorem Checks.same {tells : α → Prop} (h : standing ≠ .changed) (value : α) :
    Checks standing tells standing value :=
  ⟨h, fun hclean hmarred => Standing.noConfusion (hclean.symm.trans hmarred)⟩

theorem Checks.marred {tells : α → Prop} {value : α} (h : tells value) :
    Checks standing tells .marred value :=
  ⟨Standing.noConfusion, fun _ _ => h⟩

theorem careful_checkGive (today : Date) (owner : Option UInt64) (id : UInt64)
    (hstanding : standing ≠ .changed) :
    Careful (Checks standing fun checked => checked.2 ≠ none) standing
      (checkGive today owner id) := by
  rw [checkGive, Call.attempt_request_bind]
  refine .read hstanding rfl (fun record => ?_) fun error =>
    .done (.marred (Option.some_ne_none error))
  dsimp only
  split
  · exact .done (.same hstanding _)
  · split
    · exact .done (.same hstanding _)
    · rw [Call.attempt_request_bind]
      refine .read hstanding rfl (fun expires => ?_) fun error =>
        .done (.marred (Option.some_ne_none error))
      dsimp only
      split
      · exact .done (.same hstanding _)
      · rw [Call.attempt_request_bind]
        exact .read hstanding rfl (fun _ => .done (.same hstanding _)) fun error =>
          .done (.marred (Option.some_ne_none error))

theorem careful_checkBatch (today : Date) (owner : Option UInt64) (ids : List UInt64)
    (hstanding : standing ≠ .changed) :
    Careful (Checks standing fun errors => errors ≠ []) standing
      (checkBatch today owner ids) := by
  induction ids generalizing owner standing with
  | nil => exact .done (.same hstanding [])
  | cons id rest ih =>
      rw [checkBatch]
      refine (careful_checkGive today owner id hstanding).bind ?_
      rintro between ⟨batch, error⟩ hfirst
      refine (ih batch hfirst.unchanged).bind fun after errors hrest => ?_
      refine .done ⟨hrest.unchanged, fun hclean hmarred hnone => ?_⟩
      obtain ⟨herror, herrors⟩ := List.append_eq_nil_iff.1 hnone
      cases between with
      | clean => exact hrest.told rfl hmarred herrors
      | marred => exact hfirst.told hclean rfl (Option.toList_eq_nil_iff.1 herror)
      | changed => exact hfirst.unchanged rfl

theorem careful_tryGive (ids : List UInt64) : Careful Unmarred .clean (tryGive ids) := by
  rw [tryGive]
  split
  · exact .fail Standing.noConfusion
  · rw [Call.now_bind]
    refine .readClock Standing.noConfusion fun first => ?_
    refine (careful_checkBatch first.date none ids Standing.noConfusion).bind ?_
    intro standing errors hchecks
    cases errors with
    | cons error rest => exact .fail hchecks.unchanged
    | nil =>
        cases standing with
        -- A request that failed would have left an error in the batch.
        | marred => exact absurd rfl (hchecks.told rfl rfl)
        | changed => exact absurd rfl hchecks.unchanged
        | clean =>
            dsimp only
            rw [Call.now_bind]
            exact .readClock Standing.noConfusion fun time =>
              careful_request (.removeOrders ids .issuedToClient time)

theorem careful_orders (owner first limit : UInt64) :
    Careful Unmarred .clean (orders owner first limit) :=
  careful_read rfl fun slots => by
    split
    · exact .fail Standing.noConfusion
    · exact .done Standing.noConfusion

theorem careful_refunds (page size : UInt64) : Careful Unmarred .clean (refunds page size) :=
  careful_read rfl fun slots => by
    split
    · exact .fail Standing.noConfusion
    · exact .done Standing.noConfusion

/-! ## What is announced of a call -/

def tidings (kind : Status) (time : Instant) (ids : List UInt64) : Reply α → List Event
  | .ok _ => [⟨kind, time, ids, none⟩]
  | .error (.error error) =>
      if error.isServiceError then [⟨kind, time, ids, some error.message⟩] else []
  | .error (.crash _) => []

theorem tidings_map (kind : Status) (time : Instant) (ids : List UInt64) (f : α → β)
    (reply : Reply α) : tidings kind time ids (reply.map f) = tidings kind time ids reply := by
  rcases reply with (error | cause) | value <;> rfl

variable {σ : Type}

theorem run_announced (serve : Server σ) (time : Instant) (kind : Status) (ids : List UInt64)
    (call : Call α) (state : σ) :
    (announced kind ids call).run serve time state =
      { call.run serve time state with
        news := (call.run serve time state).news ++
          tidings kind time ids (call.run serve time state).reply } := by
  change (call.attempt.bind _).run serve time state = _
  induction call generalizing state with
  | done value => rfl
  | fail error =>
      change (if error.isServiceError then Call.announce kind ids (some error.message)
        (.fail error) else .fail error).run serve time state = _
      cases herror : error.isServiceError with
      | false => simp [Call.run, tidings, Reply.fail, herror]
      | true => simp [Call.run, tidings, Reply.fail, herror]
  | crash cause => rfl
  | readClock next ih => exact ih time state
  | announce other others error next ih =>
      simp only [Call.attempt, Call.bind, Call.run, ih, List.cons_append]
  | ask request next ih =>
      simp only [Call.attempt, Call.bind, Call.run]
      rcases serve request state with ⟨(error | cause) | answer, after⟩
      · exact ih (.error error) after
      · rfl
      · exact ih (.ok answer) after

@[simp] theorem reply_announced (serve : Server σ) (time : Instant) (kind : Status)
    (ids : List UInt64) (call : Call α) (state : σ) :
    ((announced kind ids call).run serve time state).reply = (call.run serve time state).reply := by
  rw [run_announced]

@[simp] theorem state_announced (serve : Server σ) (time : Instant) (kind : Status)
    (ids : List UInt64) (call : Call α) (state : σ) :
    ((announced kind ids call).run serve time state).state = (call.run serve time state).state := by
  rw [run_announced]

theorem looksBy_announced (serve : Server σ) (clock : Nat → Instant) (kind : Status)
    (ids : List UInt64) (call : Call α) (state : σ) :
    (announced kind ids call).looksBy serve clock state = call.looksBy serve clock state := by
  change (call.attempt.bind _).looksBy serve clock state = _
  induction call generalizing clock state with
  | done value => rfl
  | fail error =>
      change (if error.isServiceError then Call.announce kind ids (some error.message)
        (.fail error) else .fail error).looksBy serve clock state = _
      split <;> rfl
  | crash cause => rfl
  | readClock next ih => exact congrArg _ (ih (clock 0) _ state)
  | announce other others error next ih => exact ih _ state
  | ask request next ih =>
      simp only [Call.attempt, Call.bind, Call.looksBy]
      rcases serve request state with ⟨(error | cause) | answer, after⟩
      · exact ih (.error error) clock after
      · rfl
      · exact ih (.ok answer) clock after

theorem run_announced_map {serve : Server σ} {time : Instant} {call : Call α} {state : σ}
    (hcall : Careful Unmarred .clean call) (kind : Status) (ids : List UInt64) (f : α → β) :
    (announced kind ids call >>= fun value => pure (f value)).run serve time state =
      { (call >>= fun value => pure (f value)).run serve time state with
        news := tidings kind time ids
          ((call >>= fun value => pure (f value)).run serve time state).reply } := by
  rw [Call.run_map, Call.run_map, run_announced, hcall.news_eq_nil, List.nil_append, tidings_map]

end Desk

namespace Deed

def issue (ids : List UInt64) : Call (List UInt64) := do
  Desk.tryGive ids
  return ids

def attempted : Deed → Call Receipt
  | .accept parcel => do
      let order ← Desk.tryAccept parcel
      return .priced order
  | .give ids => do
      let given ← issue (distinct ids)
      return .given given
  | .refund owner id => do
      Desk.tryRefund owner id
      return .done
  | .sendBack id => do
      Desk.trySendBack id
      return .done

theorem careful_issue (ids : List UInt64) : Careful Unmarred .clean (issue ids) :=
  (Desk.careful_tryGive ids).map fun _ => ids

theorem careful_attempted (deed : Deed) : Careful Unmarred .clean deed.attempted := by
  cases deed with
  | accept parcel => exact (Desk.careful_tryAccept parcel).map Receipt.priced
  | give ids => exact (careful_issue (distinct ids)).map Receipt.given
  | refund owner id => exact (Desk.careful_tryRefund owner id).map fun _ => Receipt.done
  | sendBack id => exact (Desk.careful_trySendBack id).map fun _ => Receipt.done

/-- A deed is attempted, and what became of it is announced of its orders, each named once. -/
theorem run_call {σ : Type} (deed : Deed) (serve : Server σ) (time : Instant) (state : σ) :
    deed.call.run serve time state =
      { deed.attempted.run serve time state with
        news := Desk.tidings deed.stage time (distinct deed.ids)
          (deed.attempted.run serve time state).reply } := by
  cases deed with
  | accept parcel => exact Desk.run_announced_map (Desk.careful_tryAccept parcel) _ _ Receipt.priced
  | give ids => exact Desk.run_announced_map (careful_issue (distinct ids)) _ _ Receipt.given
  | refund owner id =>
      exact Desk.run_announced_map (Desk.careful_tryRefund owner id) _ _ fun _ => Receipt.done
  | sendBack id =>
      exact Desk.run_announced_map (Desk.careful_trySendBack id) _ _ fun _ => Receipt.done

theorem looksBy_call {σ : Type} (deed : Deed) (serve : Server σ) (clock : Nat → Instant)
    (state : σ) : ∃ count, deed.call.looksBy serve clock state = (List.range count).map clock := by
  have hsame : deed.call.looksBy serve clock state = deed.attempted.looksBy serve clock state := by
    cases deed with
    | accept parcel | give ids | refund owner id | sendBack id =>
        exact (Call.looksBy_map _ _ _ _).trans
          ((Desk.looksBy_announced _ _ _ _ _ _).trans (Call.looksBy_map _ _ _ _).symm)
  rw [hsame]
  exact deed.careful_attempted.looksBy_eq serve clock state

end Deed

/-! ## No trace -/

namespace Stock

/-- A stock that is sound is changed by a change that succeeds and by nothing else. -/
theorem Sound.steady {stock : Stock} (h : stock.Sound) : Server.Steady Stock.serve stock := by
  intro request hread
  obtain ⟨answer, after, hchanges, -, hserve⟩ | ⟨answer, -, hserve⟩ | ⟨error, hserve⟩ :=
    h.serve_cases request
  · cases hchanges.symm.trans (hread answer (congrArg Prod.fst hserve))
  · rw [hserve]
  · rw [hserve]

end Stock

namespace Service

variable {σ : Type}

def attempted : Service → Call (Receipt ⊕ List Slot)
  | .deed asked => do
      let receipt ← asked.attempted
      return .inl receipt
  | .orders owner first limit => do
      let slots ← Desk.orders owner first limit
      return .inr slots
  | .refunds page size => do
      let slots ← Desk.refunds page size
      return .inr slots

theorem careful_attempted (service : Service) : Careful Unmarred .clean service.attempted := by
  cases service with
  | deed asked => exact asked.careful_attempted.map Sum.inl
  | orders owner first limit => exact (Desk.careful_orders owner first limit).map Sum.inr
  | refunds page size => exact (Desk.careful_refunds page size).map Sum.inr

theorem run_call (service : Service) (serve : Server σ) (time : Instant) (state : σ) :
    (service.call.run serve time state).reply =
        (service.attempted.run serve time state).reply ∧
      (service.call.run serve time state).state =
        (service.attempted.run serve time state).state := by
  cases service with
  | deed asked =>
      rw [call, attempted, Call.run_map, Call.run_map, asked.run_call]
      exact ⟨rfl, rfl⟩
  | orders owner first limit | refunds page size => exact ⟨rfl, rfl⟩

/-- A call that was made on a stock has failed and changed nothing, or it has the reply and the
effect that it has where nothing fails and nobody is told. -/
inductive Traceless (service : Service) (time : Instant) (stock : Stock) :
    Reply (Receipt ⊕ List Slot) → Stock → Prop where
  | failed (stop : Stop) : Traceless service time stock (.error stop) stock
  | done (value : Receipt ⊕ List Slot) (after : Stock)
      (h : service.call.runTo Stock.serve none time stock () = (.ok value, after, ())) :
      Traceless service time stock (.ok value) after

/-- Who is told of a call makes no difference to its reply and its effect, and neither does the
announcement. -/
theorem runTo_call {ω : Type} (service : Service) (serve : Server σ)
    (sink : Option (Call.Sink ω)) (time : Instant) (state : σ) (hearer : ω) :
    (service.call.runTo serve sink time state hearer).1 =
        (service.attempted.run serve time state).reply ∧
      (service.call.runTo serve sink time state hearer).2.1 =
        (service.attempted.run serve time state).state := by
  obtain ⟨hreply, hstate⟩ := Call.runTo_eq_run serve sink time service.call state hearer
  obtain ⟨hsame, hafter⟩ := service.run_call serve time state
  exact ⟨hreply.trans hsame, hstate.trans hafter⟩

/-- Whatever was done at the desk before, whichever methods of the store fail, and whoever is told
and fails: a call that fails leaves no trace, and one that succeeds leaves none of the failures. -/
theorem traceless {ω : Type} (past : List Move) (service : Service) (methods : List String)
    (detail : String) (sink : Option (Call.Sink ω)) (time : Instant) (hearer : ω) :
    let stock := ((Counter.opened .empty).run past).stock
    let ran := service.call.runTo (Stock.serve.failing methods detail) sink time stock hearer
    service.Traceless time stock ran.1 ran.2.1 := by
  have hsettled := ((Counter.kept_opened Stock.settled_empty).run past).settled
  generalize ((Counter.opened .empty).run past).stock = stock at hsettled
  have hfalters := Server.falters_failing methods detail Stock.serve
  obtain ⟨hreply, hstate⟩ :=
    service.runTo_call (Stock.serve.failing methods detail) sink time stock hearer
  obtain ⟨hplain, hafter⟩ := service.runTo_call Stock.serve none time stock ()
  dsimp only
  rw [hreply, hstate]
  rcases service.careful_attempted.run_falters rfl (fun _ hmarred => hmarred rfl) hfalters
    stock hsettled.toSound.steady time with ⟨stop, hstop, hsame⟩ | ⟨value, hvalue, hclean, hsame⟩
  · rw [id, id] at hsame
    rw [hstop, hsame]
    exact .failed stop
  · rw [hvalue]
    exact .done value _ (Prod.ext (hplain.trans hclean) (Prod.ext (hafter.trans hsame) rfl))

end Service

end ParcelDesk
