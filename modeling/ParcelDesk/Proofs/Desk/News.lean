import ParcelDesk.Proofs.Desk.Faults
import ParcelDesk.Proofs.Desk.Listings

/-!
# News

The history can be read off the news that were told: an order has the status, since the time, of the
last event without an error that names it. What became of a call of the desk is told in one event,
if it changed something or if the engine is to blame.
-/

namespace ParcelDesk

/-! ## Who is to blame -/

namespace Error

/-- Something below the engine has failed, perhaps as one failure of several. -/
inductive HasFailure : Error → Prop where
  | failed (source : Source) (detail : String) : HasFailure (.failed source detail)
  | batch {members : List Error} {error : Error} (hmem : error ∈ members)
      (h : error.HasFailure) : HasFailure (.batch members)

mutual

theorem isServiceError_iff : (error : Error) → (error.isServiceError = true ↔ error.HasFailure)
  | .refused reason detail => by
      constructor
      · intro h
        cases h
      · intro h
        cases h
  | .batch members => by
      rw [isServiceError, anyServiceError_iff members]
      constructor
      · rintro ⟨error, hmem, h⟩
        exact .batch hmem h
      · intro h
        cases h with
        | batch hmem h => exact ⟨_, hmem, h⟩
  | .failed source detail => ⟨fun _ => .failed source detail, fun _ => rfl⟩

theorem anyServiceError_iff : (errors : List Error) →
    (anyServiceError errors = true ↔ ∃ error ∈ errors, error.HasFailure)
  | [] => by
      constructor
      · intro h
        cases h
      · rintro ⟨error, hmem, -⟩
        cases hmem
  | error :: rest => by
      rw [anyServiceError, Bool.or_eq_true, isServiceError_iff error, anyServiceError_iff rest,
        List.exists_mem_cons_iff]

end

end Error

/-! ## What the news say of an order -/

namespace Event

def brings (id : UInt64) (event : Event) : Bool :=
  event.error.isNone && event.ids.contains id

/-- The last stage to which an order has come, and the time. -/
def lastStage? (id : UInt64) (events : List Event) : Option (Status × Instant) :=
  (events.filter (brings id)).getLast?.map fun event => (event.kind, event.time)

theorem lastStage?_append (id : UInt64) (events news : List Event) :
    lastStage? id (events ++ news) = (lastStage? id news).or (lastStage? id events) := by
  rw [lastStage?, List.filter_append, List.getLast?_append, Option.map_or]
  rfl

theorem lastStage?_error (id : UInt64) (kind : Status) (time : Instant) (ids : List UInt64)
    (error : String) : lastStage? id [⟨kind, time, ids, some error⟩] = none := rfl

theorem lastStage?_success (id : UInt64) (kind : Status) (time : Instant) (ids : List UInt64) :
    lastStage? id [⟨kind, time, ids, none⟩] = if id ∈ ids then some (kind, time) else none := by
  by_cases hid : id ∈ ids
  · simp [lastStage?, brings, hid]
  · simp [lastStage?, brings, hid]

end Event

namespace Stock

/-- The stage of an order and the time since when it has been there. -/
def stage? (stock : Stock) (id : UInt64) : Option (Status × Instant) :=
  (stock.history.get? id).map fun record => (record.status, record.changed)

theorem stage?_of_moved {stock after : Stock} {id : UInt64} {status : Status} {time : Instant}
    {touched : Prop} [Decidable touched]
    (hknown : touched → ∃ record, stock.history.get? id = some record)
    (hafter : after.history.get? id =
      if touched then (stock.history.get? id).map (·.moved status time)
      else stock.history.get? id) :
    after.stage? id = if touched then some (status, time) else stock.stage? id := by
  rw [stage?, hafter]
  split
  next htouched =>
    obtain ⟨record, hrecord⟩ := hknown htouched
    rw [hrecord]
    rfl
  next => rfl

end Stock

/-! ## What a call tells -/

/-- What a deed may tell when it has ended: its orders in ascending order, each once, with its stage
and the time; and the error, if the engine is to blame. It tells nothing if it was merely turned
down. -/
inductive Deed.Tells (deed : Deed) (time : Instant) :
    Reply (Receipt ⊕ List Slot) → List Event → Prop where
  | success (value : Receipt ⊕ List Slot) (ids : List UInt64) (hascending : ids.Pairwise (· < ·))
      (hids : ∀ id, id ∈ ids ↔ id ∈ deed.ids) :
      Tells deed time (.ok value) [⟨deed.stage, time, ids, none⟩]
  | failure (error : Error) (herror : error.HasFailure) (ids : List UInt64)
      (hascending : ids.Pairwise (· < ·)) (hids : ∀ id, id ∈ ids ↔ id ∈ deed.ids) :
      Tells deed time (Reply.fail error) [⟨deed.stage, time, ids, some error.message⟩]
  | refusal (error : Error) (herror : ¬error.HasFailure) : Tells deed time (Reply.fail error) []
  | crash (cause : Crash) : Tells deed time (.error (.crash cause)) []

theorem Deed.tells_tidings (deed : Deed) (time : Instant) (reply : Reply Receipt) :
    deed.Tells time (reply.map Sum.inl)
      (Desk.tidings deed.stage time (distinct deed.ids) reply) := by
  rcases reply with (error | cause) | receipt
  · rw [Desk.tidings]
    split
    next h =>
      exact .failure error ((Error.isServiceError_iff error).1 h) _ (ascending_distinct deed.ids)
        fun id => mem_distinct
    next h => exact .refusal error fun herror => h ((Error.isServiceError_iff error).2 herror)
  · exact .crash cause
  · exact .success _ _ (ascending_distinct deed.ids) fun id => mem_distinct

/-- A call with the time at which it was made, the reply that it got and the news that it told. -/
structure Account where
  service : Service
  time : Instant
  reply : Reply (Receipt ⊕ List Slot)
  news : List Event

inductive Account.Proper : Account → Prop where
  | deed (deed : Deed) (time : Instant) (reply : Reply (Receipt ⊕ List Slot)) (news : List Event)
      (h : deed.Tells time reply news) : Proper ⟨.deed deed, time, reply, news⟩
  | orders (owner first limit : UInt64) (time : Instant) (reply : Reply (Receipt ⊕ List Slot)) :
      Proper ⟨.orders owner first limit, time, reply, []⟩
  | refunds (page size : UInt64) (time : Instant) (reply : Reply (Receipt ⊕ List Slot)) :
      Proper ⟨.refunds page size, time, reply, []⟩

namespace Desk

/-- Calls made one after the other, each at its time, while requests to the store may fail at any
time. -/
def accounts (faults : Nat → Request → Option String) :
    List (Service × Instant) → Stock × Nat → List Account × (Stock × Nat)
  | [], state => ([], state)
  | (service, time) :: rest, state =>
      let ran := service.call.run (Stock.serve.faltering faults) time state
      let (later, final) := accounts faults rest ran.state
      (⟨service, time, ran.reply, ran.news⟩ :: later, final)

end Desk

/-- A deed that succeeds brings its orders to its stage at the time that it reads off the clock
last, and leaves all others where they are. -/
theorem Deed.Success.stage?_eq {deed : Deed} {receipt : Receipt} {looks : List Instant}
    {request : Request} {before after : Stock}
    (h : deed.Success receipt looks ⟨request, before, after⟩) :
    ∃ time, looks.getLast? = some time ∧ ∀ id,
      after.stage? id = if id ∈ deed.ids then some (deed.stage, time) else before.stage? id := by
  cases h with
  | accept hfresh horder hnew =>
      refine ⟨_, rfl, fun id => ?_⟩
      rw [Stock.stage?, Stock.get?_register]
      simp only [ids, List.mem_singleton]
      split <;> rfl
  | @give _ _ first moment _ hsome hready =>
      refine ⟨moment, rfl, fun id => ?_⟩
      refine Stock.stage?_of_moved (fun hid => (hready id hid).imp fun record h => h.1) ?_
      rw [Stock.get?_releaseAll]
      exact if_congr mem_distinct rfl rfl
  | refund hrecord hstatus hlimit hintime =>
      refine ⟨_, rfl, fun id => ?_⟩
      refine Stock.stage?_of_moved (fun hid => ⟨_, List.mem_singleton.1 hid ▸ hrecord⟩) ?_
      rw [Stock.get?_enqueue]
      exact if_congr List.mem_singleton.symm rfl rfl
  | sendBackReturned hrecord hstatus =>
      refine ⟨_, rfl, fun id => ?_⟩
      refine Stock.stage?_of_moved (fun hid => ⟨_, List.mem_singleton.1 hid ▸ hrecord⟩) ?_
      rw [Stock.get?_dequeue]
      exact if_congr List.mem_singleton.symm rfl rfl
  | sendBackUnclaimed hrecord hstatus hlimit hlate =>
      refine ⟨_, rfl, fun id => ?_⟩
      refine Stock.stage?_of_moved (fun hid => ⟨_, List.mem_singleton.1 hid ▸ hrecord⟩) ?_
      rw [Stock.get?_releaseAll]
      exact if_congr Iff.rfl rfl rfl

namespace Desk

variable (faults : Nat → Request → Option String) {stock : Stock}

theorem lastStage?_tidings (id : UInt64) (kind : Status) (time : Instant) (ids : List UInt64)
    (stop : Stop) :
    Event.lastStage? id (tidings kind time ids (.error stop : Reply Receipt)) = none := by
  rcases stop with error | cause
  · rw [tidings]
    split
    · exact Event.lastStage?_error id kind time ids _
    · rfl
  · rfl

theorem deed_run (deed : Deed) (hsettled : stock.Settled) (time : Instant) (count : Nat) :
    (deed.call.run (Stock.serve.faltering faults) time (stock, count)).state.1.Settled ∧
      (∀ id, (deed.call.run (Stock.serve.faltering faults) time (stock, count)).state.1.stage? id =
        (Event.lastStage? id
          (deed.call.run (Stock.serve.faltering faults) time (stock, count)).news).or
            (stock.stage? id)) := by
  have hfalters := Server.falters_faltering faults Stock.serve
  rw [deed.run_call]
  rcases deed.careful_attempted.run_falters rfl (fun _ hmarred => hmarred rfl) hfalters
    (stock, count) hsettled.toSound.steady time with
    ⟨stop, hreply, hstate⟩ | ⟨receipt, hreply, hplain, hstate⟩
  · dsimp only at hstate ⊢
    rw [hstate, hreply]
    refine ⟨hsettled, fun id => ?_⟩
    rw [lastStage?_tidings, Option.none_or]
  · dsimp only at hstate hplain ⊢
    rw [hreply, ← hstate]
    -- What succeeds above faults is what succeeds without them, so the deed has kept its promise.
    have hends := deed.ends_runBy hsettled fun _ => time
    rw [Call.runBy_still, deed.run_call] at hends
    dsimp only at hends
    rw [hplain] at hends
    obtain ⟨hafter, ⟨_, request, heq, hsuccess⟩ | ⟨stop, heq, -⟩⟩ := hends
    · obtain ⟨moment, hmoment, hstage⟩ := hsuccess.stage?_eq
      obtain ⟨-, rfl⟩ := Call.eq_of_mem_looksBy (List.mem_of_getLast? hmoment)
      refine ⟨hafter, fun id => ?_⟩
      rw [hstage, tidings, Event.lastStage?_success]
      simp only [mem_distinct]
      split <;> rfl
    · cases heq

theorem listing_run {call : Call α} {time : Instant} (hcareful : Call.Careful Unmarred .clean call)
    (hstill : (call.run Stock.serve time stock).state = stock) (hsettled : stock.Settled)
    (count : Nat) :
    (call.run (Stock.serve.faltering faults) time (stock, count)).state.1 = stock ∧
      (call.run (Stock.serve.faltering faults) time (stock, count)).news = [] := by
  refine ⟨?_, hcareful.news_eq_nil _ time _⟩
  have hfalters := Server.falters_faltering faults Stock.serve
  rcases hcareful.run_falters rfl (fun _ hmarred => hmarred rfl) hfalters (stock, count)
    hsettled.toSound.steady time with ⟨stop, -, hstate⟩ | ⟨value, -, -, hstate⟩
  · exact hstate
  · exact hstate.symm.trans hstill

theorem service_run (service : Service) (hsettled : stock.Settled) (time : Instant) (count : Nat) :
    let ran := service.call.run (Stock.serve.faltering faults) time (stock, count)
    ran.state.1.Settled ∧
      (∀ id, ran.state.1.stage? id = (Event.lastStage? id ran.news).or (stock.stage? id)) ∧
      Account.Proper ⟨service, time, ran.reply, ran.news⟩ := by
  cases service with
  | deed deed =>
      rw [Service.call, Call.run_map]
      obtain ⟨hafter, hstage⟩ := deed_run faults deed hsettled time count
      refine ⟨hafter, hstage, .deed deed time _ _ ?_⟩
      rw [deed.run_call]
      exact deed.tells_tidings time _
  | orders owner first limit =>
      rw [Service.call, Call.run_map]
      have hstill := state_orders stock owner first limit fun _ => time
      rw [Call.runBy_still] at hstill
      obtain ⟨hstate, hnews⟩ := listing_run faults (careful_orders owner first limit)
        hstill hsettled count
      dsimp only
      rw [hstate, hnews]
      exact ⟨hsettled, fun id => rfl, .orders owner first limit time _⟩
  | refunds page size =>
      rw [Service.call, Call.run_map]
      have hstill := state_refunds stock page size fun _ => time
      rw [Call.runBy_still] at hstill
      obtain ⟨hstate, hnews⟩ := listing_run faults (careful_refunds page size)
        hstill hsettled count
      dsimp only
      rw [hstate, hnews]
      exact ⟨hsettled, fun id => rfl, .refunds page size time _⟩

theorem accounts_tell (calls : List (Service × Instant)) (hsettled : stock.Settled) (count : Nat) :
    (∀ id, (accounts faults calls (stock, count)).2.1.stage? id =
        (Event.lastStage? id
          ((accounts faults calls (stock, count)).1.flatMap Account.news)).or (stock.stage? id)) ∧
      ∀ account ∈ (accounts faults calls (stock, count)).1, account.Proper := by
  induction calls generalizing stock count with
  | nil => exact ⟨fun id => rfl, List.forall_mem_nil _⟩
  | cons call rest ih =>
      obtain ⟨service, time⟩ := call
      obtain ⟨hafter, hstage, hproper⟩ := service_run faults service hsettled time count
      obtain ⟨hrest, hothers⟩ := ih hafter
        (service.call.run (Stock.serve.faltering faults) time (stock, count)).state.2
      refine ⟨fun id => ?_, List.forall_mem_cons.2 ⟨hproper, hothers⟩⟩
      rw [accounts, List.flatMap_cons, Event.lastStage?_append, Option.or_assoc, ← hstage id]
      exact hrest id

/-- From an empty stock on, whichever requests fail and whatever the time of each call is: the
history has every order where the last news of it say, and every call has told what it had to. -/
theorem history_eq_news (faults : Nat → Request → Option String)
    (calls : List (Service × Instant)) :
    let (told, stock, _) := accounts faults calls (.empty, 0)
    (∀ id, (stock.history.get? id).map (fun record => (record.status, record.changed)) =
        Event.lastStage? id (told.flatMap Account.news)) ∧
      ∀ account ∈ told, account.Proper := by
  obtain ⟨hstage, hproper⟩ := accounts_tell faults calls Stock.settled_empty 0
  refine ⟨fun id => ?_, hproper⟩
  have hempty : Stock.empty.stage? id = none := rfl
  rw [← Option.or_none (o := Event.lastStage? id _), ← hempty]
  exact hstage id

end Desk

end ParcelDesk
