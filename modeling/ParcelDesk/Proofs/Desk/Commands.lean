import ParcelDesk.Proofs.Desk.Counter
import ParcelDesk.Proofs.Desk.Replay

/-!
# Commands

A command is a deed whose receipt is told in words, or a glance: one request that changes nothing
and is told in words right away. A command that was told as a success has done something once, and
alone, on the stock right before that, it does the same and is told the same.
-/

namespace ParcelDesk

namespace Call

theorem map_map (call : Call α) (f : α → β) (g : β → γ) :
    (call >>= fun value => pure (f value)) >>= (fun value => pure (g value)) =
      call >>= fun value => pure (g (f value)) := by
  change (call.bind fun value => .done (f value)).bind (fun value => .done (g value)) =
    call.bind fun value => .done (g (f value))
  induction call with
  | done value => rfl
  | fail error => rfl
  | crash cause => rfl
  | readClock next ih => exact congrArg Call.readClock (funext ih)
  | ask request next ih => exact congrArg (Call.ask request) (funext ih)
  | announce kind ids error next ih => exact congrArg (Call.announce kind ids error) ih

/-- A call that asks one thing, changes nothing, and is over once it is answered. -/
def IsGlance (call : Call α) : Prop :=
  ∃ request next, call = .ask request next ∧ request.changes = false ∧
    ∀ answer, ∃ result, next answer = ofExcept result

namespace IsGlance

variable {call : Call α}

theorem advance (h : call.IsGlance) (time : Instant) (stock : Stock) :
    ∃ result, call.advance Stock.serve time stock = (ofExcept result, stock) ∧
      ∀ value, result = .ok value → call.Yields Stock.serve time stock value stock := by
  obtain ⟨request, next, rfl, hread, hnext⟩ := h
  obtain ⟨answer, hserve⟩ := Stock.serve_of_read hread stock
  obtain ⟨result, hresult⟩ := hnext answer
  refine ⟨result, ?_, ?_⟩
  · rw [← hresult]
    cases answer with
    | ok answer => exact advance_ask_ok hserve time
    | error error => exact advance_ask_fail hserve time
  · rintro value rfl
    have hlast : (next answer).Yields Stock.serve time stock value stock := by
      rw [hresult]
      exact .done
    cases answer with
    | ok answer => exact .answered hserve hlast
    | error error => exact .refused hserve hlast

theorem keeps (h : call.IsGlance) (stock : Stock) (diary : Diary Stock) :
    call.Keeps Desk.rules (fun _ _ _ => True) stock diary := by
  obtain ⟨request, next, rfl, hread, hnext⟩ := h
  have hover (answer : Except Error request.Answer) (later : Stock) :
      (next answer).Keeps Desk.rules (fun _ _ _ => True) later diary := by
    obtain ⟨result, hresult⟩ := hnext answer
    rw [hresult]
    cases result with
    | ok value => exact .done True.intro
    | error error => exact .fail True.intro
  exact Desk.keeps_read hread (fun later answer _ _ _ => hover (.ok answer) later)
    fun later error _ _ _ => hover (.error error) later

end IsGlance

end Call

namespace Deed

def command : Deed → Command
  | .accept parcel => .accept parcel
  | .give ids => .give ids
  | .refund owner id => .refund owner id
  | .sendBack id => .sendBack id

def words : Deed → Receipt → String
  | _, .priced order => s!"accepted: cost {order.cost} package {order.label}"
  | _, .given ids => "issued to client: " ++ String.ofList (Command.idList ids)
  | .sendBack _, .done => "issued to courier"
  | _, .done => "returned"

theorem execute_command (deed : Deed) :
    Desk.execute deed.command = deed.call >>= fun receipt => pure (deed.words receipt) := by
  cases deed with
  | accept parcel =>
      exact (Call.map_map (Desk.accept parcel) Receipt.priced (words (.accept parcel))).symm
  | give ids => exact (Call.map_map (Desk.give ids) Receipt.given (words (.give ids))).symm
  | refund owner id =>
      exact (Call.map_map (Desk.refund owner id) (fun _ => .done) (words (.refund owner id))).symm
  | sendBack id =>
      exact (Call.map_map (Desk.sendBack id) (fun _ => .done) (words (.sendBack id))).symm

def Reported (deed : Deed) (reply : Reply String) (stock : Stock) (diary : Diary Stock) : Prop :=
  ∃ told : Reply Receipt, reply = told.map deed.words ∧ deed.Ends told stock diary

namespace Reported

variable {deed : Deed} {stock : Stock} {looks : List Instant} {pages : List (Mutation Stock)}

theorem later {reply : Reply String} {diary : Diary Stock} (h : deed.Reported reply stock diary)
    (after : Stock) : deed.Reported reply after diary := by
  obtain ⟨told, hreply, hends⟩ := h
  exact ⟨told, hreply, hends.later after⟩

/-- A deed that is told as a success has made one change, and alone, on the stock right before it,
it makes the same change and is told the same. -/
theorem success {text : String} {time : Instant} (h : deed.Reported (.ok text) stock ⟨looks, pages⟩)
    (hstill : ∀ look ∈ looks, look = time) :
    ∃ page, pages = [page] ∧ (page.before.Settled →
      (Desk.execute deed.command).Yields Stock.serve time page.before text page.after) := by
  obtain ⟨told, htold, hends⟩ := h
  cases told with
  | error stop => cases htold
  | ok receipt =>
      cases htold
      obtain ⟨page, hpages, hsuccess⟩ := hends
      refine ⟨page, hpages, fun hsettled => ?_⟩
      rw [execute_command]
      exact (hsuccess.yields hsettled hstill).bind .done

theorem failure {stop : Stop} (h : deed.Reported (.error stop) stock ⟨looks, pages⟩) :
    pages = [] := by
  obtain ⟨told, htold, hends⟩ := h
  cases told with
  | ok receipt => cases htold
  | error stop => exact hends.1

end Reported

end Deed

namespace Desk

theorem execute_reported (deed : Deed) (stock : Stock) :
    (execute deed.command).Keeps rules deed.Reported stock {} := by
  rw [Deed.execute_command]
  exact Call.Keeps.map ((deed_ends deed stock).weaken fun reply _ _ hends => ⟨reply, rfl, hends⟩)

theorem isGlance_orders (owner first limit : UInt64) :
    (execute (.orders owner first limit)).IsGlance := by
  refine ⟨.orders owner first limit, _, rfl, rfl, ?_⟩
  rintro (error | slots)
  · exact ⟨.error error, rfl⟩
  · cases slots with
    | nil => exact ⟨.error _, rfl⟩
    | cons slot rest => exact ⟨.ok _, rfl⟩

theorem isGlance_refunds (page size : UInt64) : (execute (.refunds page size)).IsGlance := by
  refine ⟨.refunds page size, _, rfl, rfl, ?_⟩
  rintro (error | slots)
  · exact ⟨.error error, rfl⟩
  · cases slots with
    | nil => exact ⟨.error _, rfl⟩
    | cons slot rest => exact ⟨.ok _, rfl⟩

theorem deed_or_glance (command : Command) :
    (∃ deed : Deed, deed.command = command) ∨ (execute command).IsGlance := by
  cases command with
  | accept parcel => exact .inl ⟨.accept parcel, rfl⟩
  | refund owner id => exact .inl ⟨.refund owner id, rfl⟩
  | give ids => exact .inl ⟨.give ids, rfl⟩
  | sendBack id => exact .inl ⟨.sendBack id, rfl⟩
  | orders owner first limit => exact .inr (isGlance_orders owner first limit)
  | refunds page size => exact .inr (isGlance_refunds page size)

theorem execute_keeps (command : Command) (stock : Stock) :
    (execute command).Keeps rules (fun _ _ _ => True) stock {} := by
  obtain ⟨deed, rfl⟩ | hglance := deed_or_glance command
  · exact (execute_reported deed stock).weaken fun _ _ _ _ => True.intro
  · exact hglance.keeps stock {}

end Desk

namespace Command

def inTurn (time : Instant) : List Command → Stock → List (Reply String) × Stock
  | [], stock => ([], stock)
  | command :: rest, stock =>
      let ran := (Desk.execute command).run Stock.serve time stock
      let (replies, final) := inTurn time rest ran.state
      (ran.reply :: replies, final)

theorem inTurn_cons {time : Instant} {command : Command} {rest : List Command}
    {stock middle final : Stock} {text : String} {replies : List (Reply String)}
    (h : (Desk.execute command).Yields Stock.serve time stock text middle)
    (hrest : inTurn time rest middle = (replies, final)) :
    inTurn time (command :: rest) stock = (.ok text :: replies, final) := by
  obtain ⟨hreply, hstate⟩ := h.run_eq
  rw [inTurn, hstate, hreply]
  simp only
  rw [hrest]

end Command

end ParcelDesk
