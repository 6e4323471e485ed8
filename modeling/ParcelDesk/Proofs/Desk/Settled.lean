import ParcelDesk.Proofs.Store.Requests

namespace ParcelDesk

namespace Status

def rank : Status → Nat
  | .accepted => 0
  | .issuedToClient => 1
  | .returned => 2
  | .issuedToCourier => 3

theorem rank_lt_of_leadsTo {first second : Status} (h : first.leadsTo second = true) :
    first.rank < second.rank := by
  revert h
  cases first <;> cases second <;> decide

theorem leadsTo_issuedToClient {status : Status} :
    status.leadsTo .issuedToClient = true ↔ status = .accepted := by
  cases status <;> decide

theorem leadsTo_returned {status : Status} :
    status.leadsTo .returned = true ↔ status = .issuedToClient := by
  cases status <;> decide

theorem leadsTo_of_issuedToClient {status : Status} :
    Status.issuedToClient.leadsTo status = true ↔ status = .returned := by
  cases status <;> decide

theorem leadsTo_of_isIssued {status : Status} (h : status.isIssued = true) :
    Status.accepted.leadsTo status = true := by
  cases status with
  | accepted => exact h
  | issuedToClient => rfl
  | issuedToCourier => rfl
  | returned => exact h

end Status

namespace Record

structure Moves (record later : Record) : Prop where
  owner_eq : later.owner = record.owner
  order_eq : later.order = record.order
  leadsTo : record.status.leadsTo later.status = true

structure Becomes (record later : Record) : Prop where
  owner_eq : later.owner = record.owner
  order_eq : later.order = record.order
  stage : later = record ∨ record.status.rank < later.status.rank

theorem Becomes.refl (record : Record) : record.Becomes record :=
  ⟨rfl, rfl, .inl rfl⟩

theorem Becomes.trans {first second third : Record} (hfirst : first.Becomes second)
    (hsecond : second.Becomes third) : first.Becomes third where
  owner_eq := hsecond.owner_eq.trans hfirst.owner_eq
  order_eq := hsecond.order_eq.trans hfirst.order_eq
  stage := by
    cases hsecond.stage with
    | inl hsame =>
        subst hsame
        exact hfirst.stage
    | inr hlater =>
        cases hfirst.stage with
        | inl hsame =>
            subst hsame
            exact .inr hlater
        | inr hearlier => exact .inr (Nat.lt_trans hearlier hlater)

theorem Moves.becomes {record later : Record} (h : record.Moves later) :
    record.Becomes later :=
  ⟨h.owner_eq, h.order_eq, .inr (Status.rank_lt_of_leadsTo h.leadsTo)⟩

theorem Becomes.eq_of_status {record later : Record} (h : record.Becomes later)
    (hstatus : later.status = record.status) : later = record := by
  cases h.stage with
  | inl hsame => exact hsame
  | inr hlater =>
      rw [hstatus] at hlater
      exact absurd hlater (Nat.lt_irrefl _)

theorem moves_moved {record : Record} {status : Status}
    (h : record.status.leadsTo status = true) (time : Instant) :
    record.Moves (record.moved status time) :=
  ⟨rfl, rfl, h⟩

end Record

namespace Stock

/-- Records may have been added, and each record there was may have moved by one step. -/
def Steps (stock after : Stock) : Prop :=
  ∀ id record, stock.history.get? id = some record →
    ∃ later, after.history.get? id = some later ∧ (later = record ∨ record.Moves later)

/-- Records may have been added, and each record there was may have moved on. -/
def Grows (stock after : Stock) : Prop :=
  ∀ id record, stock.history.get? id = some record →
    ∃ later, after.history.get? id = some later ∧ record.Becomes later

theorem Steps.refl (stock : Stock) : stock.Steps stock :=
  fun _ record hrecord => ⟨record, hrecord, .inl rfl⟩

theorem Grows.refl (stock : Stock) : stock.Grows stock :=
  fun _ record hrecord => ⟨record, hrecord, .refl record⟩

theorem Grows.trans {first second third : Stock} (hfirst : first.Grows second)
    (hsecond : second.Grows third) : first.Grows third := by
  intro id record hrecord
  obtain ⟨middle, hmiddle, hbecomes⟩ := hfirst id record hrecord
  obtain ⟨later, hlater, hbecomesLater⟩ := hsecond id middle hmiddle
  exact ⟨later, hlater, hbecomes.trans hbecomesLater⟩

theorem Steps.grows {stock after : Stock} (h : stock.Steps after) : stock.Grows after := by
  intro id record hrecord
  obtain ⟨later, hlater, hmoved⟩ := h id record hrecord
  refine ⟨later, hlater, ?_⟩
  cases hmoved with
  | inl hsame =>
      subst hsame
      exact .refl later
  | inr hmoves => exact hmoves.becomes

theorem Grows.deposit {stock after : Stock} (h : stock.Grows after) {id owner : UInt64}
    {order : Order} (hdeposit : stock.deposit id = some (owner, order)) :
    after.deposit id = some (owner, order) := by
  obtain ⟨record, hrecord, rfl, rfl⟩ := deposit_eq_some.1 hdeposit
  obtain ⟨later, hlater, hbecomes⟩ := h id record hrecord
  exact deposit_eq_some.2 ⟨later, hlater, hbecomes.owner_eq, hbecomes.order_eq⟩

/-! While only the desk asks, the stages agree with the lists: an order is accepted exactly while
its place with its owner is live, and returned exactly while its place in the queue is. -/

structure Settled (stock : Stock) : Prop extends Sound stock where
  accepted_iff : ∀ id record, stock.history.get? id = some record →
    (record.status = .accepted ↔ (stock.holding record.owner).rack.Shows id)
  returned_iff : ∀ id record, stock.history.get? id = some record →
    (record.status = .returned ↔ Rack.Shows stock.refunds id)
  queued_order : ∀ slot ∈ stock.refunds.slots,
    stock.deposit slot.id = some (slot.owner, slot.order)
  queued_status : ∀ slot ∈ stock.refunds.slots, ∀ record,
    stock.history.get? slot.id = some record →
      record.status = .returned ∨ record.status = .issuedToCourier

/-- The requests that the desk makes: it hands orders out for good, brings only the recorded order
into the queue, and never sets a stage by itself. -/
def Proper (stock : Stock) : Request → Prop
  | .removeOrders _ status _ => status.isIssued = true
  | .setStatus .. => False
  | .addRefund _ id order _ => ∃ owner, stock.deposit id = some (owner, order)
  | _ => True

theorem proper_of_read {request : Request} (h : request.changes = false) (stock : Stock) :
    stock.Proper request := by
  cases request with
  | addOrder | removeOrders | setStatus | addRefund | removeRefund => cases h
  | _ => exact True.intro

theorem settled_empty : Stock.empty.Settled where
  toSound := sound_empty
  accepted_iff := fun _ _ hrecord => nomatch hrecord
  returned_iff := fun _ _ hrecord => nomatch hrecord
  queued_order := fun _ hmem => nomatch hmem
  queued_status := fun _ hmem => nomatch hmem

variable {stock : Stock}

theorem Settled.accepted_of_removable (h : stock.Settled) {id : UInt64}
    (hremovable : stock.Removable id) :
    ∃ record, stock.history.get? id = some record ∧ record.status = .accepted ∧
      (stock.holding record.owner).rack.Shows id := by
  obtain ⟨record, hrecord, -, hshows⟩ := hremovable
  exact ⟨record, hrecord, (h.accepted_iff id record hrecord).2 hshows, hshows⟩

/-- An order that is with its owner has never been in the queue. -/
theorem Settled.not_lists_of_issuedToClient (h : stock.Settled) {id : UInt64} {record : Record}
    (hrecord : stock.history.get? id = some record) (hstatus : record.status = .issuedToClient) :
    ¬ Rack.Lists stock.refunds id := by
  rintro ⟨slot, hmem, rfl⟩
  have hqueued := h.queued_status slot hmem record hrecord
  rw [hstatus] at hqueued
  rcases hqueued with hqueued | hqueued <;> cases hqueued

theorem Settled.removable_of_accepted (h : stock.Settled) {id : UInt64} {record : Record}
    (hrecord : stock.history.get? id = some record) (hstatus : record.status = .accepted) :
    stock.Removable id := by
  refine ⟨record, hrecord, ?_, (h.accepted_iff id record hrecord).1 hstatus⟩
  rw [hstatus]
  rfl

private theorem get?_marked {after : Stock} {status : Status} {time : Instant}
    {touched : UInt64 → Prop} [DecidablePred touched]
    (hafter : ∀ key, after.history.get? key =
      if touched key then (stock.history.get? key).map (·.moved status time)
      else stock.history.get? key)
    {key : UInt64} {later : Record} (hlater : after.history.get? key = some later) :
    ∃ record, stock.history.get? key = some record ∧
      ((¬ touched key ∧ later = record) ∨ (touched key ∧ later = record.moved status time)) := by
  rw [hafter key] at hlater
  split at hlater
  · rename_i htouched
    obtain ⟨record, hrecord, rfl⟩ := Option.map_eq_some_iff.1 hlater
    exact ⟨record, hrecord, .inr ⟨htouched, rfl⟩⟩
  · rename_i hother
    exact ⟨later, hlater, .inl ⟨hother, rfl⟩⟩

/-- Marking orders moves them by one step if their stage leads to the new one. -/
private theorem steps_of_marked {after : Stock} {status : Status} {time : Instant}
    {touched : UInt64 → Prop} [DecidablePred touched]
    (hafter : ∀ key, after.history.get? key =
      if touched key then (stock.history.get? key).map (·.moved status time)
      else stock.history.get? key)
    (hleads : ∀ key record, touched key → stock.history.get? key = some record →
      record.status.leadsTo status = true) : stock.Steps after := by
  intro key record hrecord
  rw [hafter key, hrecord]
  split
  · rename_i htouched
    exact ⟨record.moved status time, rfl,
      .inr (Record.moves_moved (hleads key record htouched hrecord) time)⟩
  · exact ⟨record, rfl, .inl rfl⟩

theorem Settled.register (h : stock.Settled) {id : UInt64}
    (hnew : stock.history.get? id = none) (owner : UInt64) (order : Order) (time : Instant) :
    (stock.register owner id order time).Settled where
  toSound := h.toSound.register hnew owner order time
  accepted_iff := by
    intro key record hrecord
    rw [get?_register] at hrecord
    rw [holding_register]
    split at hrecord
    · rename_i hkey
      subst hkey
      cases hrecord
      rw [if_pos rfl, Holding.rack_accept, Rack.shows_add]
      exact ⟨fun _ => .inr ⟨rfl, rfl⟩, fun _ => rfl⟩
    · rename_i hkey
      rw [h.accepted_iff key record hrecord]
      split
      · rename_i howner
        rw [Holding.rack_accept, Rack.shows_add, howner, Slot.id_ofOrder]
        simp [Ne.symm hkey]
      · rfl
  returned_iff := by
    intro key record hrecord
    rw [get?_register] at hrecord
    split at hrecord
    · rename_i hkey
      subst hkey
      cases hrecord
      constructor
      · intro hstatus
        cases hstatus
      · intro hshows
        exact absurd hshows.lists (h.not_queued hnew)
    · exact h.returned_iff key record hrecord
  queued_order := by
    intro slot hmem
    rw [deposit_register]
    split
    · rename_i hid
      exact absurd ⟨slot, hmem, hid⟩ (h.not_queued hnew)
    · exact h.queued_order slot hmem
  queued_status := by
    intro slot hmem record hrecord
    rw [get?_register] at hrecord
    split at hrecord
    · rename_i hid
      exact absurd ⟨slot, hmem, hid⟩ (h.not_queued hnew)
    · exact h.queued_status slot hmem record hrecord

theorem Settled.releaseAll (h : stock.Settled) {ids : List UInt64}
    (hall : ∀ id ∈ ids, stock.Removable id) {status : Status}
    (hissued : status.isIssued = true) (time : Instant) :
    (stock.releaseAll ids status time).Settled := by
  have haccepted : ∀ key ∈ ids, ∀ record, stock.history.get? key = some record →
      record.status = .accepted := by
    intro key hkey record hrecord
    obtain ⟨found, hfound, hstatus, -⟩ := h.accepted_of_removable (hall key hkey)
    rw [hrecord] at hfound
    cases hfound
    exact hstatus
  constructor
  case toSound => exact h.toSound.releaseAll ids status time
  case accepted_iff =>
    intro key later hlater
    rw [h.shows_releaseAll]
    obtain ⟨record, hrecord, ⟨hother, rfl⟩ | ⟨hmember, rfl⟩⟩ :=
      get?_marked (get?_releaseAll ids status time stock) hlater
    · rw [h.accepted_iff key later hrecord]
      simp [hother]
    · constructor
      · intro hstatus
        rw [Record.status_moved] at hstatus
        rw [hstatus] at hissued
        cases hissued
      · rintro ⟨-, hother⟩
        exact absurd hmember hother
  case returned_iff =>
    intro key later hlater
    rw [refunds_releaseAll]
    obtain ⟨record, hrecord, ⟨-, rfl⟩ | ⟨hmember, rfl⟩⟩ :=
      get?_marked (get?_releaseAll ids status time stock) hlater
    · exact h.returned_iff key later hrecord
    · constructor
      · intro hstatus
        rw [Record.status_moved] at hstatus
        rw [hstatus] at hissued
        cases hissued
      · intro hshows
        have hreturned := (h.returned_iff key record hrecord).2 hshows
        rw [haccepted key hmember record hrecord] at hreturned
        cases hreturned
  case queued_order =>
    intro slot hmem
    rw [refunds_releaseAll] at hmem
    rw [deposit_releaseAll]
    exact h.queued_order slot hmem
  case queued_status =>
    intro slot hmem later hlater
    rw [refunds_releaseAll] at hmem
    obtain ⟨record, hrecord, ⟨-, rfl⟩ | ⟨hmember, rfl⟩⟩ :=
      get?_marked (get?_releaseAll ids status time stock) hlater
    · exact h.queued_status slot hmem later hrecord
    · have hstatus := h.queued_status slot hmem record hrecord
      rw [haccepted slot.id hmember record hrecord] at hstatus
      rcases hstatus with hstatus | hstatus <;> cases hstatus

theorem Settled.enqueue (h : stock.Settled) {id : UInt64} {record : Record}
    (hrecord : stock.history.get? id = some record)
    (hstatus : record.status = .issuedToClient) (hnew : ¬ Rack.Lists stock.refunds id)
    (time : Instant) :
    (stock.enqueue record.owner id record.order time).Settled where
  toSound := h.toSound.enqueue hrecord rfl hnew record.order time
  accepted_iff := by
    intro key later hlater
    obtain ⟨found, hfound, ⟨-, rfl⟩ | ⟨rfl, rfl⟩⟩ :=
      get?_marked (get?_enqueue record.owner id record.order time stock) hlater
    · exact h.accepted_iff key later hfound
    · rw [hrecord] at hfound
      cases hfound
      rw [holding_enqueue, Record.owner_moved, ← h.accepted_iff key record hrecord, hstatus,
        Record.status_moved]
      decide
  returned_iff := by
    intro key later hlater
    rw [refunds_enqueue, Rack.shows_add, Slot.id_ofOrder]
    obtain ⟨found, hfound, ⟨hother, rfl⟩ | ⟨rfl, rfl⟩⟩ :=
      get?_marked (get?_enqueue record.owner id record.order time stock) hlater
    · rw [h.returned_iff key later hfound]
      simp [Ne.symm hother]
    · exact ⟨fun _ => .inr ⟨rfl, rfl⟩, fun _ => rfl⟩
  queued_order := by
    intro slot hmem
    rw [deposit_enqueue]
    rw [refunds_enqueue, Rack.slots_add, List.mem_append, List.mem_singleton] at hmem
    cases hmem with
    | inl hold => exact h.queued_order slot hold
    | inr hlast =>
        subst hlast
        exact deposit_of_get? hrecord
  queued_status := by
    intro slot hmem later hlater
    rw [refunds_enqueue, Rack.slots_add, List.mem_append, List.mem_singleton] at hmem
    obtain ⟨found, hfound, ⟨hother, rfl⟩ | ⟨-, rfl⟩⟩ :=
      get?_marked (get?_enqueue record.owner id record.order time stock) hlater
    · cases hmem with
      | inl hold => exact h.queued_status slot hold later hfound
      | inr hlast =>
          subst hlast
          exact absurd (Slot.id_ofOrder _ _ _) hother
    · exact .inl rfl

theorem Settled.dequeue (h : stock.Settled) {id : UInt64} {record : Record}
    (hrecord : stock.history.get? id = some record) (hstatus : record.status = .returned)
    (time : Instant) : (stock.dequeue id time).Settled where
  toSound := h.toSound.dequeue id time
  accepted_iff := by
    intro key later hlater
    obtain ⟨found, hfound, ⟨-, rfl⟩ | ⟨rfl, rfl⟩⟩ :=
      get?_marked (get?_dequeue id time stock) hlater
    · exact h.accepted_iff key later hfound
    · rw [hrecord] at hfound
      cases hfound
      rw [holding_dequeue, Record.owner_moved, ← h.accepted_iff key record hrecord, hstatus,
        Record.status_moved]
      decide
  returned_iff := by
    intro key later hlater
    rw [refunds_dequeue, Rack.shows_retire]
    obtain ⟨found, hfound, ⟨hother, rfl⟩ | ⟨rfl, rfl⟩⟩ :=
      get?_marked (get?_dequeue id time stock) hlater
    · rw [h.returned_iff key later hfound]
      simp [hother]
    · simp
  queued_order := by
    intro slot hmem
    obtain ⟨old, hold, rfl⟩ := List.mem_map.1 hmem
    rw [deposit_dequeue, Slot.id_without, Slot.owner_without, Slot.order_without]
    exact h.queued_order old hold
  queued_status := by
    intro slot hmem later hlater
    obtain ⟨old, hold, rfl⟩ := List.mem_map.1 hmem
    rw [Slot.id_without] at hlater
    obtain ⟨found, hfound, ⟨-, rfl⟩ | ⟨-, rfl⟩⟩ :=
      get?_marked (get?_dequeue id time stock) hlater
    · exact h.queued_status old hold later hfound
    · exact .inr rfl

/-- What the desk asks for keeps the stages and the lists in agreement, and moves every order by
at most one step of its life. -/
theorem Settled.change (h : stock.Settled) {request : Request} {after : Stock}
    (hproper : stock.Proper request) (hchange : stock.Change request after) :
    after.Settled ∧ stock.Steps after := by
  cases hchange with
  | register owner id order time hnew =>
      refine ⟨h.register hnew owner order time, ?_⟩
      intro key record hrecord
      have hne : key ≠ id := by
        rintro rfl
        rw [hnew] at hrecord
        cases hrecord
      refine ⟨record, ?_, .inl rfl⟩
      rw [get?_register, if_neg hne, hrecord]
  | releaseAll ids status time hall =>
      have hdistinct : ∀ id ∈ distinct ids, stock.Removable id :=
        fun id hid => hall id (mem_distinct.1 hid)
      refine ⟨h.releaseAll hdistinct hproper time, ?_⟩
      apply steps_of_marked (get?_releaseAll (distinct ids) status time stock)
      intro key record hmember hrecord
      obtain ⟨found, hfound, hstatus, -⟩ := h.accepted_of_removable (hdistinct key hmember)
      rw [hrecord] at hfound
      cases hfound
      rw [hstatus]
      exact Status.leadsTo_of_isIssued hproper
  | mark id status time record hrecord => exact False.elim hproper
  | enqueue id order time record hrecord hstatus hnew =>
      obtain ⟨owner, hdeposit⟩ := hproper
      rw [deposit_of_get? hrecord] at hdeposit
      cases hdeposit
      refine ⟨h.enqueue hrecord hstatus hnew time, ?_⟩
      apply steps_of_marked (get?_enqueue record.owner id record.order time stock)
      intro key found hkey hfound
      subst hkey
      rw [hrecord] at hfound
      cases hfound
      rw [hstatus]
      rfl
  | dequeue id time record hrecord hstatus hshows =>
      refine ⟨h.dequeue hrecord hstatus time, ?_⟩
      apply steps_of_marked (get?_dequeue id time stock)
      intro key found hkey hfound
      subst hkey
      rw [hrecord] at hfound
      cases hfound
      rw [hstatus]
      rfl

end Stock

end ParcelDesk
