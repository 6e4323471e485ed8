import ParcelDesk.Proofs.Store.Stock

namespace ParcelDesk.Stock

variable {stock : Stock}

theorem sound_empty : Stock.empty.Sound where
  holding_sound := fun owner => Holding.sound_empty owner
  holding_used := fun _ _ hget => nomatch hget
  listed := fun _ _ hmem => nomatch hmem
  recorded := fun _ _ _ hdeposit => nomatch hdeposit
  queue_indexed := Rack.indexed_empty
  queued := fun _ hmem => nomatch hmem

theorem Sound.not_lists (h : stock.Sound) {id : UInt64} (hnew : stock.history.get? id = none)
    (owner : UInt64) : ¬ (stock.holding owner).rack.Lists id := by
  rintro ⟨slot, hmem, rfl⟩
  have hdeposit := h.listed owner slot hmem
  rw [deposit_eq_none.2 hnew] at hdeposit
  cases hdeposit

theorem Sound.not_queued (h : stock.Sound) {id : UInt64} (hnew : stock.history.get? id = none) :
    ¬ Rack.Lists stock.refunds id := by
  rintro ⟨slot, hmem, rfl⟩
  obtain ⟨order, hdeposit⟩ := h.queued slot hmem
  rw [deposit_eq_none.2 hnew] at hdeposit
  cases hdeposit

/-- An order has its place with one owner only. -/
theorem Sound.owner_unique (h : stock.Sound) {id owner other : UInt64} {order : Order}
    (hdeposit : stock.deposit id = some (owner, order))
    (hlists : (stock.holding other).rack.Lists id) : other = owner := by
  obtain ⟨slot, hmem, rfl⟩ := hlists
  have hother := h.listed other slot hmem
  rw [hdeposit] at hother
  cases hother
  rfl

theorem Sound.register (h : stock.Sound) {id : UInt64} (hnew : stock.history.get? id = none)
    (owner : UInt64) (order : Order) (time : Instant) :
    (stock.register owner id order time).Sound where
  holding_sound := by
    intro key
    rw [holding_register]
    split
    · rename_i hkey
      subst hkey
      exact (h.holding_sound key).accept order (h.not_lists hnew key)
    · exact h.holding_sound key
  holding_used := by
    intro key found hget
    simp only [Stock.register, IdMap.get?_insert] at hget
    split at hget
    · cases hget
      simp
    · exact h.holding_used key found hget
  listed := by
    intro key slot hmem
    rw [deposit_register]
    rw [holding_register] at hmem
    split at hmem
    · rename_i hkey
      subst hkey
      rw [Holding.rack_accept, Rack.slots_add, List.mem_append, List.mem_singleton] at hmem
      cases hmem with
      | inl hold =>
          have hne : slot.id ≠ id := fun heq => h.not_lists hnew key ⟨slot, hold, heq⟩
          rw [if_neg hne]
          exact h.listed key slot hold
      | inr hlast =>
          subst hlast
          rw [if_pos (Slot.id_ofOrder _ _ _), Slot.order_ofOrder]
    · have hne : slot.id ≠ id := fun heq => h.not_lists hnew key ⟨slot, hmem, heq⟩
      rw [if_neg hne]
      exact h.listed key slot hmem
  recorded := by
    intro key user parcel hdeposit
    rw [deposit_register] at hdeposit
    rw [holding_register]
    split at hdeposit
    · rename_i hkey
      cases hdeposit
      rw [if_pos rfl, Holding.rack_accept, Rack.lists_add]
      exact .inr hkey.symm
    · have hlists := h.recorded key user parcel hdeposit
      split
      · rename_i huser
        rw [Holding.rack_accept, Rack.lists_add]
        exact .inl (huser ▸ hlists)
      · exact hlists
  queue_indexed := h.queue_indexed
  queued := by
    intro slot hmem
    obtain ⟨parcel, hdeposit⟩ := h.queued slot hmem
    refine ⟨parcel, ?_⟩
    rw [deposit_register]
    split
    · rename_i hid
      exact absurd ⟨slot, hmem, hid⟩ (h.not_queued hnew)
    · exact hdeposit

theorem Sound.mark (h : stock.Sound) (id : UInt64) (status : Status) (time : Instant) :
    (stock.mark id status time).Sound where
  holding_sound := h.holding_sound
  holding_used := h.holding_used
  listed := by
    intro owner slot hmem
    rw [deposit_mark]
    exact h.listed owner slot hmem
  recorded := by
    intro key owner order hdeposit
    rw [deposit_mark] at hdeposit
    exact h.recorded key owner order hdeposit
  queue_indexed := h.queue_indexed
  queued := by
    intro slot hmem
    rw [deposit_mark]
    exact h.queued slot hmem

theorem lists_release (id : UInt64) (status : Status) (time : Instant) (stock : Stock)
    (owner key : UInt64) :
    ((stock.release id status time).holding owner).rack.Lists key ↔
      (stock.holding owner).rack.Lists key := by
  cases hrecord : stock.history.get? id with
  | none =>
      unfold release
      rw [hrecord]
  | some record =>
      rw [holding_release hrecord]
      split
      · rw [Holding.rack_release, Rack.lists_retire]
      · rfl

theorem Sound.shows_release (h : stock.Sound) (id : UInt64) (status : Status) (time : Instant)
    (owner key : UInt64) :
    ((stock.release id status time).holding owner).rack.Shows key ↔
      (stock.holding owner).rack.Shows key ∧ key ≠ id := by
  cases hrecord : stock.history.get? id with
  | none =>
      unfold release
      rw [hrecord]
      refine ⟨fun hshows => ⟨hshows, ?_⟩, And.left⟩
      rintro rfl
      exact h.not_lists hrecord owner hshows.lists
  | some record =>
      rw [holding_release hrecord]
      split
      · rw [Holding.rack_release, Rack.shows_retire]
      · rename_i hne
        refine ⟨fun hshows => ⟨hshows, ?_⟩, And.left⟩
        rintro rfl
        exact hne (h.owner_unique (deposit_of_get? hrecord) hshows.lists)

theorem Sound.release (h : stock.Sound) (id : UInt64) (status : Status) (time : Instant) :
    (stock.release id status time).Sound := by
  cases hrecord : stock.history.get? id with
  | none =>
      unfold Stock.release
      rw [hrecord]
      exact h
  | some record =>
      constructor
      case holding_sound =>
        intro owner
        rw [holding_release hrecord]
        split
        · exact (h.holding_sound owner).release id
        · exact h.holding_sound owner
      case holding_used =>
        intro owner found hget
        have hholding := holding_of_get? hget
        rw [holding_release hrecord] at hholding
        split at hholding
        · rename_i howner
          subst howner
          obtain ⟨slot, hmem, -⟩ :=
            h.recorded id record.owner record.order (deposit_of_get? hrecord)
          subst hholding
          exact List.ne_nil_of_mem (List.mem_map_of_mem hmem)
        · rename_i howner
          unfold Stock.release at hget
          rw [hrecord] at hget
          simp only [IdMap.get?_insert] at hget
          rw [if_neg howner] at hget
          exact h.holding_used owner found hget
      case listed =>
        intro owner slot hmem
        rw [deposit_release]
        rw [holding_release hrecord] at hmem
        split at hmem
        · obtain ⟨old, hold, rfl⟩ := List.mem_map.1 hmem
          rw [Slot.id_without, Slot.order_without]
          exact h.listed owner old hold
        · exact h.listed owner slot hmem
      case recorded =>
        intro key owner order hdeposit
        rw [deposit_release] at hdeposit
        rw [lists_release]
        exact h.recorded key owner order hdeposit
      case queue_indexed =>
        rw [refunds_release]
        exact h.queue_indexed
      case queued =>
        intro slot hmem
        rw [refunds_release] at hmem
        rw [deposit_release]
        exact h.queued slot hmem

theorem Sound.enqueue (h : stock.Sound) {owner id : UInt64} {record : Record}
    (hrecord : stock.history.get? id = some record) (howner : record.owner = owner)
    (hnew : ¬ Rack.Lists stock.refunds id) (order : Order) (time : Instant) :
    (stock.enqueue owner id order time).Sound where
  holding_sound := h.holding_sound
  holding_used := h.holding_used
  listed := by
    intro key slot hmem
    rw [deposit_enqueue]
    exact h.listed key slot hmem
  recorded := by
    intro key user parcel hdeposit
    rw [deposit_enqueue] at hdeposit
    exact h.recorded key user parcel hdeposit
  queue_indexed := h.queue_indexed.add hnew
  queued := by
    intro slot hmem
    rw [deposit_enqueue]
    rw [refunds_enqueue, Rack.slots_add, List.mem_append, List.mem_singleton] at hmem
    cases hmem with
    | inl hold => exact h.queued slot hold
    | inr hlast =>
        subst hlast
        refine ⟨record.order, ?_⟩
        rw [Slot.id_ofOrder, Slot.owner_ofOrder, deposit_of_get? hrecord, howner]

theorem Sound.dequeue (h : stock.Sound) (id : UInt64) (time : Instant) :
    (stock.dequeue id time).Sound where
  holding_sound := h.holding_sound
  holding_used := h.holding_used
  listed := by
    intro key slot hmem
    rw [deposit_dequeue]
    exact h.listed key slot hmem
  recorded := by
    intro key owner order hdeposit
    rw [deposit_dequeue] at hdeposit
    exact h.recorded key owner order hdeposit
  queue_indexed := h.queue_indexed.retire id
  queued := by
    intro slot hmem
    obtain ⟨old, hold, rfl⟩ := List.mem_map.1 hmem
    rw [deposit_dequeue, Slot.id_without, Slot.owner_without]
    exact h.queued old hold

/-! Handing out a batch is handing out its orders one after the other. -/

@[simp] theorem releaseAll_nil (status : Status) (time : Instant) (stock : Stock) :
    stock.releaseAll [] status time = stock := rfl

@[simp] theorem releaseAll_cons (id : UInt64) (rest : List UInt64) (status : Status)
    (time : Instant) (stock : Stock) :
    stock.releaseAll (id :: rest) status time =
      (stock.release id status time).releaseAll rest status time := rfl

theorem Sound.releaseAll (h : stock.Sound) (ids : List UInt64) (status : Status)
    (time : Instant) : (stock.releaseAll ids status time).Sound := by
  induction ids generalizing stock with
  | nil => exact h
  | cons id rest ih => exact ih (h.release id status time)

theorem get?_releaseAll (ids : List UInt64) (status : Status) (time : Instant) (stock : Stock)
    (key : UInt64) :
    (stock.releaseAll ids status time).history.get? key =
      if key ∈ ids then (stock.history.get? key).map (·.moved status time)
      else stock.history.get? key := by
  induction ids generalizing stock with
  | nil => rfl
  | cons id rest ih =>
      rw [releaseAll_cons, ih, get?_release]
      by_cases hid : key = id
      · subst hid
        rw [if_pos rfl, if_pos List.mem_cons_self, Option.map_map]
        split <;> rfl
      · rw [if_neg hid]
        simp [hid]

@[simp] theorem deposit_releaseAll (ids : List UInt64) (status : Status) (time : Instant)
    (stock : Stock) (key : UInt64) :
    (stock.releaseAll ids status time).deposit key = stock.deposit key := by
  induction ids generalizing stock with
  | nil => rfl
  | cons id rest ih => rw [releaseAll_cons, ih, deposit_release]

@[simp] theorem refunds_releaseAll (ids : List UInt64) (status : Status) (time : Instant)
    (stock : Stock) : (stock.releaseAll ids status time).refunds = stock.refunds := by
  induction ids generalizing stock with
  | nil => rfl
  | cons id rest ih => rw [releaseAll_cons, ih, refunds_release]

theorem Sound.shows_releaseAll (h : stock.Sound) (ids : List UInt64) (status : Status)
    (time : Instant) (owner key : UInt64) :
    ((stock.releaseAll ids status time).holding owner).rack.Shows key ↔
      (stock.holding owner).rack.Shows key ∧ key ∉ ids := by
  induction ids generalizing stock with
  | nil => simp
  | cons id rest ih =>
      rw [releaseAll_cons, ih (h.release id status time), h.shows_release, List.mem_cons,
        not_or, and_assoc]

end ParcelDesk.Stock
