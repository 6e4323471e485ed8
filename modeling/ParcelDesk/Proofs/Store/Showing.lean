import ParcelDesk.Proofs.Store.Soundness

namespace ParcelDesk

namespace Rack

/-! The live places of a rack, in the order in which they were filled. -/

def showing (rack : Rack) : List Slot :=
  rack.slots.filter Slot.live

theorem mem_showing {rack : Rack} {slot : Slot} :
    slot ∈ rack.showing ↔ slot ∈ rack.slots ∧ slot.live = true :=
  List.mem_filter

theorem showing_add (rack : Rack) {slot : Slot} (h : slot.live = true) :
    (rack.add slot).showing = rack.showing ++ [slot] := by
  rw [showing, slots_add, List.filter_append, List.filter_singleton, h]
  rfl

theorem showing_retire (rack : Rack) (gone : UInt64) :
    (rack.retire gone).showing = rack.showing.filter fun slot => slot.id ≠ gone := by
  simp only [showing, slots_retire, List.filter_filter]
  induction rack.slots with
  | nil => rfl
  | cons slot rest ih =>
      rw [List.map_cons, List.filter_cons, List.filter_cons, ih, Slot.live_without]
      by_cases hid : slot.id = gone
      · simp [hid]
      · simp [hid, Slot.without]

theorem filter_showing {rack : Rack} {id : UInt64} (h : ¬ rack.Shows id) :
    (rack.showing.filter fun slot => slot.id ≠ id) = rack.showing := by
  rw [List.filter_eq_self]
  intro slot hmem
  rw [decide_eq_true_eq]
  intro hid
  obtain ⟨hslot, hlive⟩ := mem_showing.1 hmem
  exact h ⟨slot, hslot, hid, hlive⟩

theorem Indexed.nodup_showing {rack : Rack} (h : rack.Indexed) :
    (rack.showing.map Slot.id).Nodup :=
  h.nodup.sublist (List.filter_sublist.map Slot.id)

end Rack

namespace Stock

variable {stock : Stock}

theorem Sound.showing_register (h : stock.Sound) (owner id : UInt64) (order : Order)
    (time : Instant) (key : UInt64) :
    ((stock.register owner id order time).holding key).rack.showing =
      (stock.holding key).rack.showing ++
        if owner = key then [.ofOrder owner id order] else [] := by
  rw [holding_register]
  by_cases hkey : owner = key
  · subst hkey
    rw [if_pos rfl, if_pos rfl, Holding.rack_accept, Rack.showing_add _ rfl,
      (h.holding_sound owner).owner_eq]
  · rw [if_neg hkey, if_neg (Ne.symm hkey), List.append_nil]

theorem Sound.showing_release (h : stock.Sound) (id : UInt64) (status : Status)
    (time : Instant) (owner : UInt64) :
    ((stock.release id status time).holding owner).rack.showing =
      (stock.holding owner).rack.showing.filter fun slot => slot.id ≠ id := by
  cases hrecord : stock.history.get? id with
  | none =>
      have hhidden : ¬ (stock.holding owner).rack.Shows id :=
        fun hshows => h.not_lists hrecord owner hshows.lists
      rw [Rack.filter_showing hhidden, Stock.release, hrecord]
  | some record =>
      rw [holding_release hrecord]
      split
      · rw [Holding.rack_release, Rack.showing_retire]
      · rename_i hother
        have hhidden : ¬ (stock.holding owner).rack.Shows id :=
          fun hshows => hother (h.owner_unique (deposit_of_get? hrecord) hshows.lists)
        rw [Rack.filter_showing hhidden]

theorem Sound.showing_releaseAll (h : stock.Sound) (ids : List UInt64) (status : Status)
    (time : Instant) (owner : UInt64) :
    ((stock.releaseAll ids status time).holding owner).rack.showing =
      (stock.holding owner).rack.showing.filter fun slot => slot.id ∉ ids := by
  induction ids generalizing stock with
  | nil => simp
  | cons id rest ih =>
      rw [releaseAll_cons, ih (h.release id status time), h.showing_release,
        List.filter_filter]
      simp only [List.mem_cons, not_or, ← Bool.decide_and, and_comm]

end Stock

end ParcelDesk
