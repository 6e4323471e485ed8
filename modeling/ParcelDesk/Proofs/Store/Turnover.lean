import ParcelDesk.Proofs.Store.Holdings

/-!
# Turnover

Orders come into the holdings and leave them again. The map of what waits, the places on the rack
and the index of places are written one after the other, and a call that gives up leaves behind what
it has written by then. Still the three always agree, a call that fails has written nothing, and no
place is ever moved, filled again or brought back to life.
-/

namespace ParcelDesk

namespace IdMap

theorem insert_eq_self {map : IdMap α} {id : UInt64} {value : α} (h : map.get? id = some value) :
    map.insert id value = map := by
  apply ext_get?
  intro key
  rw [get?_insert]
  split
  next hkey => rw [hkey, h]
  next => rfl

end IdMap

namespace Reply

def settled (before : σ) : Reply σ → Reply Unit × σ
  | .ok after => (.ok (), after)
  | .error stop => (.error stop, before)

end Reply

/-! ## Writing in place -/

namespace Rack

def pushInPlace (rack : Rack) (slot : Slot) : Reply Unit × Rack :=
  if rack.index.contains slot.id then
    (Reply.refuse .alreadyExists s!"order {slot.id} is already listed", rack)
  else
    let place := rack.slots.length
    let rack := { rack with index := rack.index.insert slot.id place }
    let rack := { rack with slots := rack.slots ++ [slot] }
    (.ok (), rack)

def withdrawInPlace (rack : Rack) (id : UInt64) : Reply Unit × Rack :=
  match rack.position id with
  | none => (Reply.refuse .notFound s!"order {id} is not listed", rack)
  | some place =>
      match rack.slots[place]? with
      | none => (.error (.crash (.indexOutOfBounds rack.slots.length place)), rack)
      | some slot =>
          if slot.live then (.ok (), { rack with slots := rack.slots.set place slot.retire })
          else (Reply.refuse .notFound s!"order {id} is not listed", rack)

theorem pushInPlace_eq (rack : Rack) (slot : Slot) :
    rack.pushInPlace slot =
      Reply.settled rack (Reply.ofExcept ((rack.push slot).map Prod.snd)) := by
  rw [pushInPlace, push]
  split <;> rfl

theorem withdrawInPlace_eq (rack : Rack) (id : UInt64) :
    rack.withdrawInPlace id = Reply.settled rack (rack.withdraw id) := by
  rw [withdrawInPlace, withdraw]
  cases rack.position id with
  | none => rfl
  | some place =>
      simp only
      cases rack.slots[place]? with
      | none => rfl
      | some slot =>
          simp only
          split <;> rfl

end Rack

namespace Holding

def addInPlace (holding : Holding) (id : UInt64) (order : Order) : Reply Unit × Holding :=
  match holding.rack.position id with
  | some _ =>
      (Reply.refuse .alreadyExists
        s!"order {id} has already been accepted for user {holding.owner}", holding)
  | none =>
      let (reply, rack) := holding.rack.pushInPlace (.ofOrder holding.owner id order)
      let holding := { holding with rack }
      match reply with
      | .ok () => (.ok (), { holding with orders := holding.orders.insert id order })
      | .error stop => (.error stop, holding)

def removeInPlace (holding : Holding) (id : UInt64) : Reply Unit × Holding :=
  match holding.get id with
  | .error error => (Reply.fail error, holding)
  | .ok _ =>
      let (reply, rack) := holding.rack.withdrawInPlace id
      let holding := { holding with rack }
      match reply with
      | .ok () => (.ok (), { holding with orders := holding.orders.erase id })
      | .error stop => (.error stop, holding)

theorem addInPlace_eq (holding : Holding) (id : UInt64) (order : Order) :
    holding.addInPlace id order =
      Reply.settled holding (Reply.ofExcept (holding.add id order)) := by
  rw [addInPlace, add]
  cases holding.rack.position id with
  | some place => rfl
  | none =>
      simp only [Rack.pushInPlace_eq]
      cases holding.rack.push (.ofOrder holding.owner id order) with
      | error error => rfl
      | ok pushed => rfl

theorem removeInPlace_eq (holding : Holding) (id : UInt64) :
    holding.removeInPlace id = Reply.settled holding (holding.remove id) := by
  rw [removeInPlace, remove]
  cases holding.get id with
  | error error => rfl
  | ok order =>
      simp only [Rack.withdrawInPlace_eq]
      cases hwithdraw : holding.rack.withdraw id with
      | error stop => rfl
      | ok rack => rfl

end Holding

namespace Holdings

/-- The holding of a user, who may never have had an order. -/
def ofUser (holdings : Holdings) (owner : UInt64) : Holding :=
  (holdings.get? owner).getD (.empty owner)

/-- A user who has no holding gets one before it is known whether the order can be added. -/
def addInPlace (holdings : Holdings) (owner id : UInt64) (order : Order) :
    Reply Unit × Holdings :=
  let (reply, holding) := (holdings.ofUser owner).addInPlace id order
  (reply, holdings.insert owner holding)

def removeInPlace (holdings : Holdings) (owner id : UInt64) : Reply Unit × Holdings :=
  match holdings.user owner with
  | .error error => (Reply.fail error, holdings)
  | .ok holding =>
      let (reply, holding) := holding.removeInPlace id
      (reply, holdings.insert owner holding)

theorem addInPlace_eq (holdings : Holdings) (owner id : UInt64) (order : Order) :
    holdings.addInPlace owner id order =
      Reply.settled holdings (Reply.ofExcept (holdings.add owner id order)) := by
  rw [addInPlace, add, ofUser, Holding.addInPlace_eq]
  cases howner : holdings.get? owner with
  | some holding =>
      rw [Option.getD_some]
      cases holding.add id order with
      | ok added => rfl
      | error error => exact congrArg (Prod.mk _) (IdMap.insert_eq_self howner)
  | none =>
      -- The first order of a user is never turned down.
      rw [Option.getD_none, (Holding.sound_empty owner).add_eq order (Rack.not_lists_empty id)]
      rfl

theorem removeInPlace_eq (holdings : Holdings) (owner id : UInt64) :
    holdings.removeInPlace owner id = Reply.settled holdings (holdings.remove owner id) := by
  rw [removeInPlace, remove, user]
  cases howner : holdings.get? owner with
  | none => rfl
  | some holding =>
      simp only [Holding.removeInPlace_eq]
      change _ = Reply.settled holdings (holding.remove id >>= fun holding => _)
      cases holding.remove id with
      | ok removed => rfl
      | error stop => exact congrArg (Prod.mk _) (IdMap.insert_eq_self howner)

end Holdings

/-! ## Any turnover -/

/-- An order that comes into a user's holding or leaves it. -/
inductive Turnover where
  | add (owner id : UInt64) (order : Order)
  | remove (owner id : UInt64)

namespace Turnover

def perform (holdings : Holdings) : Turnover → Reply Unit × Holdings
  | .add owner id order => holdings.addInPlace owner id order
  | .remove owner id => holdings.removeInPlace owner id

/-- The holdings after calls made one after the other, some of which may fail. -/
def follow (holdings : Holdings) (calls : List Turnover) : Holdings :=
  calls.foldl (fun holdings call => (call.perform holdings).2) holdings

end Turnover

namespace Rack

/-- Nothing was taken from a rack: every place is where it was, with its order, and is not live if
it was not; and the index finds all that it found. -/
structure Keeps (rack later : Rack) : Prop where
  slots : ∀ (place : Nat) (slot : Slot), rack.slots[place]? = some slot →
    ∃ kept, later.slots[place]? = some kept ∧ kept.id = slot.id ∧ kept.owner = slot.owner ∧
      kept.order = slot.order ∧ (kept.live = true → slot.live = true)
  index : ∀ id place, rack.position id = some place → later.position id = some place

variable {rack later last : Rack}

theorem Keeps.refl (rack : Rack) : rack.Keeps rack where
  slots := fun _ slot hslot => ⟨slot, hslot, rfl, rfl, rfl, fun hlive => hlive⟩
  index := fun _ _ hplace => hplace

theorem Keeps.trans (hfirst : rack.Keeps later) (hsecond : later.Keeps last) : rack.Keeps last where
  slots := by
    intro place slot hslot
    obtain ⟨kept, hkept, hid, howner, horder, hlive⟩ := hfirst.slots place slot hslot
    obtain ⟨final, hfinal, hid', howner', horder', hlive'⟩ := hsecond.slots place kept hkept
    exact ⟨final, hfinal, hid'.trans hid, howner'.trans howner, horder'.trans horder,
      fun hfinally => hlive (hlive' hfinally)⟩
  index := fun id place hplace => hsecond.index id place (hfirst.index id place hplace)

theorem keeps_add {slot : Slot} (h : rack.position slot.id = none) :
    rack.Keeps (rack.add slot) where
  slots := by
    intro place found hfound
    have hlt := (List.getElem?_eq_some_iff.1 hfound).1
    refine ⟨found, ?_, rfl, rfl, rfl, fun hlive => hlive⟩
    rw [slots_add, List.getElem?_append_left hlt, hfound]
  index := by
    intro id place hplace
    have hne : id ≠ slot.id := by
      rintro rfl
      cases h.symm.trans hplace
    rw [position, Rack.add, IdMap.get?_insert, if_neg hne]
    exact hplace

theorem keeps_retire (rack : Rack) (gone : UInt64) : rack.Keeps (rack.retire gone) where
  slots := by
    intro place slot hslot
    refine ⟨slot.without gone, ?_, Slot.id_without gone slot, Slot.owner_without gone slot,
      Slot.order_without gone slot, fun hlive => ?_⟩
    · rw [slots_retire, List.getElem?_map, hslot, Option.map_some]
    · rw [Slot.live_without, Bool.and_eq_true] at hlive
      exact hlive.1
  index := fun _ _ hplace => hplace

end Rack

namespace Holdings

variable {holdings : Holdings}

def Sound (holdings : Holdings) : Prop :=
  ∀ owner, (holdings.ofUser owner).Sound owner

theorem sound_empty : Holdings.Sound .empty :=
  fun owner => Holding.sound_empty owner

theorem ofUser_insert (holdings : Holdings) (owner : UInt64) (holding : Holding) (key : UInt64) :
    ofUser (holdings.insert owner holding) key =
      if key = owner then holding else holdings.ofUser key := by
  rw [ofUser, IdMap.get?_insert]
  split <;> rfl

theorem Sound.insert (h : holdings.Sound) {owner : UInt64} {holding : Holding}
    (hholding : holding.Sound owner) : Sound (holdings.insert owner holding) := by
  intro key
  rw [ofUser_insert]
  split
  next hkey => exact hkey ▸ hholding
  next => exact h key

/-- What a call comes to: it fails and leaves the holdings as they were, or an order that has no
place yet comes into a holding, or one leaves a holding. -/
inductive Turned (holdings : Holdings) : Reply Unit × Holdings → Prop where
  | fail (error : Error) : Turned holdings (Reply.fail error, holdings)
  | accept (owner id : UInt64) (order : Order)
      (hnew : ¬ (holdings.ofUser owner).rack.Lists id) :
      Turned holdings (.ok (), holdings.insert owner ((holdings.ofUser owner).accept id order))
  | release (owner id : UInt64) :
      Turned holdings (.ok (), holdings.insert owner ((holdings.ofUser owner).release id))

theorem Sound.turned_add (h : holdings.Sound) (owner id : UInt64) (order : Order) :
    holdings.Turned (holdings.addInPlace owner id order) := by
  rw [addInPlace_eq, add]
  change holdings.Turned (Reply.settled holdings
    (Reply.ofExcept ((holdings.ofUser owner).add id order >>= _)))
  cases hposition : (holdings.ofUser owner).rack.position id with
  | some place =>
      rw [Holding.add, hposition]
      exact .fail _
  | none =>
      have hnew : ¬ (holdings.ofUser owner).rack.Lists id := by
        intro hlists
        obtain ⟨place, hplace⟩ := (h owner).indexed.lists_iff.1 hlists
        cases hposition.symm.trans hplace
      rw [(h owner).add_eq order hnew]
      exact .accept owner id order hnew

theorem Sound.turned_remove (h : holdings.Sound) (owner id : UInt64) :
    holdings.Turned (holdings.removeInPlace owner id) := by
  rw [removeInPlace_eq, remove, user]
  cases howner : holdings.get? owner with
  | none => exact .fail _
  | some holding =>
      have hholding : holdings.ofUser owner = holding := by rw [ofUser, howner, Option.getD_some]
      have hsound := h owner
      rw [hholding] at hsound
      change holdings.Turned (Reply.settled holdings (holding.remove id >>= _))
      cases hget : holding.get id with
      | error error =>
          rw [Holding.remove, hget]
          exact .fail error
      | ok order =>
          rw [hsound.remove_eq hget, ← hholding]
          exact .release owner id

theorem Sound.turned (h : holdings.Sound) (call : Turnover) :
    holdings.Turned (call.perform holdings) := by
  cases call with
  | add owner id order => exact h.turned_add owner id order
  | remove owner id => exact h.turned_remove owner id

theorem Turned.sound {result : Reply Unit × Holdings} (hturned : holdings.Turned result)
    (h : holdings.Sound) : result.2.Sound := by
  cases hturned with
  | fail error => exact h
  | accept owner id order hnew => exact h.insert ((h owner).accept order hnew)
  | release owner id => exact h.insert ((h owner).release id)

theorem Turned.keeps {result : Reply Unit × Holdings} (hturned : holdings.Turned result)
    (h : holdings.Sound) (user : UInt64) :
    (holdings.ofUser user).rack.Keeps (result.2.ofUser user).rack := by
  cases hturned with
  | fail error => exact .refl _
  | accept owner id order hnew =>
      rw [ofUser_insert]
      split
      next huser =>
        rw [huser]
        exact Rack.keeps_add ((h owner).indexed.position_eq_none hnew)
      next => exact .refl _
  | release owner id =>
      rw [ofUser_insert]
      split
      next huser =>
        rw [huser]
        exact Rack.keeps_retire _ id
      next => exact .refl _

theorem Sound.follow (h : holdings.Sound) (calls : List Turnover) :
    (Turnover.follow holdings calls).Sound := by
  induction calls generalizing holdings with
  | nil => exact h
  | cons call calls ih => exact ih ((h.turned call).sound h)

theorem Sound.keeps (h : holdings.Sound) (calls : List Turnover) (user : UInt64) :
    (holdings.ofUser user).rack.Keeps ((Turnover.follow holdings calls).ofUser user).rack := by
  induction calls generalizing holdings with
  | nil => exact .refl _
  | cons call calls ih =>
      have hturned := h.turned call
      exact (hturned.keeps h user).trans (ih (hturned.sound h))

/-- After any calls, failing ones among them: in every holding the index finds just the place of
each order, each order has one place, and an order waits just if its place is live, with the order
that the place shows. Whatever is called then, no place changes but by its order leaving. A call
that fails leaves all holdings as they were. -/
theorem agree_turnover (past more : List Turnover) (call : Turnover) (user : UInt64) :
    let now := Turnover.follow .empty past
    let rack := (now.ofUser user).rack
    (∀ id place, rack.position id = some place ↔ rack.slots[place]?.map Slot.id = some id) ∧
    (rack.slots.map Slot.id).Nodup ∧
    (∀ id order, (now.ofUser user).orders.get? id = some order ↔
      ∃ slot ∈ rack.slots, slot.id = id ∧ slot.live = true ∧ slot.order = order) ∧
    rack.Keeps ((Turnover.follow now more).ofUser user).rack ∧
    (call.perform now = (.ok (), (call.perform now).2) ∨
      ∃ error, call.perform now = (Reply.fail error, now)) := by
  intro now rack
  have hsound : now.Sound := sound_empty.follow past
  have hholding := hsound user
  refine ⟨hholding.indexed, hholding.indexed.nodup, hholding.waits_iff, hsound.keeps more user, ?_⟩
  have hturned := hsound.turned call
  generalize call.perform now = result at hturned ⊢
  cases hturned with
  | fail error => exact .inr ⟨error, rfl⟩
  | accept owner id order hnew => exact .inl rfl
  | release owner id => exact .inl rfl

end Holdings

end ParcelDesk
