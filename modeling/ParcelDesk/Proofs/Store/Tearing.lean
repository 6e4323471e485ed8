import ParcelDesk.Proofs.Desk.Giving
import ParcelDesk.Proofs.Store.Places

/-!
# Torn batches

A batch is checked before anything is handed out, but the checks look at the history and at what
waits for the owners, and an order is also withdrawn from the rack of its owner. In a snapshot from
elsewhere the racks and their indices may tell something else than the rest, and then the checks may
pass although an order has no live place. Such a batch is torn: the orders before that one have been
handed out when it fails.
-/

namespace ParcelDesk

namespace Rack

variable {rack : Rack} {id : UInt64} {place : Nat}

/-- The place at which the index finds an order, if it is live. -/
def berth (rack : Rack) (id : UInt64) : Option Nat :=
  (rack.position id).filter fun place => rack.slots[place]?.any Slot.live

def absence (rack : Rack) (id : UInt64) : Stop :=
  match rack.position id with
  | none => .error (.refused .notFound s!"order {id} is not listed")
  | some place =>
      if place < rack.slots.length then .error (.refused .notFound s!"order {id} is not listed")
      else .crash (.indexOutOfBounds rack.slots.length place)

def vacate (rack : Rack) (place : Nat) : Rack :=
  { rack with slots := rack.slots.modify place Slot.retire }

theorem getElem?_vacate (rack : Rack) (place other : Nat) :
    (rack.vacate place).slots[other]? =
      if other = place then rack.slots[other]?.map Slot.retire else rack.slots[other]? := by
  change (rack.slots.modify place Slot.retire)[other]? = _
  rw [List.getElem?_modify]
  by_cases hplace : place = other
  · simp [hplace]
  · simp [hplace, Ne.symm hplace]

theorem berth_vacate (rack : Rack) (place : Nat) (id : UInt64) :
    (rack.vacate place).berth id = if rack.berth id = some place then none else rack.berth id := by
  change (rack.position id).filter _ = _
  cases hposition : rack.position id with
  | none => simp [berth, hposition]
  | some found =>
      rw [berth, hposition, Option.filter_some, Option.filter_some, getElem?_vacate]
      by_cases hplace : found = place
      · subst hplace
        cases rack.slots[found]? with
        | none => simp
        | some slot => simp [Slot.retire]
      · rw [if_neg hplace]
        split <;> simp [hplace]

theorem absence_vacate (rack : Rack) (place : Nat) (id : UInt64) :
    (rack.vacate place).absence id = rack.absence id := by
  have hlength : (rack.vacate place).slots.length = rack.slots.length :=
    List.length_modify _ _ _
  rw [absence, absence, hlength]
  rfl

theorem withdraw_of_berth (h : rack.berth id = some place) :
    rack.withdraw id = .ok (rack.vacate place) := by
  obtain ⟨hposition, hlive⟩ := Option.filter_eq_some_iff.1 h
  obtain ⟨slot, hslot, hlive⟩ := (Option.any_eq_true _ _).1 hlive
  rw [withdraw, hposition]
  simp only [hslot]
  rw [if_pos hlive, vacate, List.modify_eq_set_getElem?, hslot]
  rfl

theorem withdraw_of_no_berth (h : rack.berth id = none) :
    rack.withdraw id = .error (rack.absence id) := by
  rw [withdraw, absence]
  cases hposition : rack.position id with
  | none => rfl
  | some place =>
      have hdead := Option.filter_eq_none_iff.1 h place hposition
      simp only
      cases hslot : rack.slots[place]? with
      | none => rw [if_neg (Nat.not_lt.2 (List.getElem?_eq_none_iff.1 hslot))]
      | some slot =>
          rw [hslot, Option.any_some] at hdead
          simp only
          rw [if_neg hdead, if_pos (List.getElem?_eq_some_iff.1 hslot).1]
          rfl

end Rack

namespace Holding

variable {holding : Holding} {id : UInt64} {order : Order}

def takeOut (holding : Holding) (id : UInt64) (place : Nat) : Holding :=
  { holding with rack := holding.rack.vacate place, orders := holding.orders.erase id }

theorem remove_of_berth (horder : holding.orders.get? id = some order) {place : Nat}
    (h : holding.rack.berth id = some place) :
    holding.remove id = .ok (holding.takeOut id place) := by
  rw [remove, get, horder, Rack.withdraw_of_berth h]
  rfl

theorem remove_of_no_berth (horder : holding.orders.get? id = some order)
    (h : holding.rack.berth id = none) :
    holding.remove id = .error (holding.rack.absence id) := by
  rw [remove, get, horder, Rack.withdraw_of_no_berth h]
  rfl

end Holding

namespace Stock

variable {stock after : Stock} {id owner : UInt64} {ids : List UInt64} {place : Nat}
  {status : Status} {time : Instant}

def berth (stock : Stock) (id : UInt64) : Option (UInt64 × Nat) :=
  (stock.ownerOf id).bind fun owner =>
    ((stock.holding owner).rack.berth id).map fun place => (owner, place)

/-- Each order has a live place, and no two of them have the same. -/
structure Berthed (stock : Stock) (ids : List UInt64) : Prop where
  found : ∀ id ∈ ids, stock.berth id ≠ none
  apart : (ids.map stock.berth).Nodup

/-- Orders have been handed out: their records have moved, they wait no longer, and their places are
dead. All else is as it was. -/
structure Taken (stock : Stock) (ids : List UInt64) (status : Status) (time : Instant)
    (after : Stock) : Prop where
  history_eq : ∀ id, after.history.get? id =
    if id ∈ ids then (stock.history.get? id).map (·.moved status time) else stock.history.get? id
  orders_eq : ∀ owner id, (after.holding owner).orders.get? id =
    if id ∈ ids ∧ stock.ownerOf id = some owner then none
    else (stock.holding owner).orders.get? id
  slots_eq : ∀ owner (place : Nat), (after.holding owner).rack.slots[place]? =
    if some (owner, place) ∈ ids.map stock.berth
      then (stock.holding owner).rack.slots[place]?.map Slot.retire
    else (stock.holding owner).rack.slots[place]?
  index_eq : ∀ owner, (after.holding owner).rack.index = (stock.holding owner).rack.index
  owner_eq : ∀ owner, (after.holding owner).owner = (stock.holding owner).owner
  users_eq : ∀ owner, (after.holdings.get? owner).isSome = (stock.holdings.get? owner).isSome
  refunds_eq : after.refunds = stock.refunds

/-- No order has moved to another stage, left what waits for a user, or lost a live place. -/
structure Unmoved (before after : Stock) : Prop where
  status : ∀ id, (after.history.get? id).map Record.status =
    (before.history.get? id).map Record.status
  orders : ∀ owner id, (after.holding owner).orders.get? id = (before.holding owner).orders.get? id
  live : ∀ owner (place : Nat), (after.holding owner).rack.slots[place]?.map Slot.live =
    (before.holding owner).rack.slots[place]?.map Slot.live
  refunds : after.refunds = before.refunds

def objections (stock : Stock) (ids : List UInt64) : List Error :=
  errorsOf (ids.map stock.checkRemovable)

/-- What comes of handing orders out one after the other: all are handed out, or the batch is torn
at the first order that has no live place, or none of its own. -/
inductive Parting (stock : Stock) (ids : List UInt64) (status : Status) (time : Instant) :
    Reply Unit × Stock → Prop where
  | finish (after : Stock) (hberthed : stock.Berthed ids)
      (htaken : stock.Taken ids status time after) :
      Parting stock ids status time (.ok (), after)
  | tear (taken : List UInt64) (id : UInt64) (rest : List UInt64) (owner : UInt64) (after : Stock)
      (hids : ids = taken ++ id :: rest) (hberthed : stock.Berthed taken)
      (hlost : ¬ stock.Berthed (taken ++ [id])) (howner : stock.ownerOf id = some owner)
      (htaken : stock.Taken taken status time after) :
      Parting stock ids status time (.error ((stock.holding owner).rack.absence id), after)

inductive Removal (stock : Stock) (ids : List UInt64) (status : Status) (time : Instant) :
    Reply Unit × Stock → Prop where
  | refuse (hobjections : stock.objections ids ≠ []) :
      Removal stock ids status time (Reply.fail (.fold (stock.objections ids)), stock)
  | pass (result : Reply Unit × Stock) (hobjections : stock.objections ids = [])
      (hparting : stock.Parting ids status time result) :
      Removal stock ids status time result

/-! ## One order -/

def Awaits (stock : Stock) (id owner : UInt64) : Prop :=
  stock.ownerOf id = some owner ∧ ∃ order, (stock.holding owner).orders.get? id = some order

def takeOut (stock : Stock) (id owner : UInt64) (place : Nat) (status : Status) (time : Instant) :
    Stock :=
  { stock with
    holdings := stock.holdings.insert owner ((stock.holding owner).takeOut id place)
    history := stock.history.mark id status time }

theorem berth_eq_some : stock.berth id = some (owner, place) ↔
    stock.ownerOf id = some owner ∧ (stock.holding owner).rack.berth id = some place := by
  rw [berth, Option.bind_eq_some_iff]
  constructor
  · rintro ⟨_, howner, hplace⟩
    obtain ⟨_, hplace, heq⟩ := Option.map_eq_some_iff.1 hplace
    cases heq
    exact ⟨howner, hplace⟩
  · rintro ⟨howner, hplace⟩
    exact ⟨owner, howner, by rw [hplace, Option.map_some]⟩

theorem holding_takeOut (stock : Stock) (id owner : UInt64) (place : Nat) (status : Status)
    (time : Instant) (key : UInt64) :
    (stock.takeOut id owner place status time).holding key =
      if key = owner then (stock.holding owner).takeOut id place else stock.holding key := by
  unfold Stock.holding takeOut
  rw [IdMap.get?_insert]
  split <;> rfl

theorem orders_takeOut (stock : Stock) (id owner : UInt64) (place : Nat) (status : Status)
    (time : Instant) (user key : UInt64) :
    ((stock.takeOut id owner place status time).holding user).orders.get? key =
      if key = id ∧ user = owner then none else (stock.holding user).orders.get? key := by
  rw [holding_takeOut]
  by_cases huser : user = owner
  · rw [if_pos huser, huser, Holding.takeOut, IdMap.get?_erase]
    simp only [and_true]
  · rw [if_neg huser, if_neg fun hboth => huser hboth.2]

theorem slot_takeOut (stock : Stock) (id owner : UInt64) (place : Nat) (status : Status)
    (time : Instant) (user : UInt64) (seat : Nat) :
    ((stock.takeOut id owner place status time).holding user).rack.slots[seat]? =
      if user = owner ∧ seat = place then (stock.holding user).rack.slots[seat]?.map Slot.retire
      else (stock.holding user).rack.slots[seat]? := by
  rw [holding_takeOut]
  by_cases huser : user = owner
  · rw [if_pos huser, huser]
    refine (Rack.getElem?_vacate _ place seat).trans ?_
    simp only [true_and]
  · rw [if_neg huser, if_neg fun hboth => huser hboth.1]

theorem ownerOf_takeOut (stock : Stock) (id owner : UInt64) (place : Nat) (status : Status)
    (time : Instant) (key : UInt64) :
    (stock.takeOut id owner place status time).ownerOf key = stock.ownerOf key := by
  unfold ownerOf takeOut
  rw [History.get?_mark]
  split
  · rw [Option.map_map]
    rfl
  · rfl

theorem berth_takeOut (stock : Stock) (id owner : UInt64) (place : Nat) (status : Status)
    (time : Instant) (key : UInt64) :
    (stock.takeOut id owner place status time).berth key =
      if stock.berth key = some (owner, place) then none else stock.berth key := by
  rw [berth, ownerOf_takeOut, berth]
  cases stock.ownerOf key with
  | none => rfl
  | some user =>
      rw [Option.bind_some, Option.bind_some, holding_takeOut]
      by_cases huser : user = owner
      · subst huser
        rw [if_pos rfl, Holding.takeOut, Rack.berth_vacate]
        cases (stock.holding user).rack.berth key with
        | none => rfl
        | some found =>
            by_cases hfound : found = place
            · simp [hfound]
            · simp [hfound]
      · rw [if_neg huser]
        cases (stock.holding user).rack.berth key with
        | none => rfl
        | some found => simp [huser]

theorem berth_takeOut_eq_some {key user : UInt64} {seat : Nat} :
    (stock.takeOut id owner place status time).berth key = some (user, seat) ↔
      stock.berth key = some (user, seat) ∧ (user, seat) ≠ (owner, place) := by
  rw [berth_takeOut]
  split
  next hsame => simp [hsame, Prod.ext_iff, eq_comm]
  next hother =>
    constructor
    · intro hseat
      exact ⟨hseat, fun hsame => hother (hsame ▸ hseat)⟩
    · exact And.left

theorem absence_takeOut (stock : Stock) (id owner : UInt64) (place : Nat) (status : Status)
    (time : Instant) (user key : UInt64) :
    ((stock.takeOut id owner place status time).holding user).rack.absence key =
      (stock.holding user).rack.absence key := by
  rw [holding_takeOut]
  split
  next huser =>
    rw [huser]
    exact Rack.absence_vacate _ place key
  next => rfl

theorem Awaits.takeOut (h : stock.Awaits id owner) {gone user : UInt64} (hid : id ≠ gone)
    (place : Nat) (status : Status) (time : Instant) :
    (stock.takeOut gone user place status time).Awaits id owner := by
  obtain ⟨howner, order, horder⟩ := h
  refine ⟨(ownerOf_takeOut ..).trans howner, order, ?_⟩
  rw [orders_takeOut, if_neg fun hboth => hid hboth.1, horder]

/-- Handing out an order that waits comes down to its berth. -/
theorem Awaits.removeAll_cons (h : stock.Awaits id owner) (status : Status) (time : Instant)
    (rest : List (UInt64 × UInt64)) :
    removeAll status time ((id, owner) :: rest) stock =
      match (stock.holding owner).rack.berth id with
      | some place => removeAll status time rest (stock.takeOut id owner place status time)
      | none => (.error ((stock.holding owner).rack.absence id), stock) := by
  obtain ⟨howner, order, horder⟩ := h
  obtain ⟨record, hrecord, -⟩ := Option.map_eq_some_iff.1 howner
  cases hholding : stock.holdings.get? owner with
  | none =>
      rw [Stock.holding, hholding] at horder
      cases horder
  | some holding =>
      have hsame := holding_of_get? hholding
      rw [hsame] at horder ⊢
      cases hberth : holding.rack.berth id with
      | none =>
          have hremove : stock.holdings.remove owner id = .error (holding.rack.absence id) := by
            rw [Holdings.remove, Holdings.user, hholding]
            change (holding.remove id >>= _) = _
            rw [Holding.remove_of_no_berth horder hberth]
            rfl
          rw [removeAll, hremove]
      | some place =>
          have hremove : stock.holdings.remove owner id =
              .ok (stock.holdings.insert owner (holding.takeOut id place)) := by
            rw [Holdings.remove, Holdings.user, hholding]
            change (holding.remove id >>= _) = _
            rw [Holding.remove_of_berth horder hberth]
            rfl
          rw [removeAll, hremove]
          simp only [History.setStatus_of_some hrecord]
          rw [Stock.takeOut, hsame]

/-! ## All orders of a batch -/

theorem berthed_nil (stock : Stock) : stock.Berthed [] where
  found := nofun
  apart := List.nodup_nil

theorem taken_nil (stock : Stock) (status : Status) (time : Instant) :
    stock.Taken [] status time stock where
  history_eq := fun _ => rfl
  orders_eq := fun _ _ => rfl
  slots_eq := fun _ _ => rfl
  index_eq := fun _ => rfl
  owner_eq := fun _ => rfl
  users_eq := fun _ => rfl
  refunds_eq := rfl

theorem berth_takeOut_of_ne {key : UInt64} (h : stock.berth key ≠ some (owner, place)) :
    (stock.takeOut id owner place status time).berth key = stock.berth key := by
  rw [berth_takeOut, if_neg h]

/-- An order that has a berth takes it from the orders behind it. -/
theorem berthed_cons_iff (h : stock.berth id = some (owner, place)) (status : Status)
    (time : Instant) :
    stock.Berthed (id :: ids) ↔ (stock.takeOut id owner place status time).Berthed ids := by
  constructor
  · rintro ⟨hfound, hapart⟩
    rw [List.map_cons, List.nodup_cons, h] at hapart
    have hkept : ∀ key ∈ ids,
        (stock.takeOut id owner place status time).berth key = stock.berth key :=
      fun key hkey => berth_takeOut_of_ne fun hsame =>
        hapart.1 (List.mem_map.2 ⟨key, hkey, hsame⟩)
    constructor
    case found => exact fun key hkey => hkept key hkey ▸ hfound key (List.mem_cons_of_mem id hkey)
    case apart => exact List.map_congr_left hkept ▸ hapart.2
  · rintro ⟨hfound, hapart⟩
    have hother : ∀ key ∈ ids, stock.berth key ≠ some (owner, place) := by
      intro key hkey hsame
      exact hfound key hkey (by rw [berth_takeOut, if_pos hsame])
    have hkept : ∀ key ∈ ids,
        (stock.takeOut id owner place status time).berth key = stock.berth key :=
      fun key hkey => berth_takeOut_of_ne (hother key hkey)
    constructor
    case found =>
      intro key hkey
      cases hkey with
      | head => exact h ▸ Option.some_ne_none _
      | tail _ hkey => exact hkept key hkey ▸ hfound key hkey
    case apart =>
      rw [List.map_cons, List.nodup_cons, h]
      refine ⟨?_, List.map_congr_left hkept ▸ hapart⟩
      intro hmem
      obtain ⟨key, hkey, hsame⟩ := List.mem_map.1 hmem
      exact hother key hkey hsame

theorem mem_berths_cons (h : stock.berth id = some (owner, place)) (status : Status)
    (time : Instant) {user : UInt64} {seat : Nat} :
    some (user, seat) ∈ (id :: ids).map stock.berth ↔
      (user = owner ∧ seat = place) ∨
        some (user, seat) ∈ ids.map (stock.takeOut id owner place status time).berth := by
  simp only [List.mem_map, List.mem_cons, exists_eq_or_imp, berth_takeOut_eq_some, h,
    Option.some.injEq, Prod.mk.injEq, ne_eq]
  constructor
  · rintro (⟨rfl, rfl⟩ | ⟨key, hkey, hberth⟩)
    · exact .inl ⟨rfl, rfl⟩
    · by_cases hsame : user = owner ∧ seat = place
      · exact .inl hsame
      · exact .inr ⟨key, hkey, hberth, hsame⟩
  · rintro (⟨rfl, rfl⟩ | ⟨key, hkey, hberth, -⟩)
    · exact .inl ⟨rfl, rfl⟩
    · exact .inr ⟨key, hkey, hberth⟩

theorem isSome_of_berth (h : stock.berth id = some (owner, place)) :
    (stock.holdings.get? owner).isSome = true := by
  obtain ⟨-, hplace⟩ := berth_eq_some.1 h
  cases hholding : stock.holdings.get? owner with
  | none =>
      rw [Stock.holding, hholding] at hplace
      cases hplace
  | some holding => rfl

theorem Taken.cons (hberth : stock.berth id = some (owner, place))
    (h : (stock.takeOut id owner place status time).Taken ids status time after) :
    stock.Taken (id :: ids) status time after where
  history_eq := by
    intro key
    rw [h.history_eq, takeOut, History.get?_mark]
    by_cases hkey : key = id
    · subst hkey
      cases stock.history.get? key <;> simp [Record.moved]
    · simp [hkey]
  orders_eq := by
    intro user key
    obtain ⟨howner, -⟩ := berth_eq_some.1 hberth
    rw [h.orders_eq, ownerOf_takeOut, orders_takeOut]
    by_cases hkey : key = id
    · subst hkey
      by_cases huser : user = owner
      · simp [huser, howner]
      · simp [huser, howner, Ne.symm huser]
    · simp [hkey]
  slots_eq := by
    intro user seat
    rw [h.slots_eq, slot_takeOut]
    simp only [mem_berths_cons hberth status time]
    by_cases hsame : user = owner ∧ seat = place
    · -- The place is dead already, so it makes no difference who else had it.
      rw [if_pos hsame, if_pos (Or.intro_left _ hsame)]
      split
      · rw [Option.map_map]
        rfl
      · rfl
    · simp only [hsame, if_false, false_or]
  index_eq := by
    intro user
    rw [h.index_eq, holding_takeOut]
    split
    next huser => rw [huser]; rfl
    next => rfl
  owner_eq := by
    intro user
    rw [h.owner_eq, holding_takeOut]
    split
    next huser => rw [huser]; rfl
    next => rfl
  users_eq := by
    intro user
    rw [h.users_eq, takeOut, IdMap.get?_insert]
    split
    next huser => rw [huser, isSome_of_berth hberth, Option.isSome_some]
    next => rfl
  refunds_eq := h.refunds_eq

theorem Parting.cons {result : Reply Unit × Stock} (hberth : stock.berth id = some (owner, place))
    (h : (stock.takeOut id owner place status time).Parting ids status time result) :
    stock.Parting (id :: ids) status time result := by
  cases h with
  | finish after hberthed htaken =>
      exact .finish after ((berthed_cons_iff hberth status time).2 hberthed) (htaken.cons hberth)
  | tear taken other rest user after hids hberthed hlost howner htaken =>
      rw [absence_takeOut]
      refine .tear (id :: taken) other rest user after (congrArg _ hids)
        ((berthed_cons_iff hberth status time).2 hberthed) ?_
        ((ownerOf_takeOut ..).symm.trans howner) (htaken.cons hberth)
      intro hall
      exact hlost ((berthed_cons_iff hberth status time).1 hall)

theorem parting_removeAll {pairs : List (UInt64 × UInt64)} (status : Status) (time : Instant)
    (hnodup : (pairs.map Prod.fst).Nodup) (hwait : ∀ pair ∈ pairs, stock.Awaits pair.1 pair.2) :
    stock.Parting (pairs.map Prod.fst) status time (removeAll status time pairs stock) := by
  induction pairs generalizing stock with
  | nil => exact .finish stock stock.berthed_nil (stock.taken_nil status time)
  | cons pair rest ih =>
      obtain ⟨id, owner⟩ := pair
      have hfirst : stock.Awaits id owner := hwait _ List.mem_cons_self
      rw [List.map_cons, List.nodup_cons] at hnodup
      rw [hfirst.removeAll_cons, List.map_cons]
      cases hplace : (stock.holding owner).rack.berth id with
      | none =>
          refine .tear [] id (rest.map Prod.fst) owner stock rfl stock.berthed_nil ?_ hfirst.1
            (stock.taken_nil status time)
          intro hberthed
          refine hberthed.found id List.mem_cons_self ?_
          rw [berth, hfirst.1, Option.bind_some, hplace, Option.map_none]
      | some place =>
          have hberth : stock.berth id = some (owner, place) := berth_eq_some.2 ⟨hfirst.1, hplace⟩
          have hrest : ∀ pair ∈ rest,
              (stock.takeOut id owner place status time).Awaits pair.1 pair.2 := by
            intro pair hpair
            refine (hwait pair (List.mem_cons_of_mem _ hpair)).takeOut ?_ place status time
            intro hsame
            exact hnodup.1 (List.mem_map.2 ⟨pair, hpair, hsame⟩)
          exact (ih hnodup.2 hrest).cons hberth

/-! ## The whole removal -/

theorem orders_of_get {order : Order} (h : stock.holdings.get owner id = .ok order) :
    (stock.holding owner).orders.get? id = some order := by
  rw [Holdings.get, Holdings.user] at h
  rw [Stock.holding]
  cases hholding : stock.holdings.get? owner with
  | none =>
      rw [hholding] at h
      cases h
  | some holding =>
      rw [hholding, ok_bind, Holding.get] at h
      rw [Option.getD_some]
      cases horder : holding.orders.get? id with
      | none =>
          rw [horder] at h
          cases h
      | some found =>
          rw [horder] at h
          cases h
          rfl

theorem awaits_of_checkRemovable {record : Record} (h : stock.checkRemovable id = .ok record) :
    stock.Awaits id record.owner := by
  unfold checkRemovable at h
  cases hrecord : stock.history.get? id with
  | none =>
      rw [History.find_of_none hrecord] at h
      cases h
  | some found =>
      rw [History.find_of_some hrecord, ok_bind] at h
      split at h
      next => cases h
      next =>
        cases hget : stock.holdings.get found.owner id with
        | error error =>
            rw [hget] at h
            cases h
        | ok order =>
            rw [hget] at h
            cases h
            exact ⟨ownerOf_of_some hrecord, order, orders_of_get hget⟩

theorem values_of_objections (h : stock.objections ids = []) :
    let pairs := valuesOf (ids.map fun id =>
      (stock.checkRemovable id).map fun record => (id, record.owner))
    pairs.map Prod.fst = ids ∧ ∀ pair ∈ pairs, stock.Awaits pair.1 pair.2 := by
  induction ids with
  | nil => exact ⟨rfl, nofun⟩
  | cons id rest ih =>
      rw [objections, List.map_cons] at h
      cases hcheck : stock.checkRemovable id with
      | error error =>
          rw [hcheck] at h
          cases h
      | ok record =>
          rw [hcheck] at h
          obtain ⟨hids, hwait⟩ := ih h
          simp only [List.map_cons, hcheck]
          refine ⟨congrArg (id :: ·) hids, fun pair hpair => ?_⟩
          cases hpair with
          | head => exact awaits_of_checkRemovable hcheck
          | tail _ hpair => exact hwait pair hpair

theorem awaits_of_objections (h : stock.objections ids = []) :
    ∀ id ∈ ids, ∃ owner, stock.Awaits id owner := by
  obtain ⟨hids, hwait⟩ := values_of_objections h
  intro id hid
  rw [← hids] at hid
  obtain ⟨pair, hpair, rfl⟩ := List.mem_map.1 hid
  exact ⟨pair.2, hwait pair hpair⟩

theorem removal_removeOrders (stock : Stock) (ids : List UInt64) (status : Status)
    (time : Instant) :
    stock.Removal (distinct ids) status time (stock.removeOrders ids status time) := by
  have herrors : errorsOf ((distinct ids).map fun id =>
      (stock.checkRemovable id).map fun record => (id, record.owner)) =
        stock.objections (distinct ids) := errorsOf_map_map _ _ _
  rw [removeOrders]
  simp only [herrors]
  split
  next hnone =>
    obtain ⟨hids, hwait⟩ := values_of_objections hnone
    refine .pass _ hnone ?_
    have hnodup := nodup_distinct ids
    rw [← hids] at hnodup
    have hparting := parting_removeAll status time hnodup hwait
    rw [hids] at hparting
    exact hparting
  next hsome => exact .refuse hsome

theorem unmoved_refl (stock : Stock) : stock.Unmoved stock where
  status := fun _ => rfl
  orders := fun _ _ => rfl
  live := fun _ _ => rfl
  refunds := rfl

/-- What is handed out shows, since it waits no longer. -/
theorem Taken.unmoved_iff (h : stock.Taken ids status time after)
    (hwait : ∀ id ∈ ids, ∃ owner, stock.Awaits id owner) : stock.Unmoved after ↔ ids = [] := by
  constructor
  · intro hunmoved
    refine List.eq_nil_iff_forall_not_mem.2 fun id hid => ?_
    obtain ⟨owner, howner, order, horder⟩ := hwait id hid
    have hgone := h.orders_eq owner id
    rw [if_pos ⟨hid, howner⟩, hunmoved.orders owner id, horder] at hgone
    cases hgone
  · rintro rfl
    constructor
    case status => exact fun id => congrArg _ (h.history_eq id)
    case orders => exact h.orders_eq
    case live => exact fun owner place => congrArg _ (h.slots_eq owner place)
    case refunds => exact h.refunds_eq

theorem berthed_singleton (h : stock.berth id ≠ none) : stock.Berthed [id] where
  found := by
    intro key hkey
    rw [List.mem_singleton.1 hkey]
    exact h
  apart := List.nodup_singleton _

theorem Berthed.head (h : stock.Berthed ids) :
    (∀ first ∈ ids.head?, stock.berth first = none) ↔ ids = [] := by
  cases ids with
  | nil => exact ⟨fun _ => rfl, fun _ => nofun⟩
  | cons id rest =>
      refine ⟨fun hlost => ?_, nofun⟩
      exact absurd (hlost id rfl) (h.found id List.mem_cons_self)

theorem Parting.unmoved_iff {result : Reply Unit × Stock}
    (h : stock.Parting ids status time result)
    (hwait : ∀ id ∈ ids, ∃ owner, stock.Awaits id owner) :
    stock.Unmoved result.2 ↔ ∀ first ∈ ids.head?, stock.berth first = none := by
  cases h with
  | finish after hberthed htaken => rw [htaken.unmoved_iff hwait, hberthed.head]
  | tear taken id rest owner after hids hberthed hlost howner htaken =>
      subst hids
      rw [htaken.unmoved_iff fun key hkey => hwait key (List.mem_append_left _ hkey)]
      cases taken with
      | nil =>
          refine ⟨fun _ first hfirst => ?_, fun _ => rfl⟩
          cases hfirst
          by_contra hberth
          exact hlost (berthed_singleton hberth)
      | cons first more => exact hberthed.head.symm

/-- A batch is handed out whole or up to the first order that has no live place of its own, whatever
the stores hold. So one that fails has changed nothing just if the checks turned it down or its
first order is the one without a place. -/
theorem removeOrders_exactly (stock : Stock) (ids : List UInt64) (status : Status)
    (time : Instant) :
    let batch := distinct ids
    let result := stock.removeOrders ids status time
    stock.Removal batch status time result ∧
      (stock.Unmoved result.2 ↔
        stock.objections batch ≠ [] ∨ ∀ first ∈ batch.head?, stock.berth first = none) := by
  intro batch result
  have hremoval : stock.Removal batch status time result :=
    removal_removeOrders stock ids status time
  refine ⟨hremoval, ?_⟩
  generalize result = result at hremoval
  cases hremoval with
  | refuse hobjections => exact ⟨fun _ => .inl hobjections, fun _ => stock.unmoved_refl⟩
  | pass result hobjections hparting =>
      rw [hparting.unmoved_iff (awaits_of_objections hobjections)]
      exact ⟨.inr, fun h => h.resolve_left (not_not_intro hobjections)⟩

/-- Two orders wait for a user, and only the first has a place. -/
def unplaced : Stock :=
  let order : Order := ⟨.first, .box, 100, 70, false⟩
  let record : Record := ⟨order, .accepted, 7, Date.first.start⟩
  { history := (IdMap.empty.insert 1 record).insert 2 record
    holdings := IdMap.empty.insert 7
      ⟨7, (IdMap.empty.insert 1 order).insert 2 order,
        ⟨[.ofOrder 7 1 order], IdMap.empty.insert 1 0⟩⟩
    refunds := .empty }

theorem placesFit_unplaced : unplaced.PlacesFit := by
  refine placesFit_of_entries (fun entry hentry => ?_) Rack.placesFit_empty
  rw [List.mem_singleton.1 hentry]
  intro place hplace
  rw [List.mem_singleton.1 hplace]
  decide

/-- The checks pass, the second order is not found on the rack, and the first is gone. -/
theorem torn_unplaced :
    let ended := unplaced.removeOrders [1, 2] .issuedToClient Date.last.start
    ofSnapshot unplaced.snapshot = .ok unplaced ∧
      ended.1 = Reply.refuse .notFound "order 2 is not listed" ∧ ¬ unplaced.Unmoved ended.2 := by
  refine ⟨placesFit_unplaced.ofSnapshot unplaced.isSnapshot_snapshot, rfl, fun hunmoved => ?_⟩
  have hstatus := hunmoved.status 1
  cases hstatus

end Stock

end ParcelDesk
