import ParcelDesk.Proofs.Desk.Faults
import ParcelDesk.Proofs.Desk.Lifecycle
import ParcelDesk.Proofs.Desk.Listings
import ParcelDesk.Proofs.Desk.Replay

/-!
# Accepting a parcel

What is wrong with a parcel itself is told of the parcel alone, and only a parcel with nothing wrong
is looked up in the stock. So whether it is accepted can be read off the parcel, the day and the
visits made so far.
-/

namespace ParcelDesk

/-! ## The price of a parcel -/

namespace Parcel

variable {parcel : Parcel}

/-- Base cost and surcharges together, which may be too much for an amount. -/
def price (parcel : Parcel) : Nat :=
  parcel.base.toNat + parcel.container.surcharge +
    if parcel.wrapped then Packaging.wrapCost else 0

def exceeded (parcel : Parcel) : Option Nat :=
  parcel.container.weightLimit.filter fun limit => limit < parcel.weight.toNat

/-- The first thing that is wrong with the parcel itself. -/
def packingFault (parcel : Parcel) : Option Error :=
  if parcel.container = .tape ∧ parcel.wrapped = true then
    some (.refused .wrongInput "can't use tape twice")
  else match parcel.exceeded with
    | some limit =>
        some (.refused .wrongInput s!"max weight for {parcel.container.name} is {limit}gr")
    | none =>
        if parcel.price < UInt64.size then none
        else some (.refused .wrongInput s!"cost {parcel.base} is too large")

structure Packable (parcel : Parcel) : Prop where
  bare : ¬ (parcel.container = .tape ∧ parcel.wrapped = true)
  light : ∀ limit, parcel.container.weightLimit = some limit → parcel.weight.toNat ≤ limit
  payable : parcel.price < UInt64.size

structure Priced (parcel : Parcel) (order : Order) : Prop where
  expires_eq : order.expires = parcel.expires
  container_eq : order.container = parcel.container
  weight_eq : order.weight = parcel.weight
  cost_eq : order.cost.toNat = parcel.price
  taped_iff : order.taped = true ↔ parcel.wrapped = true ∨ parcel.container = .tape

theorem exceeded_eq_none :
    parcel.exceeded = none ↔
      ∀ limit, parcel.container.weightLimit = some limit → parcel.weight.toNat ≤ limit := by
  simp [exceeded, Option.filter_eq_none_iff]

theorem packingFault_eq_none : parcel.packingFault = none ↔ parcel.Packable := by
  unfold packingFault
  constructor
  · intro hnone
    split at hnone
    · cases hnone
    · rename_i hbare
      split at hnone
      · cases hnone
      · rename_i hlight
        split at hnone
        · rename_i hpayable
          exact ⟨hbare, exceeded_eq_none.1 hlight, hpayable⟩
        · cases hnone
  · intro h
    rw [if_neg h.bare, exceeded_eq_none.2 h.light]
    exact if_pos h.payable

end Parcel

namespace Packaging

variable {packaging : Packaging} {weight base : UInt64}

theorem exists_make_of_bare {container : Container} {wrapped : Bool}
    (h : ¬ (container = .tape ∧ wrapped = true)) :
    ∃ packaging, make container wrapped = .ok packaging ∧ packaging.container = container ∧
      packaging.wrapped = wrapped := by
  cases wrapped with
  | false => exact ⟨_, rfl, rfl, rfl⟩
  | true =>
      have htape : (ofContainer container).container ≠ .tape := fun tape => h ⟨tape, rfl⟩
      rw [make, if_pos rfl, wrap, dif_neg htape]
      exact ⟨_, rfl, rfl, rfl⟩

theorem cost_of_excess {limit : Nat} (hlimit : packaging.container.weightLimit = some limit)
    (hexcess : limit < weight.toNat) :
    packaging.cost weight base =
      .error (.refused .wrongInput s!"max weight for {packaging.container.name} is {limit}gr") := by
  rw [cost, hlimit]
  exact if_pos hexcess

theorem cost_of_light (hlight : ∀ limit, packaging.container.weightLimit = some limit →
      weight.toNat ≤ limit) :
    packaging.cost weight base = cost.total packaging base := by
  rw [cost]
  cases hlimit : packaging.container.weightLimit with
  | none => rfl
  | some limit => exact if_neg (Nat.not_lt.2 (hlight limit hlimit))

end Packaging

namespace Parcel

variable {parcel : Parcel}

theorem exists_packaging (hbare : ¬ (parcel.container = .tape ∧ parcel.wrapped = true)) :
    ∃ packaging : Packaging, packaging.container = parcel.container ∧
      packaging.wrapped = parcel.wrapped ∧
      parcel.base.toNat + packaging.surcharge = parcel.price ∧
      parcel.order = Order.make parcel.expires parcel.weight parcel.base packaging := by
  obtain ⟨packaging, hmake, hcontainer, hwrapped⟩ := Packaging.exists_make_of_bare hbare
  refine ⟨packaging, hcontainer, hwrapped, ?_, ?_⟩
  · rw [Packaging.surcharge, hcontainer, hwrapped, price, Nat.add_assoc]
  · rw [order, hmake]
    rfl

theorem Packable.exists_order (h : parcel.Packable) :
    ∃ order, parcel.order = .ok order ∧ parcel.Priced order := by
  obtain ⟨packaging, hcontainer, hwrapped, hprice, hmade⟩ := exists_packaging h.bare
  rw [hmade, Order.make, Packaging.cost_of_light (hcontainer ▸ h.light), Packaging.cost.total,
    dif_pos (hprice ▸ h.payable)]
  refine ⟨_, rfl, rfl, hcontainer, rfl, ?_, ?_⟩
  · exact (UInt64.toNat_ofNatLT ..).trans hprice
  · simp [Packaging.isTaped, hcontainer, hwrapped]

theorem order_of_packingFault {error : Error} (h : parcel.packingFault = some error) :
    parcel.order = .error error := by
  unfold packingFault at h
  split at h
  next hdoubled =>
    cases h
    rw [order, hdoubled.1, hdoubled.2]
    rfl
  next hbare =>
    obtain ⟨packaging, hcontainer, -, hprice, hmade⟩ := exists_packaging hbare
    rw [hmade, Order.make]
    split at h
    next limit hexceeded =>
      cases h
      obtain ⟨hlimit, hexcess⟩ := Option.filter_eq_some_iff.1 hexceeded
      rw [← hcontainer] at hlimit ⊢
      rw [Packaging.cost_of_excess hlimit (of_decide_eq_true hexcess)]
      rfl
    next hexceeded =>
      have hlight := exceeded_eq_none.1 hexceeded
      rw [Packaging.cost_of_light (hcontainer ▸ hlight), Packaging.cost.total]
      split at h
      next => cases h
      next hunpayable =>
        cases h
        rw [dif_neg (hprice ▸ hunpayable)]
        rfl

end Parcel

/-! ## What the desk does with a parcel -/

theorem Told.eq_ok {slots : List Slot} {reply : Reply (List Slot)} (h : Told slots reply)
    (hsome : slots ≠ []) : reply = .ok slots := by
  cases h with
  | nothing detail => exact absurd rfl hsome
  | listed _ => rfl

namespace Stock

variable {stock : Stock} {parcel : Parcel} {now : Instant}

/-- The first reason why the desk turns a parcel down. -/
def acceptFault (stock : Stock) (now : Instant) (parcel : Parcel) : Option Error :=
  if parcel.expires < now.date then
    some (.refused .expirationPassed
      s!"can't accept order {parcel.id}: expired on {Desk.dateText parcel.expires}")
  else parcel.packingFault.or ((stock.history.get? parcel.id).map fun record =>
    .refused .alreadyExists s!"order {parcel.id} has already been {record.status.words}")

theorem acceptFault_eq_none :
    stock.acceptFault now parcel = none ↔
      ¬ parcel.expires < now.date ∧ parcel.Packable ∧ stock.history.get? parcel.id = none := by
  unfold acceptFault
  split
  next hexpired => simp [hexpired]
  next hfresh =>
    rw [Option.or_eq_none_iff, Option.map_eq_none_iff, Parcel.packingFault_eq_none]
    exact ⟨fun h => ⟨hfresh, h⟩, And.right⟩

/-- The order of a parcel has been taken in: it can be read in every store, its place is the last
one of its owner's, and nothing else is different. -/
structure TookIn (stock : Stock) (parcel : Parcel) (order : Order) (now : Instant)
    (after : Stock) : Prop where
  record_told : serve (.record parcel.id) after =
    (.ok ⟨order, .accepted, parcel.owner, now⟩, after)
  order_told : serve (.order parcel.owner parcel.id) after = (.ok order, after)
  expiration_told : serve (.expiration parcel.owner parcel.id) after = (.ok parcel.expires, after)
  listing_told : ∀ clock,
    ((Desk.orders parcel.owner 0 0).runBy serve clock after).reply =
      .ok ((stock.holding parcel.owner).rack.showing ++
        [.ofOrder parcel.owner parcel.id order])
  slots_eq : (after.holding parcel.owner).rack.slots =
    (stock.holding parcel.owner).rack.slots ++ [.ofOrder parcel.owner parcel.id order]
  history_eq : ∀ key, key ≠ parcel.id → after.history.get? key = stock.history.get? key
  orders_eq : ∀ key, key ≠ parcel.id → (after.holding parcel.owner).orders.get? key =
    (stock.holding parcel.owner).orders.get? key
  index_eq : ∀ key, key ≠ parcel.id → (after.holding parcel.owner).rack.index.get? key =
    (stock.holding parcel.owner).rack.index.get? key
  others_eq : ∀ user, user ≠ parcel.owner →
    after.holdings.get? user = stock.holdings.get? user
  refunds_eq : after.refunds = stock.refunds

theorem Settled.tookIn (h : stock.Settled) (hnew : stock.history.get? parcel.id = none)
    {order : Order} (hexpires : order.expires = parcel.expires) (now : Instant) :
    stock.TookIn parcel order now (stock.register parcel.owner parcel.id order now) := by
  have hafter := h.register hnew parcel.owner order now
  have hrecord := get?_register parcel.owner parcel.id order now stock parcel.id
  rw [if_pos rfl] at hrecord
  have hdeposit := deposit_of_get? hrecord
  have hshows := (hafter.accepted_iff parcel.id _ hrecord).1 rfl
  have hholding := holding_register parcel.owner parcel.id order now stock parcel.owner
  rw [if_pos rfl] at hholding
  constructor
  case record_told => exact serve_record.2 hrecord
  case order_told =>
    rw [Stock.serve, hafter.get_of_shows hdeposit hshows]
    rfl
  case expiration_told =>
    exact hafter.serve_expiration.2 ⟨order, hdeposit, hshows, hexpires⟩
  case listing_told =>
    intro clock
    have htold := Desk.told_orders (stock.register parcel.owner parcel.id order now)
      parcel.owner clock
    rw [h.showing_register, if_pos rfl] at htold
    exact htold.eq_ok (List.append_ne_nil_of_right_ne_nil _ (List.cons_ne_nil _ _))
  case slots_eq =>
    rw [hholding, Holding.rack_accept, Rack.slots_add, (h.holding_sound parcel.owner).owner_eq]
  case history_eq =>
    intro key hkey
    rw [get?_register, if_neg hkey]
  case orders_eq =>
    intro key hkey
    rw [hholding, Holding.accept, IdMap.get?_insert, if_neg hkey]
  case index_eq =>
    intro key hkey
    rw [hholding, Holding.rack_accept, Rack.add, IdMap.get?_insert, Slot.id_ofOrder, if_neg hkey]
  case others_eq =>
    intro user huser
    rw [Stock.register, IdMap.get?_insert, if_neg huser]
  case refunds_eq => rfl

end Stock

namespace Counter

/-- Somebody who came to the counter has had a parcel accepted under the identifier. -/
def HasAccepted (counter : Counter) (id : UInt64) : Prop :=
  ∃ (number : Nat) (visit : Visit) (parcel : Parcel), counter.visits[number]? = some visit ∧
    visit.deed = .accept parcel ∧ parcel.id = id ∧ counter.changesOf number ≠ []

end Counter

namespace Chronicle

variable {start final : Stock} {mutations : List (Mutation Stock)}

theorem grows_after (h : Chronicle start mutations final) {mutation : Mutation Stock}
    (hmem : mutation ∈ mutations) : mutation.after.Grows final := by
  induction h with
  | nil => cases hmem
  | cons hsettled hproper hchange hrest ih =>
      cases hmem with
      | head => exact hrest.grows
      | tail _ hmem => exact ih hmem

theorem born (h : Chronicle start mutations final) {id : UInt64} {record : Record}
    (hnew : start.history.get? id = none) (hrecord : final.history.get? id = some record) :
    ∃ mutation ∈ mutations, ∃ owner order time,
      mutation.request = .addOrder owner id order time := by
  induction h with
  | nil =>
      rw [hnew] at hrecord
      cases hrecord
  | @cons before after final request rest hsettled hproper hchange hrest ih =>
      cases hafter : after.history.get? id with
      | none =>
          obtain ⟨mutation, hmem, hrequest⟩ := ih hafter hrecord
          exact ⟨mutation, List.mem_cons_of_mem _ hmem, hrequest⟩
      | some found =>
          obtain ⟨owner, order, time, hrequest, -⟩ := hchange.born hnew hafter
          exact ⟨_, List.mem_cons_self, owner, order, time, hrequest⟩

end Chronicle

namespace Counter

variable {counter : Counter}

/-- The history has a record of exactly the orders that were accepted. -/
theorem Kept.hasAccepted_iff (h : Kept .empty counter) {id : UInt64} :
    counter.HasAccepted id ↔ counter.stock.history.get? id ≠ none := by
  constructor
  · rintro ⟨number, visit, parcel, hvisit, hdeed, rfl, hchanges⟩
    obtain ⟨mutation, hmem⟩ := List.exists_mem_of_ne_nil _ hchanges
    obtain ⟨found, hfound, -, receipt, looks, hsuccess⟩ := h.success (mem_changesOf.1 hmem)
    rw [hvisit] at hfound
    cases hfound
    have hid : parcel.id ∈ visit.deed.ids := by
      rw [hdeed]
      exact List.mem_cons_self
    obtain ⟨record, hrecord, -⟩ := hsuccess.reached hid
    have hledger : mutation ∈ counter.ledger.map Prod.snd :=
      List.mem_map.2 ⟨_, mem_changesOf.1 hmem, rfl⟩
    obtain ⟨later, hlater, -⟩ := h.chronicle.grows_after hledger parcel.id record hrecord
    rw [hlater]
    exact Option.some_ne_none later
  · intro hsome
    obtain ⟨record, hrecord⟩ := Option.ne_none_iff_exists'.1 hsome
    -- nothing was there at the start, so some visit has added the record
    obtain ⟨mutation, hmem, owner, order, time, hrequest⟩ := h.chronicle.born rfl hrecord
    obtain ⟨⟨number, _⟩, hentry, rfl⟩ := List.mem_map.1 hmem
    obtain ⟨visit, hvisit, hone, receipt, looks, hsuccess⟩ := h.success hentry
    obtain ⟨parcel, hdeed, hid, -⟩ := hsuccess.registers hrequest
    refine ⟨number, visit, parcel, hvisit, hdeed, hid, ?_⟩
    rw [hone]
    exact List.cons_ne_nil _ _

/-- All that a request to accept a parcel does: either nothing is wrong with the parcel and its
order is new, and it is taken in, or nothing happens and the first fault is told. -/
structure Accepted (counter : Counter) (parcel : Parcel) (now : Instant) (reply : Reply Order)
    (after : Stock) : Prop where
  ok_iff : (∃ order, reply = .ok order) ↔
    ¬ parcel.expires < now.date ∧ parcel.Packable ∧ ¬ counter.HasAccepted parcel.id
  taken : ∀ order, reply = .ok order →
    parcel.Priced order ∧ counter.stock.TookIn parcel order now after
  refused : ∀ stop, reply = .error stop → after = counter.stock ∧
    ∃ error, counter.stock.acceptFault now parcel = some error ∧ stop = .error error

end Counter

namespace Desk

variable {stock : Stock} {parcel : Parcel} {now : Instant}

theorem run_tryAccept_of_fault {error : Error}
    (hfault : stock.acceptFault now parcel = some error) :
    ((tryAccept parcel).run Stock.serve now stock).reply = Reply.fail error ∧
      ((tryAccept parcel).run Stock.serve now stock).state = stock := by
  rw [tryAccept_eq, Call.run]
  unfold Stock.acceptFault at hfault
  split at hfault
  next hexpired =>
    cases hfault
    rw [if_pos hexpired]
    exact ⟨rfl, rfl⟩
  next hfresh =>
    rw [if_neg hfresh]
    cases hpacking : parcel.packingFault with
    | some wrong =>
        rw [hpacking, Option.some_or] at hfault
        cases hfault
        rw [Parcel.order_of_packingFault hpacking]
        exact ⟨rfl, rfl⟩
    | none =>
        -- nothing is wrong with the parcel itself, so its identifier is taken
        obtain ⟨order, horder, -⟩ := (Parcel.packingFault_eq_none.1 hpacking).exists_order
        rw [hpacking, Option.none_or] at hfault
        obtain ⟨record, hrecord, rfl⟩ := Option.map_eq_some_iff.1 hfault
        have hserve : Stock.serve (.addOrder parcel.owner parcel.id order now) stock = _ :=
          Stock.addOrder_of_some hrecord parcel.owner order now
        rw [horder]
        change ((Call.request _ >>= _).run Stock.serve now stock).reply = _ ∧
          ((Call.request _ >>= _).run Stock.serve now stock).state = _
        rw [Call.run_request_fail hserve]
        exact ⟨rfl, rfl⟩

section Kept

variable {counter : Counter}

theorem acceptFault_eq_none_of_kept (h : counter.Kept .empty) :
    counter.stock.acceptFault now parcel = none ↔
      ¬ parcel.expires < now.date ∧ parcel.Packable ∧ ¬ counter.HasAccepted parcel.id := by
  rw [Stock.acceptFault_eq_none, h.hasAccepted_iff, not_not]

theorem accepted_of_fault (h : counter.Kept .empty) {error : Error}
    (hfault : counter.stock.acceptFault now parcel = some error) :
    counter.Accepted parcel now (Reply.fail error) counter.stock := by
  constructor
  case ok_iff =>
    rw [← acceptFault_eq_none_of_kept h, hfault]
    exact ⟨fun ⟨_, hok⟩ => (nomatch hok), fun hnone => (nomatch hnone)⟩
  case taken => exact fun order hok => nomatch hok
  case refused =>
    intro stop hstop
    cases hstop
    exact ⟨rfl, error, hfault, rfl⟩

theorem accepted_of_fine (h : counter.Kept .empty) {order : Order}
    (hfault : counter.stock.acceptFault now parcel = none) (hpriced : parcel.Priced order) :
    counter.Accepted parcel now (.ok order)
      (counter.stock.register parcel.owner parcel.id order now) := by
  constructor
  case ok_iff => exact ⟨fun _ => (acceptFault_eq_none_of_kept h).1 hfault, fun _ => ⟨order, rfl⟩⟩
  case taken =>
    intro answer hanswer
    cases hanswer
    have hnew := (Stock.acceptFault_eq_none.1 hfault).2.2
    exact ⟨hpriced, h.settled.tookIn hnew hpriced.expires_eq now⟩
  case refused => exact fun stop hstop => nomatch hstop

theorem accepted_of_kept (h : counter.Kept .empty) (parcel : Parcel) (now : Instant) :
    counter.Accepted parcel now ((accept parcel).run Stock.serve now counter.stock).reply
      ((accept parcel).run Stock.serve now counter.stock).state := by
  rw [accept, reply_announced, state_announced]
  cases hfault : counter.stock.acceptFault now parcel with
  | some error =>
      obtain ⟨hfail, hsame⟩ := run_tryAccept_of_fault hfault
      rw [hfail, hsame]
      exact accepted_of_fault h hfault
  | none =>
      obtain ⟨hfresh, hpackable, hnew⟩ := Stock.acceptFault_eq_none.1 hfault
      obtain ⟨order, horder, hpriced⟩ := hpackable.exists_order
      obtain ⟨hok, hafter⟩ := (tryAccept_yields h.settled hfresh horder hnew).run_eq
      rw [hok, hafter]
      exact accepted_of_fine h hfault hpriced

end Kept

/-- Accepting is exactly told by the parcel, the day and what has been accepted before, whatever
else has been done at the desk. -/
theorem accept_exactly (past : List Move) (parcel : Parcel) (now : Instant) :
    let counter := (Counter.opened .empty).run past
    let ran := (accept parcel).run Stock.serve now counter.stock
    counter.Accepted parcel now ran.reply ran.state :=
  accepted_of_kept ((Counter.kept_opened Stock.settled_empty).run past) parcel now

end Desk

end ParcelDesk
