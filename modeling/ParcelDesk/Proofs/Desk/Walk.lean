import ParcelDesk.Proofs.Desk.Counter
import ParcelDesk.Proofs.Store.Cursor

/-!
# Walks through a listing

A reader goes through the orders of a user page by page, and anything may happen at the counter
between two pages. The orders accepted for the user have their places in the order in which they
came, so the reader meets them in that order.
-/

namespace ParcelDesk

open ParcelDesk.Rack (beyond cursor)

def Request.brings? (owner : UInt64) : Request → Option UInt64
  | .addOrder user id _ _ => if user = owner then some id else none
  | _ => none

namespace Stock

structure Enrolls (owner : UInt64) (stock : Stock) (more : List UInt64) (after : Stock) : Prop where
  ages : (stock.holding owner).rack.Ages (after.holding owner).rack
  ids : (after.holding owner).rack.ids = (stock.holding owner).rack.ids ++ more

variable {owner : UInt64} {stock after last : Stock} {more others : List UInt64}

theorem Enrolls.of_rack_eq (h : (after.holding owner).rack = (stock.holding owner).rack) :
    stock.Enrolls owner [] after := by
  refine ⟨?_, ?_⟩
  · rw [h]
    exact .refl _
  · rw [h, List.append_nil]

theorem Enrolls.refl (stock : Stock) : stock.Enrolls owner [] stock :=
  .of_rack_eq rfl

theorem Enrolls.trans (hfirst : stock.Enrolls owner more after)
    (hsecond : after.Enrolls owner others last) : stock.Enrolls owner (more ++ others) last where
  ages := hfirst.ages.trans hsecond.ages
  ids := by rw [hsecond.ids, hfirst.ids, List.append_assoc]

theorem enrolls_register (stock : Stock) (owner id : UInt64) (order : Order) (time : Instant)
    (user : UInt64) :
    stock.Enrolls owner (if user = owner then [id] else [])
      (stock.register user id order time) := by
  by_cases howner : owner = user
  · refine ⟨?_, ?_⟩
    · rw [holding_register, if_pos howner, Holding.rack_accept, howner]
      exact Rack.ages_add _ _
    · rw [holding_register, if_pos howner, if_pos howner.symm, Holding.rack_accept, Rack.ids_add,
        howner, Slot.id_ofOrder]
  · rw [if_neg (Ne.symm howner)]
    refine .of_rack_eq ?_
    rw [holding_register, if_neg howner]

theorem enrolls_release (stock : Stock) (id : UInt64) (status : Status) (time : Instant) :
    stock.Enrolls owner [] (stock.release id status time) := by
  cases hrecord : stock.history.get? id with
  | none =>
      rw [release, hrecord]
      exact .refl stock
  | some record =>
      by_cases howner : owner = record.owner
      · refine ⟨?_, ?_⟩
        · rw [holding_release hrecord, if_pos howner, Holding.rack_release]
          exact Rack.ages_retire _ _
        · rw [holding_release hrecord, if_pos howner, Holding.rack_release, Rack.ids_retire,
            List.append_nil]
      · refine .of_rack_eq ?_
        rw [holding_release hrecord, if_neg howner]

theorem enrolls_releaseAll (stock : Stock) (ids : List UInt64) (status : Status) (time : Instant) :
    stock.Enrolls owner [] (stock.releaseAll ids status time) := by
  induction ids generalizing stock with
  | nil => exact .refl stock
  | cons id rest ih =>
      rw [releaseAll_cons]
      exact (enrolls_release stock id status time).trans (ih _)

theorem Change.enrolls {request : Request} (h : stock.Change request after) (owner : UInt64) :
    stock.Enrolls owner (request.brings? owner).toList after := by
  cases h with
  | register user id order time hnew =>
      have henrolls := enrolls_register stock owner id order time user
      rw [Request.brings?]
      split
      next howner =>
        rw [if_pos howner] at henrolls
        exact henrolls
      next howner =>
        rw [if_neg howner] at henrolls
        exact henrolls
  | releaseAll ids status time hall => exact enrolls_releaseAll stock (distinct ids) status time
  | mark id status time record hrecord => exact .of_rack_eq rfl
  | enqueue id order time record hrecord hstatus hnew => exact .of_rack_eq rfl
  | dequeue id time record hrecord hstatus hshows => exact .of_rack_eq rfl

end Stock

theorem Chronicle.enrolls {start final : Stock} {mutations : List (Mutation Stock)}
    (h : Chronicle start mutations final) (owner : UInt64) :
    start.Enrolls owner (mutations.filterMap fun mutation => mutation.request.brings? owner)
      final := by
  induction h with
  | nil stock => exact .refl stock
  | cons hsettled hproper hchange hrest ih =>
      have henrolls := (hchange.enrolls owner).trans ih
      rw [List.filterMap_cons]
      split
      next hnone =>
        rw [hnone] at henrolls
        exact henrolls
      next id hsome =>
        rw [hsome] at henrolls
        exact henrolls

namespace Counter

variable {counter : Counter} {owner limit : UInt64} {received : List UInt64}

/-- The orders accepted for a user since the counter opened, in the order in which they came. -/
def accepted (counter : Counter) (owner : UInt64) : List UInt64 :=
  counter.ledger.filterMap fun entry => entry.2.request.brings? owner

theorem Kept.enrolls {start : Stock} (h : Kept start counter) (moves : List Move)
    (owner : UInt64) :
    ∃ more, (counter.run moves).accepted owner = counter.accepted owner ++ more ∧
      counter.stock.Enrolls owner more (counter.run moves).stock := by
  obtain ⟨entries, hledger, hchronicle⟩ := h.run_ledger moves
  refine ⟨_, ?_, hchronicle.enrolls owner⟩
  rw [accepted, hledger, List.filterMap_append, List.filterMap_map]
  rfl

theorem Kept.ids_eq (h : Kept .empty counter) (owner : UInt64) :
    (counter.stock.holding owner).rack.ids = counter.accepted owner := by
  rw [(h.chronicle.enrolls owner).ids, List.filterMap_map]
  rfl

/-- How far a reader has come: the orders received, and whether the last page brought nothing new,
with the counter as it was then. -/
structure Walk where
  received : List UInt64
  finished : Bool
  counter : Counter

/-- A reader who has received some orders goes on page by page, each of them beginning at the last
order received, until one brings nothing new. Between two pages there may be moves at the
counter. -/
def walk (owner limit : UInt64) : List (List Move) → List UInt64 → Counter → Reply Walk
  | pauses, received, counter => do
      let page ← (Stock.serve (.orders owner (cursor received) limit) counter.stock).1
      let news := beyond received page
      if news = [] then return ⟨received, true, counter⟩
      else match pauses with
        | [] => return ⟨received ++ news, false, counter⟩
        | moves :: rest => walk owner limit rest (received ++ news) (counter.run moves)

theorem Kept.listing (h : Kept .empty counter) (hsome : counter.accepted owner ≠ []) :
    ∃ holding, counter.stock.holdings.get? owner = some holding ∧
      counter.stock.holding owner = holding := by
  cases hholding : counter.stock.holdings.get? owner with
  | some holding => exact ⟨holding, rfl, Stock.holding_of_get? hholding⟩
  | none =>
      have hids := h.ids_eq owner
      rw [Stock.holding, hholding] at hids
      exact absurd hids.symm hsome

/-- No page fails, and each keeps the reader in step. -/
theorem Kept.page (h : Kept .empty counter) (hsome : counter.accepted owner ≠ [])
    (hzero : 0 ∉ counter.accepted owner) (hlimit : 2 ≤ limit)
    (hcaught : (counter.stock.holding owner).rack.Caught received) :
    ∃ page, (Stock.serve (.orders owner (cursor received) limit) counter.stock).1 = .ok page ∧
      (counter.stock.holding owner).rack.Caught (received ++ beyond received page) ∧
      (beyond received page = [] →
        ∀ id, (counter.stock.holding owner).rack.Shows id → id ∈ received) := by
  obtain ⟨holding, hget, hholding⟩ := h.listing hsome
  rw [← h.ids_eq] at hzero
  have hindexed := (h.settled.holding_sound owner).indexed
  obtain ⟨page, hlist, hrest⟩ := Holding.caught_page hindexed hzero hlimit hcaught
  refine ⟨page, ?_, hrest⟩
  rw [hholding] at hlist
  rw [Stock.serve, Holdings.list, Holdings.user, hget]
  exact congrArg Reply.ofExcept hlist

/-- A reader has received orders in the order in which they were accepted, none twice, and if the
last page brought nothing new, every order that waited for the user then. -/
structure Walk.Complete (owner : UInt64) (walk : Walk) : Prop where
  ordered : walk.received.Sublist (walk.counter.accepted owner)
  once : walk.received.Nodup
  all : walk.finished = true → ∀ id record, walk.counter.stock.history.get? id = some record →
    record.owner = owner → record.status = .accepted → id ∈ walk.received

theorem Kept.complete (h : Kept .empty counter)
    (hcaught : (counter.stock.holding owner).rack.Caught received) {finished : Bool}
    (hall : finished = true →
      ∀ id, (counter.stock.holding owner).rack.Shows id → id ∈ received) :
    Walk.Complete owner ⟨received, finished, counter⟩ where
  ordered := h.ids_eq owner ▸ hcaught.sublist
  once := (h.settled.holding_sound owner).indexed.nodup.sublist hcaught.sublist
  all := by
    intro hfinished id record hrecord howner hstatus
    refine hall hfinished id ?_
    rw [← howner]
    exact (h.settled.accepted_iff id record hrecord).1 hstatus

section Steps

variable {page : List Slot}

theorem walk_of_nothing
    (hpage : (Stock.serve (.orders owner (cursor received) limit) counter.stock).1 = .ok page)
    (hnews : beyond received page = []) (pauses : List (List Move)) :
    counter.walk owner limit pauses received = .ok ⟨received, true, counter⟩ := by
  rw [walk, hpage]
  exact if_pos hnews

theorem walk_nil
    (hpage : (Stock.serve (.orders owner (cursor received) limit) counter.stock).1 = .ok page)
    (hnews : beyond received page ≠ []) :
    counter.walk owner limit [] received =
      .ok ⟨received ++ beyond received page, false, counter⟩ := by
  rw [walk, hpage]
  exact if_neg hnews

theorem walk_cons
    (hpage : (Stock.serve (.orders owner (cursor received) limit) counter.stock).1 = .ok page)
    (hnews : beyond received page ≠ []) (moves : List Move) (pauses : List (List Move)) :
    counter.walk owner limit (moves :: pauses) received =
      (counter.run moves).walk owner limit pauses (received ++ beyond received page) := by
  rw [walk, hpage]
  exact if_neg hnews

end Steps

/-- A walk that goes on from where the reader is in step. Each page but the last one brings
something. -/
theorem Kept.walk (h : Kept .empty counter) (hlimit : 2 ≤ limit) (pauses : List (List Move))
    (hsome : counter.accepted owner ≠ [])
    (hzero : 0 ∉ (counter.run pauses.flatten).accepted owner)
    (hcaught : (counter.stock.holding owner).rack.Caught received) :
    ∃ walk, counter.walk owner limit pauses received = .ok walk ∧ walk.Complete owner ∧
      (walk.finished = false → received.length + pauses.length < walk.received.length) := by
  induction pauses generalizing counter received with
  | nil =>
      obtain ⟨page, hpage, hnext, hdone⟩ := h.page hsome hzero hlimit hcaught
      by_cases hnews : beyond received page = []
      · exact ⟨_, walk_of_nothing hpage hnews [], h.complete hcaught fun _ => hdone hnews,
          Bool.noConfusion⟩
      · refine ⟨_, walk_nil hpage hnews, h.complete hnext Bool.noConfusion, fun _ => ?_⟩
        rw [List.length_append]
        exact Nat.lt_add_of_pos_right (List.length_pos_iff.2 hnews)
  | cons moves pauses ih =>
      obtain ⟨more, haccepted, henrolls⟩ := h.enrolls moves owner
      rw [List.flatten_cons, run_append] at hzero
      have hzeroNext : 0 ∉ (counter.run moves).accepted owner := by
        obtain ⟨others, hothers, -⟩ := (h.run moves).enrolls pauses.flatten owner
        rw [hothers] at hzero
        exact fun hmem => hzero (List.mem_append_left _ hmem)
      have hzeroNow : 0 ∉ counter.accepted owner := by
        rw [haccepted] at hzeroNext
        exact fun hmem => hzeroNext (List.mem_append_left _ hmem)
      obtain ⟨page, hpage, hnext, hdone⟩ := h.page hsome hzeroNow hlimit hcaught
      by_cases hnews : beyond received page = []
      · exact ⟨_, walk_of_nothing hpage hnews _, h.complete hcaught fun _ => hdone hnews,
          Bool.noConfusion⟩
      · have hsomeNext : (counter.run moves).accepted owner ≠ [] := by
          rw [haccepted]
          exact List.append_ne_nil_of_left_ne_nil hsome more
        obtain ⟨walk, hwalk, hcomplete, hlength⟩ :=
          ih (h.run moves) hsomeNext hzero (hnext.ages henrolls.ages)
        refine ⟨walk, (walk_cons hpage hnews moves pauses).trans hwalk, hcomplete, ?_⟩
        intro hfinished
        have hmore := hlength hfinished
        have hpos := List.length_pos_iff.2 hnews
        rw [List.length_append] at hmore
        rw [List.length_cons]
        omega

/-- Whatever was done at the desk before, and whatever is done there between the pages: no page of a
walk fails, the orders are received as they were accepted and none of them twice, and a walk that
has come to a page with nothing new has received every order that waits for the user by then. A walk
that has not yet come there has received more orders than there were pauses. -/
theorem walk_complete (past : List Move) (pauses : List (List Move)) {owner limit : UInt64}
    (hlimit : 2 ≤ limit) (hsome : ((opened .empty).run past).accepted owner ≠ [])
    (hzero : 0 ∉ ((opened .empty).run (past ++ pauses.flatten)).accepted owner) :
    ∃ walk, ((opened .empty).run past).walk owner limit pauses [] = .ok walk ∧
      walk.Complete owner ∧ (walk.finished = false → pauses.length < walk.received.length) := by
  rw [run_append] at hzero
  have hkept := (kept_opened Stock.settled_empty).run past
  obtain ⟨walk, hwalk, hcomplete, hlength⟩ :=
    hkept.walk hlimit pauses hsome hzero (Rack.caught_nil _)
  refine ⟨walk, hwalk, hcomplete, fun hfinished => ?_⟩
  rw [← Nat.zero_add pauses.length]
  exact hlength hfinished

def dawn : Instant := ⟨21600, 0, by decide, by decide, by decide⟩

def coming (visit : Nat) (id : UInt64) : List Move :=
  .enter (.accept ⟨7, id, default, .box, false, 100, 50⟩) ::
    List.replicate 3 (.advance visit dawn)

def leaving (visit : Nat) (id : UInt64) : List Move :=
  .enter (.give [id]) :: List.replicate 7 (.advance visit dawn)

/-- The order at the cursor leaves after the first page, and another comes after the second. -/
theorem walk_complete_leaving :
    ∃ walk, ((opened .empty).run (coming 0 3 ++ coming 1 2)).walk 7 2
        [leaving 2 2, coming 3 5, []] [] = .ok walk ∧
      walk.Complete 7 ∧ (walk.finished = false → 3 < walk.received.length) :=
  walk_complete (coming 0 3 ++ coming 1 2) [leaving 2 2, coming 3 5, []] (by decide)
    (by decide +kernel) (by decide +kernel)

end Counter

end ParcelDesk
