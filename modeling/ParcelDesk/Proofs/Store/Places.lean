import Mathlib.Data.List.Perm.Subperm
import ParcelDesk.Proofs.Call.Clock
import ParcelDesk.Proofs.Json.Yields
import ParcelDesk.Proofs.Store.Document

/-!
# Places that are words

A place that an index knows is a word in every stock that was read, and stays one whatever is
requested. A new place is as high as there are places before it. If the index knows as many orders
as there are places, there cannot be more of them than there are words.
-/

namespace ParcelDesk

open Json

namespace IdMap

theorem length_place {id : UInt64} {entries : List (UInt64 × α)} (h : find? id entries = none)
    (value : α) : (place id value entries).length = entries.length + 1 := by
  induction entries with
  | nil => rfl
  | cons head rest ih =>
      rw [find?] at h
      split at h
      · cases h
      · rename_i hne
        rw [place]
        split
        · rfl
        · rw [if_neg (Ne.symm hne), List.length_cons, ih h, List.length_cons]

theorem length_entries_le (map : IdMap α) : map.entries.length ≤ UInt64.size := by
  have hnodup : (map.entries.map fun entry => entry.1.toNat).Nodup :=
    List.pairwise_map.2 (map.ascending.imp fun hlt => Nat.ne_of_lt (UInt64.lt_iff_toNat_lt.1 hlt))
  have hwords : (map.entries.map fun entry => entry.1.toNat) ⊆ List.range UInt64.size := by
    intro n hn
    obtain ⟨entry, -, rfl⟩ := List.mem_map.1 hn
    exact List.mem_range.2 entry.1.toNat_lt
  have hlength := (List.subperm_of_subset hnodup hwords).length_le
  rw [List.length_map, List.length_range] at hlength
  exact hlength

end IdMap

/-! ## Racks -/

namespace Rack

variable {first rack later : Rack}

theorem push_eq_ok {slot : Slot} {place : Nat} (h : rack.push slot = .ok (place, later)) :
    rack.index.get? slot.id = none ∧ later = rack.add slot := by
  rw [push] at h
  split at h
  · cases h
  · rename_i hnew
    cases h
    rw [IdMap.contains, Bool.not_eq_true, Option.isSome_eq_false_iff, Option.isNone_iff_eq_none]
      at hnew
    exact ⟨hnew, rfl⟩

theorem withdraw_eq_ok {id : UInt64} (h : rack.withdraw id = .ok later) :
    later.slots.length = rack.slots.length ∧ later.index = rack.index := by
  rw [withdraw] at h
  split at h
  · cases h
  · split at h
    · cases h
    · split at h
      · cases h
        exact ⟨List.length_set, rfl⟩
      · cases h

/-- What can have become of a rack: it got new places, and orders have left it. -/
inductive Later (first : Rack) : Rack → Prop
  | refl : Later first first
  | push {rack later : Rack} {slot : Slot} {place : Nat} (h : Later first rack)
      (hpush : rack.push slot = .ok (place, later)) : Later first later
  | withdraw {rack later : Rack} {id : UInt64} (h : Later first rack)
      (hwithdraw : rack.withdraw id = .ok later) : Later first later

theorem Later.trans (h : first.Later rack) (hlater : rack.Later later) : first.Later later := by
  induction hlater with
  | refl => exact h
  | push _ hpush ih => exact .push ih hpush
  | withdraw _ hwithdraw ih => exact .withdraw ih hwithdraw

theorem Later.length_le (h : first.Later later) : first.slots.length ≤ later.slots.length := by
  induction h with
  | refl => exact Nat.le_refl _
  | push _ hpush ih =>
      rw [(push_eq_ok hpush).2, slots_add, List.length_append]
      omega
  | withdraw _ hwithdraw ih => rwa [(withdraw_eq_ok hwithdraw).1]

theorem PlacesFit.add {slot : Slot} (h : rack.PlacesFit) (hroom : rack.slots.length < UInt64.size) :
    (rack.add slot).PlacesFit := by
  intro entry hentry
  rcases IdMap.mem_place hentry with rfl | hentry
  · exact hroom
  · exact h entry hentry

/-- The index knows at least as many orders as there are places. -/
def Covered (rack : Rack) : Prop :=
  rack.slots.length ≤ rack.index.entries.length

theorem Covered.add {slot : Slot} (h : rack.Covered) (hnew : rack.index.get? slot.id = none) :
    (rack.add slot).Covered := by
  have hlength := IdMap.length_place hnew rack.slots.length
  change (rack.slots ++ [slot]).length ≤ (IdMap.place _ _ _).length
  rw [hlength, List.length_append, List.length_singleton]
  exact Nat.succ_le_succ h

/-- A new place of such a rack is a word. -/
theorem Covered.length_lt {slot : Slot} (h : rack.Covered)
    (hnew : rack.index.get? slot.id = none) : rack.slots.length < UInt64.size := by
  have hcovered := h.add hnew
  have hlength := (rack.add slot).index.length_entries_le
  rw [Covered, slots_add, List.length_append, List.length_singleton] at hcovered
  omega

theorem Later.covered (h : first.Later later) (hcovered : first.Covered) : later.Covered := by
  induction h with
  | refl => exact hcovered
  | push _ hpush ih =>
      obtain ⟨hnew, rfl⟩ := push_eq_ok hpush
      exact ih.add hnew
  | withdraw _ hwithdraw ih =>
      obtain ⟨hslots, hindex⟩ := withdraw_eq_ok hwithdraw
      rw [Covered, hslots, hindex]
      exact ih

/-- The places stay words, if there are no more of them than words in the end or if the index has
known all of them from the beginning. -/
theorem Later.placesFit (h : first.Later later) (hfit : first.PlacesFit)
    (hroom : first.Covered ∨ later.slots.length ≤ UInt64.size) : later.PlacesFit := by
  induction h with
  | refl => exact hfit
  | @push rack later slot place hbefore hpush ih =>
      obtain ⟨hnew, rfl⟩ := push_eq_ok hpush
      rw [slots_add, List.length_append, List.length_singleton] at hroom
      refine (ih (hroom.imp_right fun hle => by omega)).add ?_
      rcases hroom with hcovered | hle
      · exact (hbefore.covered hcovered).length_lt hnew
      · exact hle
  | withdraw _ hwithdraw ih =>
      obtain ⟨hslots, hindex⟩ := withdraw_eq_ok hwithdraw
      rw [hslots] at hroom
      rw [PlacesFit, hindex]
      exact ih hroom

end Rack

/-! ## Stocks that were read -/

namespace Rack

theorem yields_place : Yields Draft.readPlace fun place => place < UInt64.size := by
  intro text place rest h
  obtain ⟨⟨word, after⟩, -, h⟩ := bind_eq_ok h
  cases h
  exact word.toNat_lt

def Draft.Fits (draft : Draft) : Prop :=
  ∀ index, draft.index = some index → ∀ entry ∈ index.entries, entry.2 < UInt64.size

theorem fields_keep : FieldsKeep Draft.fields Draft.Fits := by
  refine fieldsKeep_cons (make_keeps (yields_any _) ?_ _) <|
    fieldsKeep_cons (make_keeps (yields_map yields_place) ?_ _) fieldsKeep_nil
  · intro draft slots hdraft _
    exact hdraft
  · intro draft index _ hindex found hsome
    cases hsome
    exact hindex

theorem yields_reader : Yields Rack.reader PlacesFit := by
  have hstart : Draft.Fits {} := by
    intro index hsome
    cases hsome
  refine fields_keep.yields_record hstart ?_ _
  intro draft rack hdraft hfinish
  obtain ⟨slots, -, hfinish⟩ := bind_eq_ok hfinish
  obtain ⟨index, hindex, hfinish⟩ := bind_eq_ok hfinish
  cases hfinish
  exact hdraft index (need_eq_ok hindex)

end Rack

namespace Holding

def Draft.Fits (draft : Draft) : Prop :=
  ∀ rack, draft.rack = some rack → rack.PlacesFit

theorem fields_keep : FieldsKeep Draft.fields Draft.Fits := by
  refine fieldsKeep_cons (make_keeps (yields_any _) ?_ _) <|
    fieldsKeep_cons (make_keeps (yields_any _) ?_ _) <|
    fieldsKeep_cons (make_keeps Rack.yields_reader ?_ _) fieldsKeep_nil
  · intro draft owner hdraft _
    exact hdraft
  · intro draft orders hdraft _
    exact hdraft
  · intro draft rack _ hrack found hsome
    cases hsome
    exact hrack

theorem yields_reader : Yields Holding.reader fun holding => holding.rack.PlacesFit := by
  have hstart : Draft.Fits {} := by
    intro rack hsome
    cases hsome
  refine fields_keep.yields_record hstart ?_ _
  intro draft holding hdraft hfinish
  obtain ⟨owner, -, hfinish⟩ := bind_eq_ok hfinish
  obtain ⟨orders, -, hfinish⟩ := bind_eq_ok hfinish
  obtain ⟨rack, hrack, hfinish⟩ := bind_eq_ok hfinish
  cases hfinish
  exact hdraft rack (need_eq_ok hrack)

end Holding

theorem Rack.placesFit_empty : Rack.empty.PlacesFit := by
  intro entry hentry
  cases hentry

namespace Stock

/-- The places in the stores that were read so far are words. -/
structure Draft.Fits (draft : Draft) : Prop where
  holdings_fit : ∀ holdings, draft.holdings = some holdings →
    ∀ entry ∈ holdings.entries, entry.2.rack.PlacesFit
  refunds_fit : ∀ refunds, draft.refunds = some refunds → Rack.PlacesFit refunds

theorem fields_keep : FieldsKeep Draft.fields Draft.Fits := by
  refine fieldsKeep_cons (optional_keeps (yields_any _) ?_ _) <|
    fieldsKeep_cons (optional_keeps (yields_map Holding.yields_reader) ?_ _) <|
    fieldsKeep_cons (optional_keeps Rack.yields_reader ?_ _) fieldsKeep_nil
  · intro draft history hdraft _
    exact ⟨hdraft.holdings_fit, hdraft.refunds_fit⟩
  · intro draft holdings hdraft hholdings
    refine ⟨fun found hsome => ?_, hdraft.refunds_fit⟩
    cases hsome
    exact hholdings
  · intro draft refunds hdraft hrefunds
    refine ⟨hdraft.holdings_fit, fun found hsome => ?_⟩
    cases hsome
    exact hrefunds

theorem placesFit_of_entries {stock : Stock}
    (h : ∀ entry ∈ stock.holdings.entries, entry.2.rack.PlacesFit)
    (hrefunds : Rack.PlacesFit stock.refunds) : stock.PlacesFit where
  holdings_fit := by
    intro owner
    cases howner : stock.holdings.get? owner with
    | none =>
        rw [holding, howner]
        exact Rack.placesFit_empty
    | some found =>
        rw [holding_of_get? howner]
        exact h _ (IdMap.mem_of_get? howner)
  refunds_fit := hrefunds

theorem placesFit_empty : Stock.empty.PlacesFit :=
  placesFit_of_entries (fun entry hentry => by cases hentry) Rack.placesFit_empty

theorem yields_reader : Yields Stock.reader PlacesFit := by
  have hstart : Draft.Fits {} := by
    constructor
    all_goals
      intro found hsome
      cases hsome
  refine fields_keep.yields_record hstart ?_ _
  intro draft stock hdraft hfinish
  cases hfinish
  apply placesFit_of_entries
  · cases hholdings : draft.holdings with
    | none =>
        intro entry hentry
        cases hentry
    | some holdings => exact hdraft.holdings_fit holdings hholdings
  · cases hrefunds : draft.refunds with
    | none => exact Rack.placesFit_empty
    | some refunds => exact hdraft.refunds_fit refunds hrefunds

theorem placesFit_of_ofSnapshot {octets : List Char} {stock : Stock}
    (h : ofSnapshot octets = .ok stock) : stock.PlacesFit := by
  rw [ofSnapshot] at h
  split at h
  · cases h
    exact placesFit_empty
  · cases hread : readDocument reader octets with
    | error fault =>
        rw [hread] at h
        cases h
    | ok found =>
        rw [hread] at h
        cases h
        obtain ⟨⟨value, rest⟩, hvalue, hread⟩ := bind_eq_ok hread
        simp only at hread
        split at hread
        · cases hread
          exact yields_reader _ _ _ hvalue
        · cases hread

end Stock

/-! ## What requests make of racks -/

namespace Holdings

def rackOf (holdings : Holdings) (owner : UInt64) : Rack :=
  ((holdings.get? owner).getD (.empty owner)).rack

theorem rackOf_insert (holdings : Holdings) (owner key : UInt64) (holding : Holding) :
    rackOf (holdings.insert owner holding) key =
      if key = owner then holding.rack else rackOf holdings key := by
  rw [rackOf, IdMap.get?_insert]
  split
  · rfl
  · rfl

theorem later_insert {holdings : Holdings} {owner : UInt64} {holding : Holding}
    (h : (rackOf holdings owner).Later holding.rack) (key : UInt64) :
    (rackOf holdings key).Later (rackOf (holdings.insert owner holding) key) := by
  rw [rackOf_insert]
  split
  · rename_i heq
    rw [heq]
    exact h
  · exact .refl

theorem later_add {holdings next : Holdings} {owner id : UInt64} {order : Order}
    (h : holdings.add owner id order = .ok next) (key : UInt64) :
    (rackOf holdings key).Later (rackOf next key) := by
  obtain ⟨holding, hholding, h⟩ := bind_eq_ok h
  cases h
  refine later_insert ?_ key
  rw [Holding.add] at hholding
  split at hholding
  · cases hholding
  · obtain ⟨⟨place, rack⟩, hpush, hholding⟩ := bind_eq_ok hholding
    cases hholding
    exact .push .refl hpush

theorem later_remove {holdings next : Holdings} {owner id : UInt64}
    (h : holdings.remove owner id = .ok next) (key : UInt64) :
    (rackOf holdings key).Later (rackOf next key) := by
  obtain ⟨found, hfound, h⟩ := bind_eq_ok h
  obtain ⟨left, hleft, h⟩ := bind_eq_ok h
  cases h
  refine later_insert ?_ key
  have hrack : rackOf holdings owner = found.rack := by
    rw [user] at hfound
    rw [rackOf]
    cases hget : holdings.get? owner with
    | none =>
        rw [hget] at hfound
        cases hfound
    | some holding =>
        rw [hget] at hfound
        cases hfound
        rfl
  obtain ⟨order, -, hleft⟩ := bind_eq_ok hleft
  obtain ⟨rack, hwithdraw, hleft⟩ := bind_eq_ok hleft
  cases hleft
  rw [hrack]
  exact .withdraw .refl hwithdraw

end Holdings

namespace RefundQueue

theorem later_add {queue next : RefundQueue} {owner id : UInt64} {order : Order}
    (h : queue.add owner id order = .ok next) : Rack.Later queue next := by
  obtain ⟨⟨place, rack⟩, hpush, h⟩ := bind_eq_ok h
  cases h
  exact .push .refl hpush

theorem later_remove {queue next : RefundQueue} {id : UInt64}
    (h : RefundQueue.remove queue id = .ok next) : Rack.Later queue next := by
  rw [remove] at h
  split at h
  · cases h
  · exact .withdraw .refl h

end RefundQueue

namespace Stock

/-- What can have become of the racks of a stock. -/
structure Later (first later : Stock) : Prop where
  racks : ∀ owner, (first.holding owner).rack.Later (later.holding owner).rack
  queue : Rack.Later first.refunds later.refunds

variable {first stock later : Stock}

theorem Later.refl (stock : Stock) : stock.Later stock :=
  ⟨fun _ => .refl, .refl⟩

theorem Later.trans (h : first.Later stock) (hlater : stock.Later later) : first.Later later :=
  ⟨fun owner => (h.racks owner).trans (hlater.racks owner), h.queue.trans hlater.queue⟩

theorem later_setStatus (id : UInt64) (status : Status) (time : Instant) (stock : Stock) :
    stock.Later (stock.setStatus id status time).2 := by
  rw [setStatus]
  split
  · exact .refl stock
  · exact ⟨fun _ => .refl, .refl⟩

theorem later_addOrder (owner id : UInt64) (order : Order) (time : Instant) (stock : Stock) :
    stock.Later (stock.addOrder owner id order time).2 := by
  rw [addOrder]
  split
  · exact .refl stock
  · split
    · exact .refl stock
    · rename_i holdings hadd
      have hracks := Holdings.later_add hadd
      simp only
      split
      · exact ⟨hracks, .refl⟩
      · exact ⟨hracks, .refl⟩

theorem later_removeAll (status : Status) (time : Instant) (pairs : List (UInt64 × UInt64))
    (stock : Stock) : stock.Later (stock.removeAll status time pairs).2 := by
  induction pairs generalizing stock with
  | nil => exact .refl stock
  | cons pair rest ih =>
      obtain ⟨id, owner⟩ := pair
      rw [removeAll]
      split
      · exact .refl stock
      · rename_i holdings hremove
        have hracks : ∀ history, stock.Later { stock with holdings, history } := fun _ =>
          ⟨Holdings.later_remove hremove, .refl⟩
        simp only
        split
        · exact hracks stock.history
        · rename_i history _
          exact (hracks history).trans (ih _)

theorem later_removeOrders (ids : List UInt64) (status : Status) (time : Instant) (stock : Stock) :
    stock.Later (stock.removeOrders ids status time).2 := by
  rw [removeOrders]
  split
  · exact later_removeAll status time _ stock
  · exact .refl stock

theorem later_addRefund (owner id : UInt64) (order : Order) (time : Instant) (stock : Stock) :
    stock.Later (stock.addRefund owner id order time).2 := by
  rw [addRefund]
  split
  · exact .refl stock
  · split
    · exact .refl stock
    · split
      · exact .refl stock
      · split
        · exact .refl stock
        · rename_i refunds hadd
          have hqueue : stock.Later { stock with refunds } :=
            ⟨fun _ => .refl, RefundQueue.later_add hadd⟩
          exact hqueue.trans (later_setStatus id .returned time _)

theorem later_removeRefund (id : UInt64) (time : Instant) (stock : Stock) :
    stock.Later (stock.removeRefund id time).2 := by
  rw [removeRefund]
  split
  · exact .refl stock
  · split
    · exact .refl stock
    · split
      · exact .refl stock
      · rename_i refunds hremove
        have hqueue : stock.Later { stock with refunds } :=
          ⟨fun _ => .refl, RefundQueue.later_remove hremove⟩
        exact hqueue.trans (later_setStatus id .issuedToCourier time _)

theorem later_serve (request : Request) (stock : Stock) :
    stock.Later (serve request stock).2 := by
  cases request with
  | addOrder owner id order time => exact later_addOrder owner id order time stock
  | removeOrders ids status time => exact later_removeOrders ids status time stock
  | setStatus id status time => exact later_setStatus id status time stock
  | addRefund owner id order time => exact later_addRefund owner id order time stock
  | removeRefund id time => exact later_removeRefund id time stock
  | record | order | expiration | checkRemovable | orders | refunds => exact .refl stock

theorem later_runBy (call : Call α) (clock : Nat → Instant) (stock : Stock) :
    stock.Later (call.runBy serve clock stock).state := by
  induction call generalizing clock stock with
  | done | fail | crash => exact .refl stock
  | readClock next ih => exact ih (clock 0) _ stock
  | announce kind ids error next ih => exact ih _ stock
  | ask request next ih =>
      have hserve := later_serve request stock
      rw [Call.runBy]
      rcases hanswer : serve request stock with ⟨stop | answer, after⟩
      · rw [hanswer] at hserve
        cases stop with
        | error error => exact hserve.trans (ih (.error error) clock after)
        | crash cause => exact hserve
      · rw [hanswer] at hserve
        exact hserve.trans (ih (.ok answer) clock after)

/-! The index of every rack has known all places from the beginning. Only a snapshot from elsewhere
can hold a stock of which this is not so. -/

structure Covered (stock : Stock) : Prop where
  racks_covered : ∀ owner, (stock.holding owner).rack.Covered
  queue_covered : Rack.Covered stock.refunds

/-- No rack has more places than there are words. -/
structure Countable (stock : Stock) : Prop where
  racks_countable : ∀ owner, (stock.holding owner).rack.slots.length ≤ UInt64.size
  queue_countable : stock.refunds.slots.length ≤ UInt64.size

theorem Later.placesFit (h : first.Later later) (hfit : first.PlacesFit)
    (hroom : first.Covered ∨ later.Countable) : later.PlacesFit where
  holdings_fit owner := (h.racks owner).placesFit (hfit.holdings_fit owner)
    (hroom.imp (fun hcovered => hcovered.racks_covered owner)
      fun hcountable => hcountable.racks_countable owner)
  refunds_fit := h.queue.placesFit hfit.refunds_fit
    (hroom.imp (fun hcovered => hcovered.queue_covered)
      fun hcountable => hcountable.queue_countable)

theorem covered_empty : Stock.empty.Covered where
  racks_covered _ := Nat.le_refl 0
  queue_covered := Nat.le_refl 0

theorem Later.covered (h : first.Later later) (hcovered : first.Covered) : later.Covered where
  racks_covered owner := (h.racks owner).covered (hcovered.racks_covered owner)
  queue_covered := h.queue.covered hcovered.queue_covered

theorem Later.countable (h : first.Later later) (hcountable : later.Countable) :
    first.Countable where
  racks_countable owner := Nat.le_trans (h.racks owner).length_le (hcountable.racks_countable owner)
  queue_countable := Nat.le_trans h.queue.length_le hcountable.queue_countable

end Stock

end ParcelDesk
