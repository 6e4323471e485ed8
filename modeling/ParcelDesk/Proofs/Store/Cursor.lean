import ParcelDesk.Proofs.Store.Showing

/-!
# Cursors on a rack

Someone reads the live places of a rack page by page and takes the last order read as the cursor of
the next page, while orders come and leave. The places are split where the reader is: behind,
nothing is live that was not read, and the last order read is in the last of these places. So it
does not matter whether that order has left meanwhile.
-/

namespace ParcelDesk

namespace Rack

variable {rack later last : Rack} {received : List UInt64}

def ids (rack : Rack) : List UInt64 :=
  rack.slots.map Slot.id

@[simp] theorem ids_add (rack : Rack) (slot : Slot) : (rack.add slot).ids = rack.ids ++ [slot.id] :=
  List.map_append

@[simp] theorem ids_retire (rack : Rack) (gone : UInt64) : (rack.retire gone).ids = rack.ids := by
  rw [ids, slots_retire, List.map_map]
  exact List.map_congr_left fun slot _ => Slot.id_without gone slot

/-! ## What time does to a rack -/

/-- Orders may have come and have left since. No place was moved or filled again. -/
def Ages (rack later : Rack) : Prop :=
  ∃ (age : Slot → Slot) (more : List Slot), later.slots = rack.slots.map age ++ more ∧
    (∀ slot, (age slot).id = slot.id) ∧ ∀ slot, (age slot).live = true → slot.live = true

theorem Ages.refl (rack : Rack) : rack.Ages rack :=
  ⟨id, [], by rw [List.map_id, List.append_nil], fun _ => rfl, fun _ => id⟩

theorem Ages.trans (hfirst : rack.Ages later) (hsecond : later.Ages last) : rack.Ages last := by
  obtain ⟨age, more, hlater, hid, hlive⟩ := hfirst
  obtain ⟨ageMore, moreStill, hlast, hidMore, hliveMore⟩ := hsecond
  refine ⟨ageMore ∘ age, more.map ageMore ++ moreStill, ?_, ?_, ?_⟩
  · rw [hlast, hlater, List.map_append, List.map_map, List.append_assoc]
  · exact fun slot => (hidMore (age slot)).trans (hid slot)
  · exact fun slot h => hlive slot (hliveMore (age slot) h)

theorem ages_add (rack : Rack) (slot : Slot) : rack.Ages (rack.add slot) :=
  ⟨id, [slot], by rw [List.map_id, slots_add], fun _ => rfl, fun _ => id⟩

theorem ages_retire (rack : Rack) (gone : UInt64) : rack.Ages (rack.retire gone) := by
  refine ⟨Slot.without gone, [], ?_, Slot.id_without gone, fun slot h => ?_⟩
  · rw [slots_retire, List.append_nil]
  · rw [Slot.live_without, Bool.and_eq_true] at h
    exact h.1

/-! ## Where the reader is -/

/-- A reader who has received these orders has them behind. -/
structure Behind (received : List UInt64) (seen : List Slot) : Prop where
  sublist : received.Sublist (seen.map Slot.id)
  live : ∀ slot ∈ seen, slot.live = true → slot.id ∈ received
  last : received.getLast? = (seen.map Slot.id).getLast?

def Caught (rack : Rack) (received : List UInt64) : Prop :=
  ∃ seen rest, rack.slots = seen ++ rest ∧ Behind received seen

theorem caught_nil (rack : Rack) : rack.Caught [] :=
  ⟨[], rack.slots, rfl, ⟨List.Sublist.slnil, List.forall_mem_nil _, rfl⟩⟩

theorem Caught.sublist (h : rack.Caught received) : received.Sublist rack.ids := by
  obtain ⟨seen, rest, hslots, hbehind⟩ := h
  rw [ids, hslots, List.map_append]
  exact hbehind.sublist.trans (List.sublist_append_left _ _)

theorem Caught.ages (h : rack.Caught received) (hages : rack.Ages later) :
    later.Caught received := by
  obtain ⟨seen, rest, hslots, hbehind⟩ := h
  obtain ⟨age, more, hlater, hid, hlive⟩ := hages
  have hids : (seen.map age).map Slot.id = seen.map Slot.id := by
    rw [List.map_map]
    exact List.map_congr_left fun slot _ => hid slot
  refine ⟨seen.map age, rest.map age ++ more, ?_, ?_, ?_, ?_⟩
  · rw [hlater, hslots, List.map_append, List.append_assoc]
  · rw [hids]
    exact hbehind.sublist
  · intro slot hslot halive
    obtain ⟨old, hold, rfl⟩ := List.mem_map.1 hslot
    rw [hid]
    exact hbehind.live old hold (hlive old halive)
  · rw [hids]
    exact hbehind.last

/-- Places that begin with the first live ones up to some count, and end with the last of these. -/
theorem exists_split (places : List Slot) (count : Nat) :
    ∃ seen rest, places = seen ++ rest ∧
      seen.filter Slot.live = (places.filter Slot.live).take count ∧
      seen.getLast? = ((places.filter Slot.live).take count).getLast? := by
  induction places generalizing count with
  | nil => exact ⟨[], [], rfl, by simp, by simp⟩
  | cons slot places ih =>
      cases hlive : slot.live with
      | true =>
          cases count with
          | zero => exact ⟨[], slot :: places, rfl, by simp, by simp⟩
          | succ count =>
              obtain ⟨seen, rest, hplaces, hfilter, hlast⟩ := ih count
              refine ⟨slot :: seen, rest, ?_, ?_, ?_⟩
              · rw [hplaces, List.cons_append]
              · rw [List.filter_cons_of_pos hlive, List.filter_cons_of_pos hlive,
                  List.take_succ_cons, hfilter]
              · rw [List.filter_cons_of_pos hlive, List.take_succ_cons, List.getLast?_cons,
                  List.getLast?_cons, hlast]
      | false =>
          have hdead := Bool.eq_false_iff.1 hlive
          obtain ⟨seen, rest, hplaces, hfilter, hlast⟩ := ih count
          rw [List.filter_cons_of_neg hdead]
          -- Dead places are passed only on the way to a live one.
          cases hpage : (places.filter Slot.live).take count with
          | nil => exact ⟨[], slot :: places, rfl, rfl, rfl⟩
          | cons first more =>
              refine ⟨slot :: seen, rest, ?_, ?_, ?_⟩
              · rw [hplaces, List.cons_append]
              · rw [List.filter_cons_of_neg hdead, hfilter, hpage]
              · rw [List.getLast?_cons, hlast, hpage, List.getLast?_cons, Option.getD_some]

theorem Behind.extend {seen more fresh : List Slot} (h : Behind received seen)
    (hfresh : more.filter Slot.live = fresh) (hlast : more.getLast? = fresh.getLast?) :
    Behind (received ++ fresh.map Slot.id) (seen ++ more) := by
  refine ⟨?_, ?_, ?_⟩
  · rw [List.map_append, ← hfresh]
    exact h.sublist.append (List.filter_sublist.map Slot.id)
  · intro slot hslot hlive
    rcases List.mem_append.1 hslot with hslot | hslot
    · exact List.mem_append_left _ (h.live slot hslot hlive)
    · refine List.mem_append_right _ (List.mem_map_of_mem ?_)
      rw [← hfresh]
      exact List.mem_filter.2 ⟨hslot, hlive⟩
  · rw [List.map_append, List.getLast?_append, List.getLast?_append, h.last,
      List.getLast?_map (l := fresh), List.getLast?_map (l := more), hlast]

/-! ## Pages -/

def cursor (received : List UInt64) : UInt64 :=
  received.getLast?.getD 0

/-- What a page brings: all its orders, or all but the cursor if it begins with that. -/
def beyond (received : List UInt64) (page : List Slot) : List UInt64 :=
  match page.map Slot.id with
  | [] => []
  | first :: rest => if received.getLast? = some first then rest else first :: rest

theorem beyond_cons {slot : Slot} (h : received.getLast? = some slot.id) (page : List Slot) :
    beyond received (slot :: page) = page.map Slot.id :=
  if_pos h

theorem beyond_of_forall_ne {page : List Slot}
    (h : ∀ slot ∈ page, received.getLast? ≠ some slot.id) :
    beyond received page = page.map Slot.id := by
  cases page with
  | nil => rfl
  | cons slot page => exact if_neg (h slot List.mem_cons_self)

theorem scan_eq {before after : List Slot} (h : rack.slots = before ++ after) (limit : Nat) :
    rack.scan before.length (some limit) = (after.filter Slot.live).take limit := by
  rw [scan, h, List.drop_left]

end Rack

namespace Holding

open ParcelDesk.Rack (beyond cursor Behind Caught)

variable {holding : Holding} {received : List UInt64} {limit : UInt64} {seen rest : List Slot}

theorem list_zero (holding : Holding) (hlimit : limit ≠ 0) :
    holding.list 0 limit = .ok (holding.rack.scan 0 (some limit.toNat)) := by
  rw [list, if_pos rfl, ok_bind, if_neg hlimit]

theorem list_of_position {first : UInt64} {place : Nat} (hfirst : first ≠ 0)
    (hplace : holding.rack.position first = some place) (hlimit : limit ≠ 0) :
    holding.list first limit = .ok (holding.rack.scan place (some limit.toNat)) := by
  rw [list, if_neg hfirst, hplace]
  change Except.ok _ = _
  rw [if_neg hlimit]

/-- A reader who has received nothing begins with the first place; any other begins with the place
of the last order received, which is the last one behind. -/
theorem list_cursor (hindexed : holding.rack.Indexed) (hzero : 0 ∉ holding.rack.ids)
    (hlimit : limit ≠ 0) (hslots : holding.rack.slots = seen ++ rest)
    (hbehind : Behind received seen) :
    (received.getLast? = none ∧
      holding.list (cursor received) limit =
        .ok ((rest.filter Slot.live).take limit.toNat)) ∨
    ∃ slot, slot ∈ seen ∧ received.getLast? = some slot.id ∧
      holding.list (cursor received) limit =
        .ok (((slot :: rest).filter Slot.live).take limit.toNat) := by
  cases hlast : received.getLast? with
  | none =>
      have hnone : (seen.map Slot.id).getLast? = none := hbehind.last.symm.trans hlast
      rw [List.getLast?_eq_none_iff, List.map_eq_nil_iff] at hnone
      refine .inl ⟨rfl, ?_⟩
      rw [hnone] at hslots
      rw [cursor, hlast, Option.getD_none, holding.list_zero hlimit]
      exact congrArg _ (Rack.scan_eq hslots limit.toNat)
  | some key =>
      have hkey : (seen.map Slot.id).getLast? = some key := hbehind.last.symm.trans hlast
      rw [List.getLast?_map] at hkey
      obtain ⟨slot, hslot, rfl⟩ := Option.map_eq_some_iff.1 hkey
      obtain ⟨before, rfl⟩ := List.getLast?_eq_some_iff.1 hslot
      rw [List.append_assoc] at hslots
      have hmem : slot ∈ holding.rack.slots := by
        rw [hslots]
        exact List.mem_append_right _ List.mem_cons_self
      have hid : slot.id ≠ 0 := by
        intro hid
        exact hzero (hid ▸ List.mem_map_of_mem hmem)
      have hplace : holding.rack.position slot.id = some before.length :=
        (hindexed slot.id before.length).2 (by simp [hslots])
      refine .inr ⟨slot, List.mem_append_right _ (List.mem_singleton_self slot), rfl, ?_⟩
      rw [cursor, hlast, Option.getD_some, list_of_position hid hplace hlimit]
      exact congrArg _ (Rack.scan_eq hslots limit.toNat)

/-- The page after the last order received brings some of the orders that the reader does not have
behind, the first live ones. -/
theorem exists_page (hindexed : holding.rack.Indexed) (hzero : 0 ∉ holding.rack.ids)
    (hlimit : 2 ≤ limit) (hslots : holding.rack.slots = seen ++ rest)
    (hbehind : Behind received seen) :
    ∃ page count, holding.list (cursor received) limit = .ok page ∧ 0 < count ∧
      beyond received page = ((rest.filter Slot.live).take count).map Slot.id := by
  have hcount : 2 ≤ limit.toNat := UInt64.le_iff_toNat_le.1 hlimit
  have hsome : limit ≠ 0 := by
    rintro rfl
    cases hcount
  rcases list_cursor hindexed hzero hsome hslots hbehind with
    ⟨hlast, hlist⟩ | ⟨slot, hslot, hlast, hlist⟩
  · refine ⟨_, limit.toNat, hlist, by omega, Rack.beyond_of_forall_ne fun slot _ => ?_⟩
    rw [hlast]
    exact (Option.some_ne_none slot.id).symm
  · cases hlive : slot.live with
    | true =>
        -- The page begins with the cursor, and has room for another order.
        refine ⟨_, limit.toNat - 1, hlist, by omega, ?_⟩
        rw [List.filter_cons_of_pos hlive, List.take_cons (by omega), Rack.beyond_cons hlast]
    | false =>
        -- The cursor has left, so the page begins behind it.
        have hdead := Bool.eq_false_iff.1 hlive
        refine ⟨_, limit.toNat, hlist, by omega, ?_⟩
        rw [List.filter_cons_of_neg hdead]
        refine Rack.beyond_of_forall_ne fun other hother hsame => ?_
        have hrest : other ∈ rest :=
          (List.mem_filter.1 (List.mem_of_mem_take hother)).1
        have hnodup := hindexed.nodup
        rw [hslots, List.map_append] at hnodup
        have hid : slot.id = other.id := Option.some.inj (hlast.symm.trans hsame)
        exact (List.nodup_append.1 hnodup).2.2 slot.id (List.mem_map_of_mem hslot) other.id
          (List.mem_map_of_mem hrest) hid

/-- A page keeps the reader in step. One that brings nothing leaves no live order to be read. -/
theorem caught_page (hindexed : holding.rack.Indexed) (hzero : 0 ∉ holding.rack.ids)
    (hlimit : 2 ≤ limit) (hcaught : Caught holding.rack received) :
    ∃ page, holding.list (cursor received) limit = .ok page ∧
      Caught holding.rack (received ++ beyond received page) ∧
      (beyond received page = [] → ∀ id, holding.rack.Shows id → id ∈ received) := by
  obtain ⟨seen, rest, hslots, hbehind⟩ := hcaught
  obtain ⟨page, count, hlist, hcount, hbeyond⟩ :=
    exists_page hindexed hzero hlimit hslots hbehind
  refine ⟨page, hlist, ?_, ?_⟩
  · obtain ⟨more, others, hrest, hfilter, hlast⟩ := Rack.exists_split rest count
    refine ⟨seen ++ more, others, ?_, ?_⟩
    · rw [hslots, hrest, List.append_assoc]
    · rw [hbeyond]
      exact hbehind.extend hfilter hlast
  · rintro hnone id ⟨slot, hslot, rfl, hlive⟩
    rw [hbeyond, List.map_eq_nil_iff, List.take_eq_nil_iff] at hnone
    rw [hslots] at hslot
    rcases List.mem_append.1 hslot with hslot | hslot
    · exact hbehind.live slot hslot hlive
    · have hfilter := hnone.resolve_left (Nat.ne_of_gt hcount)
      exact absurd hlive (List.filter_eq_nil_iff.1 hfilter slot hslot)

end Holding

end ParcelDesk
