import ParcelDesk.Proofs.Desk.Counter
import ParcelDesk.Proofs.Desk.Listings

/-!
# Pages of the refund queue

A page begins at a place, and places count whether they are live or not; but it holds as many live
places as it may, so it can run on into the next page. The first places of a page, as many as it may
hold, are therefore all on it if they are live; and a page with room left has come to the end.
-/

namespace ParcelDesk

namespace Rack

variable {rack : Rack} {start count place : Nat} {slot : Slot}

theorem scan_sublist (rack : Rack) (start count : Nat) :
    (rack.scan start (some count)).Sublist rack.showing :=
  (List.take_sublist _ _).trans ((List.drop_sublist start rack.slots).filter Slot.live)

theorem length_scan_le (rack : Rack) (start count : Nat) :
    (rack.scan start (some count)).length ≤ count :=
  List.length_take_le _ _

theorem mem_drop (hslot : rack.slots[place]? = some slot) (hfrom : start ≤ place) :
    slot ∈ rack.slots.drop start := by
  rw [List.mem_iff_getElem?]
  refine ⟨place - start, ?_⟩
  rw [List.getElem?_drop, Nat.add_sub_cancel' hfrom, hslot]

theorem mem_scan_of_near (hslot : rack.slots[place]? = some slot) (hlive : slot.live = true)
    (hfrom : start ≤ place) (hnear : place < start + count) :
    slot ∈ rack.scan start (some count) := by
  have hfirst : slot ∈ ((rack.slots.drop start).take count).filter Slot.live := by
    refine List.mem_filter.2 ⟨List.mem_iff_getElem?.2 ⟨place - start, ?_⟩, hlive⟩
    rw [List.getElem?_take_of_lt (by omega), List.getElem?_drop, Nat.add_sub_cancel' hfrom, hslot]
  have hroom : (((rack.slots.drop start).take count).filter Slot.live).length ≤ count :=
    Nat.le_trans (List.length_filter_le _ _) (List.length_take_le _ _)
  have hscan : rack.scan start (some count) =
      (((rack.slots.drop start).take count).filter Slot.live ++
        ((rack.slots.drop start).drop count).filter Slot.live).take count := by
    rw [← List.filter_append, List.take_append_drop]
    rfl
  -- these places show no more than there is room for, so nothing of them is cut off
  rw [hscan, List.take_append, List.take_of_length_le hroom]
  exact List.mem_append_left _ hfirst

theorem scan_of_short (hshort : (rack.scan start (some count)).length < count) :
    rack.scan start (some count) = (rack.slots.drop start).filter Slot.live := by
  apply List.take_of_length_le
  rw [scan, List.length_take] at hshort
  omega

theorem mem_scan_of_short (hshort : (rack.scan start (some count)).length < count)
    (hslot : rack.slots[place]? = some slot) (hlive : slot.live = true) (hfrom : start ≤ place) :
    slot ∈ rack.scan start (some count) := by
  rw [scan_of_short hshort]
  exact List.mem_filter.2 ⟨mem_drop hslot hfrom, hlive⟩

theorem scan_subset_of_short (hshort : (rack.scan start (some count)).length < count)
    {later : Nat} (hlater : start ≤ later) :
    rack.scan later (some count) ⊆ rack.scan start (some count) := by
  rw [scan_of_short hshort]
  apply List.Subset.trans (List.take_subset _ _)
  exact ((List.drop_sublist_drop_left _ hlater).filter Slot.live).subset

theorem scan_min {top : Nat} (hroom : rack.slots.length ≤ top) (start : Nat) (limit : Option Nat) :
    rack.scan (min start top) limit = rack.scan start limit := by
  by_cases hbefore : start ≤ top
  · rw [Nat.min_eq_left hbefore]
  · have hbeyond : top ≤ start := Nat.le_of_not_le hbefore
    unfold scan
    rw [Nat.min_eq_right hbeyond, List.drop_of_length_le hroom,
      List.drop_of_length_le (Nat.le_trans hroom hbeyond)]

end Rack

namespace RefundQueue

variable {queue : RefundQueue} {number size : UInt64}

def page (queue : RefundQueue) (number size : UInt64) : List Slot :=
  Rack.scan queue ((number.toNat - 1) * size.toNat) (some size.toNat)

theorem list_eq_page (queue : RefundQueue) (hnumber : number ≠ 0) (hsize : size ≠ 0) :
    queue.list number size = .ok (queue.page number size) := by
  rw [list, if_neg hsize, if_neg hnumber]
  rfl

theorem list_of_zero (queue : RefundQueue) (hzero : number = 0 ∨ size = 0) :
    ∃ detail, queue.list number size = .error (.refused .wrongInput detail) := by
  unfold list
  split
  next => exact ⟨_, rfl⟩
  next hsize =>
    rw [if_pos (hzero.resolve_right hsize)]
    exact ⟨_, rfl⟩

theorem near_of_number {place : Nat} (hsize : size ≠ 0)
    (hnumber : number.toNat = place / size.toNat + 1) :
    (number.toNat - 1) * size.toNat ≤ place ∧
      place < (number.toNat - 1) * size.toNat + size.toNat := by
  have hpositive : 0 < size.toNat := UInt64.pos_iff_ne_zero.2 hsize
  rw [hnumber, Nat.add_sub_cancel]
  refine ⟨Nat.div_mul_le_self _ _, ?_⟩
  rw [← Nat.succ_mul]
  exact (Nat.div_lt_iff_lt_mul hpositive).1 (Nat.lt_succ_self _)

/-- Before a page without room left there are places enough for the pages before it. -/
theorem number_le_of_full (hsize : size ≠ 0)
    (hfull : (queue.page number size).length = size.toNat) :
    number.toNat ≤ queue.slots.length := by
  have hpositive : 0 < size.toNat := UInt64.pos_iff_ne_zero.2 hsize
  by_contra hmore
  have hbeyond : queue.slots.length ≤ (number.toNat - 1) * size.toNat :=
    calc queue.slots.length ≤ number.toNat - 1 := by omega
      _ ≤ (number.toNat - 1) * size.toNat := Nat.le_mul_of_pos_right _ hpositive
  rw [page, Rack.scan, List.drop_of_length_le hbeyond, List.filter_nil, List.take_nil,
    List.length_nil] at hfull
  omega

theorem toNat_turn (h : number + 1 ≠ 0) : (number + 1).toNat = number.toNat + 1 := by
  have hnext : 0 < (number + 1).toNat := UInt64.pos_iff_ne_zero.2 h
  have hlt := number.toNat_lt
  rw [UInt64.toNat_add, UInt64.toNat_one] at hnext ⊢
  omega

theorem turn_ne_zero (h : number.toNat + 1 < UInt64.size) : number + 1 ≠ 0 := by
  intro hzero
  have hnext := congrArg UInt64.toNat hzero
  rw [UInt64.toNat_add, UInt64.toNat_one, Nat.mod_eq_of_lt h] at hnext
  exact Nat.succ_ne_zero _ hnext

end RefundQueue

namespace Desk

variable {stock : Stock} {number size : UInt64}

theorem told_page (stock : Stock) (hnumber : number ≠ 0) (hsize : size ≠ 0)
    (clock : Nat → Instant) :
    Told (RefundQueue.page stock.refunds number size)
      ((refunds number size).runBy Stock.serve clock stock).reply := by
  have hlist := RefundQueue.list_eq_page stock.refunds hnumber hsize
  rw [refunds, runBy_request_ok (serve_refunds hlist)]
  exact told_shown _ _ clock

/-- What a reader has seen who asks for a page and the pages after it until one has room left. The
clock may stand anywhere at each of them. -/
inductive Reads (stock : Stock) (size : UInt64) : UInt64 → List Slot → Prop
  | last {number : UInt64} {slots : List Slot} {clock : Nat → Instant}
      (htold : Told slots ((refunds number size).runBy Stock.serve clock stock).reply)
      (hshort : slots.length < size.toNat) : Reads stock size number slots
  | turn {number : UInt64} {slots rest : List Slot} {clock : Nat → Instant}
      (htold : Told slots ((refunds number size).runBy Stock.serve clock stock).reply)
      (hfull : slots.length = size.toNat) (hrest : Reads stock size (number + 1) rest) :
      Reads stock size number (slots ++ rest)

end Desk

theorem Told.unique {slots others : List Slot} {reply : Reply (List Slot)} (h : Told slots reply)
    (hother : Told others reply) : slots = others := by
  cases h with
  | nothing detail =>
      cases hother
      rfl
  | listed hsome =>
      cases hother
      rfl

namespace Desk

variable {stock : Stock} {number size : UInt64}

theorem eq_page_of_told {slots : List Slot} {clock : Nat → Instant}
    (htold : Told slots ((refunds number size).runBy Stock.serve clock stock).reply) :
    number ≠ 0 ∧ size ≠ 0 ∧ slots = RefundQueue.page stock.refunds number size := by
  by_cases hzero : number = 0 ∨ size = 0
  · obtain ⟨detail, hlist⟩ := RefundQueue.list_of_zero stock.refunds hzero
    rw [refunds, runBy_request_fail (serve_refunds hlist)] at htold
    cases htold
  · obtain ⟨hnumber, hsize⟩ := not_or.1 hzero
    exact ⟨hnumber, hsize, htold.unique (told_page stock hnumber hsize clock)⟩

namespace Reads

variable {seen : List Slot}

theorem page_ne_zero (h : Reads stock size number seen) : number ≠ 0 := by
  cases h with
  | last htold hshort => exact (eq_page_of_told htold).1
  | turn htold hfull hrest => exact (eq_page_of_told htold).1

/-- Nobody who reads on from a page misses an order at its first place or later. -/
theorem sees (h : Reads stock size number seen) {place : Nat} {slot : Slot}
    (hslot : stock.refunds.slots[place]? = some slot) (hlive : slot.live = true)
    (hfrom : (number.toNat - 1) * size.toNat ≤ place) : slot ∈ seen := by
  induction h with
  | last htold hshort =>
      obtain ⟨-, -, rfl⟩ := eq_page_of_told htold
      exact Rack.mem_scan_of_short hshort hslot hlive hfrom
  | @turn number slots rest clock htold hfull hrest ih =>
      obtain ⟨hnumber, -, rfl⟩ := eq_page_of_told htold
      have hfirst : 0 < number.toNat := UInt64.pos_iff_ne_zero.2 hnumber
      rw [List.mem_append]
      by_cases hnear : place < (number.toNat - 1) * size.toNat + size.toNat
      · exact .inl (Rack.mem_scan_of_near hslot hlive hfrom hnear)
      · right
        apply ih
        rw [RefundQueue.toNat_turn hrest.page_ne_zero, Nat.add_sub_cancel]
        calc number.toNat * size.toNat
            = (number.toNat - 1) * size.toNat + size.toNat := by
              rw [← Nat.succ_mul, Nat.succ_eq_add_one, Nat.sub_add_cancel hfirst]
          _ ≤ place := Nat.not_lt.1 hnear

theorem subset_showing (h : Reads stock size number seen) :
    seen ⊆ Rack.showing stock.refunds := by
  induction h with
  | last htold hshort =>
      obtain ⟨-, -, rfl⟩ := eq_page_of_told htold
      exact (Rack.scan_sublist _ _ _).subset
  | turn htold hfull hrest ih =>
      obtain ⟨-, -, rfl⟩ := eq_page_of_told htold
      exact List.append_subset.2 ⟨(Rack.scan_sublist _ _ _).subset, ih⟩

theorem mem_iff (h : Reads stock size 1 seen) (slot : Slot) :
    slot ∈ seen ↔ slot ∈ Rack.showing stock.refunds := by
  refine ⟨fun hmem => h.subset_showing hmem, fun hmem => ?_⟩
  obtain ⟨hslot, hlive⟩ := Rack.mem_showing.1 hmem
  obtain ⟨place, hplace⟩ := List.mem_iff_getElem?.1 hslot
  refine h.sees hplace hlive ?_
  rw [UInt64.toNat_one, Nat.sub_self, Nat.zero_mul]
  exact Nat.zero_le place

end Reads

theorem exists_reads_from (hsize : size ≠ 0)
    (hwords : stock.refunds.slots.length + 1 < UInt64.size) (rounds : Nat) (hnumber : number ≠ 0)
    (hrounds : stock.refunds.slots.length < number.toNat + rounds) :
    ∃ seen, Reads stock size number seen := by
  have htold := told_page stock hnumber hsize fun _ => Date.first.start
  induction rounds generalizing number with
  | zero =>
      refine ⟨_, .last htold (Nat.lt_of_le_of_ne (Rack.length_scan_le _ _ _) fun hfull => ?_)⟩
      have hplaces := RefundQueue.number_le_of_full hsize hfull
      omega
  | succ rounds ih =>
      by_cases hfull : (RefundQueue.page stock.refunds number size).length = size.toNat
      · have hplaces := RefundQueue.number_le_of_full hsize hfull
        have hturn : number + 1 ≠ 0 := RefundQueue.turn_ne_zero (by omega)
        have hnext := RefundQueue.toNat_turn hturn
        obtain ⟨rest, hrest⟩ := ih hturn (by omega)
          (told_page stock hturn hsize fun _ => Date.first.start)
        exact ⟨_, .turn htold hfull hrest⟩
      · exact ⟨_, .last htold (Nat.lt_of_le_of_ne (Rack.length_scan_le _ _ _) hfull)⟩

end Desk

/-! Whatever the pages, how long they are and how many orders have left the queue: an order is on
the page of its place, and who turns the pages until one has room left has seen each order of the
queue. -/

structure Paged (stock : Stock) : Prop where
  told : ∀ number size clock, number ≠ 0 → size ≠ 0 →
    Told (RefundQueue.page stock.refunds number size)
      ((Desk.refunds number size).runBy Stock.serve clock stock).reply
  found : ∀ (number size : UInt64) place slot, size ≠ 0 →
    stock.refunds.slots[place]? = some slot → slot.live = true →
      number.toNat = place / size.toNat + 1 → slot ∈ RefundQueue.page stock.refunds number size
  length_le : ∀ number size,
    (RefundQueue.page stock.refunds number size).length ≤ size.toNat
  ordered : ∀ number size,
    (RefundQueue.page stock.refunds number size).Sublist (Rack.showing stock.refunds)
  once : ∀ number size, ((RefundQueue.page stock.refunds number size).map Slot.id).Nodup
  covered : ∀ number later size, number ≤ later →
    (RefundQueue.page stock.refunds number size).length < size.toNat →
      RefundQueue.page stock.refunds later size ⊆ RefundQueue.page stock.refunds number size
  read : ∀ size seen, Desk.Reads stock size 1 seen →
    ∀ slot, slot ∈ seen ↔ slot ∈ Rack.showing stock.refunds
  readable : ∀ size, size ≠ 0 → stock.refunds.slots.length + 1 < UInt64.size →
    ∃ seen, Desk.Reads stock size 1 seen
  saturated : ∀ number size : UInt64, stock.refunds.slots.length < UInt64.size →
    Rack.scan stock.refunds
        (min ((number.toNat - 1) * size.toNat) (UInt64.size - 1)) (some size.toNat) =
      RefundQueue.page stock.refunds number size

namespace Stock

theorem Sound.paged {stock : Stock} (h : stock.Sound) : Paged stock where
  told := fun number size clock hnumber hsize => Desk.told_page stock hnumber hsize clock
  found := by
    intro number size place slot hsize hslot hlive hnumber
    obtain ⟨hfrom, hnear⟩ := RefundQueue.near_of_number hsize hnumber
    exact Rack.mem_scan_of_near hslot hlive hfrom hnear
  length_le := fun number size => Rack.length_scan_le _ _ _
  ordered := fun number size => Rack.scan_sublist _ _ _
  once := fun number size =>
    h.queue_indexed.nodup_showing.sublist ((Rack.scan_sublist _ _ _).map Slot.id)
  covered := by
    intro number later size hlater hshort
    refine Rack.scan_subset_of_short hshort (Nat.mul_le_mul_right _ ?_)
    exact Nat.sub_le_sub_right (UInt64.le_iff_toNat_le.1 hlater) 1
  read := fun size seen hseen => hseen.mem_iff
  readable := by
    intro size hsize hwords
    refine Desk.exists_reads_from hsize hwords stock.refunds.slots.length (by decide) ?_
    rw [UInt64.toNat_one]
    omega
  saturated := fun number size hwords => Rack.scan_min (by omega) _ _

end Stock

namespace Desk

/-- The pages of the queue, whatever has been done at the desk before. -/
theorem refunds_paged (past : List Move) : Paged ((Counter.opened .empty).run past).stock :=
  ((Counter.kept_opened Stock.settled_empty).run past).settled.toSound.paged

end Desk

end ParcelDesk
