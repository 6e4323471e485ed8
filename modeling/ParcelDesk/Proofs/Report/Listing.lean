import Mathlib.Data.List.Forall2
import ParcelDesk.Command
import ParcelDesk.Proofs.Calendar.Names
import ParcelDesk.Proofs.Text.Pieces

/-!
# What a listing tells

The fields of a line stand between colons and have none in them. A blank stands between two lines,
and it may also stand in a label, but never in the date that ends a line. So a listing can be taken
apart from the left in one way only, and two listings with one text tell the same.
-/

namespace ParcelDesk

theorem Container.colon_notMem_label (container : Container) (taped : Bool) :
    ':' ∉ (container.label taped).toList := by
  cases container <;> cases taped <;> decide

theorem Numeral.colon_notMem_digits (n : Nat) : ':' ∉ digits n := fun h =>
  absurd (isDigit_of_mem_digits h) (by decide)

theorem Numeral.eq_of_digits_eq {n other : UInt64} (h : digits n.toNat = digits other.toNat) :
    n = other := by
  have hread := read_digits n
  rw [h, read_digits other] at hread
  exact (Except.ok.inj hread).symm

namespace Slot

/-- Holds of two places of which a line tells the same. -/
structure ToldAlike (slot other : Slot) : Prop where
  id_eq : slot.id = other.id
  owner_eq : slot.owner = other.owner
  label_eq : slot.order.label = other.order.label
  cost_eq : slot.order.cost = other.order.cost
  expires_eq : slot.order.expires = other.order.expires

theorem ToldAlike.line_eq {slot other : Slot} (h : slot.ToldAlike other) :
    slot.line = other.line := by
  simp only [line, h.id_eq, h.owner_eq, h.label_eq, h.cost_eq, h.expires_eq]

def further (slots : List Slot) : List Char :=
  slots.flatMap fun slot => ' ' :: slot.line

theorem further_cons (slot : Slot) (slots : List Slot) :
    further (slot :: slots) = ' ' :: (slot.line ++ further slots) := rfl

theorem listing_cons (slot : Slot) (slots : List Slot) :
    listing (slot :: slots) = slot.line ++ further slots := by
  induction slots generalizing slot with
  | nil => simp [listing, further, Text.joined]
  | cons next slots ih =>
      have hjoined : listing (slot :: next :: slots) =
          slot.line ++ [' '] ++ listing (next :: slots) := rfl
      rw [hjoined, ih, further_cons]
      simp

theorem blank_cons_listing {slots : List Slot} (h : slots ≠ []) :
    ' ' :: listing slots = further slots := by
  obtain ⟨slot, slots, rfl⟩ := List.exists_cons_of_ne_nil h
  rw [listing_cons, further_cons]

theorem listing_eq_nil {slots : List Slot} : listing slots = [] ↔ slots = [] := by
  cases slots with
  | nil => simp [listing, Text.joined]
  | cons slot slots => simp [listing_cons, line]

theorem further_eq_of_listing_eq {slots others : List Slot} (h : listing slots = listing others) :
    further slots = further others := by
  by_cases hnone : slots = []
  · have hothers : others = [] := listing_eq_nil.1 (h.symm.trans (listing_eq_nil.2 hnone))
    rw [hnone, hothers]
  · have hothers : others ≠ [] := fun hnil =>
      hnone (listing_eq_nil.1 (h.trans (listing_eq_nil.2 hnil)))
    rw [← blank_cons_listing hnone, ← blank_cons_listing hothers, h]

theorem line_append (slot : Slot) (rest : List Char) :
    slot.line ++ rest =
      Numeral.digits slot.id.toNat ++ ':' :: (Numeral.digits slot.owner.toNat ++
        ':' :: (slot.order.label.toList ++ ':' :: (Numeral.digits slot.order.cost.toNat ++
          ':' :: (slot.order.expires.dayFirst ++ rest)))) := by
  simp [line]

theorem isBlank_of_head_further {slots : List Slot} :
    ∀ c ∈ (further slots).head?, (!Text.isBlank c) = false := by
  cases slots with
  | nil => simp [further]
  | cons slot slots => simp [further_cons, show Text.isBlank ' ' = true by decide]

theorem dayFirst_append_inj {date other : Date} {slots others : List Slot}
    (h : date.dayFirst ++ further slots = other.dayFirst ++ further others) :
    date = other ∧ further slots = further others := by
  have hword (date : Date) : ∀ c ∈ date.dayFirst, (!Text.isBlank c) = true := by
    intro c hc
    rw [Date.isBlank_of_mem_dayFirst hc, Bool.not_false]
  obtain ⟨hdate, hrest⟩ := Text.append_inj_of_stop (hword date) (hword other)
    isBlank_of_head_further isBlank_of_head_further h
  exact ⟨Date.dayFirst_injective hdate, hrest⟩

theorem toldAlike_of_line {slot other : Slot} {slots others : List Slot}
    (h : slot.line ++ further slots = other.line ++ further others) :
    slot.ToldAlike other ∧ further slots = further others := by
  have hdigits (id : UInt64) := Numeral.colon_notMem_digits id.toNat
  have hlabel (slot : Slot) := slot.order.container.colon_notMem_label slot.order.taped
  rw [line_append, line_append] at h
  obtain ⟨hid, h⟩ := Text.field_append_inj (hdigits _) (hdigits _) h
  obtain ⟨howner, h⟩ := Text.field_append_inj (hdigits _) (hdigits _) h
  obtain ⟨hlabels, h⟩ := Text.field_append_inj (hlabel slot) (hlabel other) h
  obtain ⟨hcost, h⟩ := Text.field_append_inj (hdigits _) (hdigits _) h
  obtain ⟨hexpires, hrest⟩ := dayFirst_append_inj h
  exact ⟨{
    id_eq := Numeral.eq_of_digits_eq hid
    owner_eq := Numeral.eq_of_digits_eq howner
    label_eq := String.toList_inj.1 hlabels
    cost_eq := Numeral.eq_of_digits_eq hcost
    expires_eq := hexpires }, hrest⟩

theorem toldAlike_of_further {slots others : List Slot} (h : further slots = further others) :
    List.Forall₂ ToldAlike slots others := by
  induction slots generalizing others with
  | nil =>
      cases others with
      | nil => exact .nil
      | cons other others => cases h
  | cons slot slots ih =>
      cases others with
      | nil => cases h
      | cons other others =>
          rw [further_cons, further_cons] at h
          obtain ⟨halike, hrest⟩ := toldAlike_of_line (List.cons.inj h).2
          exact .cons halike (ih hrest)

theorem listing_eq_of_toldAlike {slots others : List Slot}
    (h : List.Forall₂ ToldAlike slots others) : listing slots = listing others := by
  have hlines : slots.map line = others.map line := by
    induction h with
    | nil => rfl
    | cons halike _ ih => rw [List.map_cons, List.map_cons, halike.line_eq, ih]
  rw [listing, hlines, listing]

/-- Two listings have the same text just if they tell the same orders, one after the other, with the
same users, labels, costs and last days. -/
theorem listing_unambiguous (slots others : List Slot) :
    listing slots = listing others ↔ List.Forall₂ ToldAlike slots others :=
  ⟨fun h => toldAlike_of_further (further_eq_of_listing_eq h), listing_eq_of_toldAlike⟩

end Slot

end ParcelDesk
