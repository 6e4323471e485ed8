import ParcelDesk.Proofs.Json.Reads
import ParcelDesk.Proofs.Text.Octets

/-!
# Documents as bytes

A document whose texts are plain is written in ASCII, so that the bytes of its file are its
characters.
-/

namespace ParcelDesk

namespace Json

open Octets

mutual

/-- Holds of documents whose texts and names stand for themselves. -/
def AllPlain : Json → Prop
  | .null | .bool _ | .number _ => True
  | .string text => Plain text
  | .array items => ItemsPlain items
  | .object members => MembersPlain members

def ItemsPlain : List Json → Prop
  | [] => True
  | item :: rest => item.AllPlain ∧ ItemsPlain rest

def MembersPlain : List (String × Json) → Prop
  | [] => True
  | (name, value) :: rest => Plain name.toList ∧ value.AllPlain ∧ MembersPlain rest

end

theorem itemsPlain_iff {items : List Json} : ItemsPlain items ↔ ∀ item ∈ items, item.AllPlain := by
  induction items with
  | nil => simp [ItemsPlain]
  | cons item rest ih => rw [ItemsPlain, ih, List.forall_mem_cons]

theorem isAscii_quoted {text : List Char} (h : Plain text) : IsAscii (quoted text) := by
  rw [quoted_plain h]
  exact .cons (by decide) (.append (fun c hc => (h c hc).high) (.cons (by decide) isAscii_nil))

theorem isAscii_margin (level : Nat) : IsAscii (margin level) := by
  refine .cons (by decide) ?_
  intro c hc
  rw [List.eq_of_mem_replicate hc]
  decide

theorem isAscii_further (level : Nat) {last : Char} (hlast : last.toNat < 0x80)
    {pieces : List (List Char)} (h : ∀ piece ∈ pieces, IsAscii piece) :
    IsAscii (further level last pieces) := by
  induction pieces with
  | nil => exact .append (isAscii_margin level) (.cons hlast isAscii_nil)
  | cons piece rest ih =>
      obtain ⟨hpiece, hrest⟩ := List.forall_mem_cons.1 h
      exact .append (.cons (by decide) (isAscii_margin _)) (.append hpiece (ih hrest))

theorem isAscii_block (level : Nat) {first last : Char} (hfirst : first.toNat < 0x80)
    (hlast : last.toNat < 0x80) {pieces : List (List Char)} (h : ∀ piece ∈ pieces, IsAscii piece) :
    IsAscii (block level first last pieces) := by
  rw [block_eq]
  refine .cons hfirst ?_
  cases pieces with
  | nil => exact .cons hlast isAscii_nil
  | cons piece rest =>
      obtain ⟨hpiece, hrest⟩ := List.forall_mem_cons.1 h
      exact .append (isAscii_margin _) (.append hpiece (isAscii_further level hlast hrest))

mutual

theorem isAscii_spread (level : Nat) : (document : Json) → document.AllPlain →
    IsAscii (document.spread level)
  | .null, _ => by
      rw [spread]
      decide
  | .bool true, _ => by
      rw [spread]
      decide
  | .bool false, _ => by
      rw [spread]
      decide
  | .number n, _ => by
      rw [spread]
      intro c hc
      exact (isPlain_of_isDigit (Numeral.isDigit_of_mem_digits hc)).high
  | .string text, h => by
      rw [AllPlain] at h
      rw [spread]
      exact isAscii_quoted h
  | .array items, h => by
      rw [AllPlain] at h
      rw [spread]
      exact isAscii_block level (by decide) (by decide) (isAscii_spreadItems level items h)
  | .object members, h => by
      rw [AllPlain] at h
      rw [spread]
      exact isAscii_block level (by decide) (by decide) (isAscii_spreadMembers level members h)

theorem isAscii_spreadItems (level : Nat) : (items : List Json) → ItemsPlain items →
    ∀ piece ∈ spreadItems level items, IsAscii piece
  | [], _ => by
      rw [spreadItems]
      exact List.forall_mem_nil _
  | item :: rest, h => by
      rw [ItemsPlain] at h
      rw [spreadItems]
      exact List.forall_mem_cons.2
        ⟨isAscii_spread (level + 1) item h.1, isAscii_spreadItems level rest h.2⟩

theorem isAscii_spreadMembers (level : Nat) : (members : List (String × Json)) →
    MembersPlain members → ∀ piece ∈ spreadMembers level members, IsAscii piece
  | [], _ => by
      rw [spreadMembers]
      exact List.forall_mem_nil _
  | (name, value) :: rest, h => by
      rw [MembersPlain] at h
      rw [spreadMembers]
      exact List.forall_mem_cons.2
        ⟨.append (isAscii_quoted h.1) (.cons (by decide) (.cons (by decide)
            (isAscii_spread (level + 1) value h.2.1))),
          isAscii_spreadMembers level rest h.2.2⟩

end

end Json

end ParcelDesk
