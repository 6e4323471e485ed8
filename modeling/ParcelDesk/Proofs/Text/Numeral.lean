import Mathlib.Algebra.Ring.Nat
import Mathlib.Data.List.Basic
import ParcelDesk.Text.Numeral

/-!
# What numerals are written with

A numeral is a row of digits; padding it adds zeros, which it does not count. A 64-bit number is
read back from its numeral.
-/

namespace ParcelDesk.Numeral

theorem isDigit_digit : ∀ n, n < 10 → (digit n).isDigit = true
  | 0, _ | 1, _ | 2, _ | 3, _ | 4, _ | 5, _ | 6, _ | 7, _ | 8, _ | 9, _ => by decide
  | _ + 10, h => absurd h (by omega)

theorem isDigit_of_mem_digits {n : Nat} {c : Char} (h : c ∈ digits n) : c.isDigit = true := by
  induction n using digits.induct with
  | case1 n hsmall =>
      rw [digits, if_pos hsmall, List.mem_singleton] at h
      rw [h]
      exact isDigit_digit n hsmall
  | case2 n hbig ih =>
      rw [digits, if_neg hbig, List.mem_append, List.mem_singleton] at h
      rcases h with h | rfl
      · exact ih h
      · exact isDigit_digit _ (Nat.mod_lt _ (by decide))

theorem digits_ne_nil (n : Nat) : digits n ≠ [] := by
  rw [digits]
  split <;> simp

theorem digits_of_head_zero {n : Nat} (h : (digits n).head? = some '0') : n = 0 := by
  induction n using digits.induct with
  | case1 n hsmall =>
      rw [digits, if_pos hsmall, List.head?_cons, Option.some.injEq] at h
      have hvalue := digitValue_digit n hsmall
      rw [h] at hvalue
      exact hvalue.symm
  | case2 n hbig ih =>
      rw [digits, if_neg hbig, List.head?_append_of_ne_nil _ (digits_ne_nil _)] at h
      have := ih h
      omega

theorem length_digits_le {n width : Nat} (h : n < 10 ^ (width + 1)) :
    (digits n).length ≤ width + 1 := by
  induction width generalizing n with
  | zero =>
      rw [digits, if_pos (by simpa using h)]
      exact Nat.le_refl 1
  | succ width ih =>
      rw [digits]
      split
      · exact Nat.le_add_left 1 _
      · rw [List.length_append, List.length_singleton]
        have hrest : n / 10 < 10 ^ (width + 1) := by
          rw [Nat.pow_succ] at h
          omega
        exact Nat.succ_le_succ (ih hrest)

theorem isDigit_of_mem_padded {width n : Nat} {c : Char} (h : c ∈ padded width n) :
    c.isDigit = true := by
  rw [padded, List.mem_append] at h
  rcases h with h | h
  · rw [List.eq_of_mem_replicate h]
    decide
  · exact isDigit_of_mem_digits h

theorem padded_ne_nil (width n : Nat) : padded width n ≠ [] := by
  rw [padded]
  exact List.append_ne_nil_of_right_ne_nil _ (digits_ne_nil n)

theorem length_padded {width n : Nat} (h : n < 10 ^ (width + 1)) :
    (padded (width + 1) n).length = width + 1 := by
  rw [padded, List.length_append, List.length_replicate]
  have := length_digits_le h
  omega

theorem value_zeros (count : Nat) (text : List Char) :
    value (List.replicate count '0' ++ text) = value text := by
  induction count with
  | zero => rfl
  | succ count ih => exact ih

theorem value_padded (width n : Nat) : value (padded width n) = n := by
  rw [padded, value_zeros, value_digits]

/-! ## Reading a numeral back -/

/-- What has been read of a number is at most the number. -/
theorem le_foldl_digits (digits : List Char) (significand : Nat) :
    significand ≤ digits.foldl (fun n c => 10 * n + digitValue c) significand := by
  induction digits generalizing significand with
  | nil => exact Nat.le_refl _
  | cons c digits ih =>
      have hnext := ih (10 * significand + digitValue c)
      rw [List.foldl_cons]
      omega

theorem readDigits_eq {text : List Char} (hdigits : ∀ c ∈ text, c.isDigit = true) {total : Nat}
    (h : text.foldl (fun n c => 10 * n + digitValue c) total < UInt64.size) :
    readDigits 10 decimalValue? total text =
      .ok (text.foldl (fun n c => 10 * n + digitValue c) total).toUInt64 := by
  induction text generalizing total with
  | nil => rfl
  | cons c text ih =>
      rw [List.foldl_cons] at h ⊢
      have hc : decimalValue? c = some (digitValue c) := if_pos (hdigits c List.mem_cons_self)
      have hnext := Nat.lt_of_le_of_lt (le_foldl_digits text _) h
      rw [readDigits, hc]
      simp only [if_pos hnext]
      exact ih (fun d hd => hdigits d (List.mem_cons_of_mem c hd)) h

theorem read_digits (n : UInt64) : read (digits n.toNat) = .ok n := by
  have hdigits : ∀ c ∈ digits n.toNat, c.isDigit = true := fun _ => isDigit_of_mem_digits
  have hvalue := value_digits n.toNat
  rw [value] at hvalue
  have hread : readDigits 10 decimalValue? 0 (digits n.toNat) = .ok n := by
    rw [readDigits_eq hdigits (by rw [hvalue]; exact n.toNat_lt), hvalue]
    exact congrArg Except.ok (UInt64.ofNat_toNat)
  rw [read, readSigned.eq_def]
  split
  · rename_i hnil
    exact absurd hnil (digits_ne_nil _)
  · rename_i hplus
    exact absurd (hdigits '+' (by rw [hplus]; exact List.mem_cons_self)) (by decide)
  · rename_i hplus
    exact absurd (hdigits '+' (by rw [hplus]; exact List.mem_cons_self)) (by decide)
  · exact hread

theorem readAnyBase_digits (n : UInt64) : readAnyBase (digits n.toNat) = .ok n := by
  rw [readAnyBase.eq_def]
  split
  · rename_i hbase
    have hmem : 'x' ∈ digits n.toNat := by simp [hbase]
    exact absurd (isDigit_of_mem_digits hmem) (by decide)
  · exact read_digits n

/-! ## Where a numeral ends -/

def Stops (text : List Char) : Prop :=
  ∀ c ∈ text.head?, c.isDigit = false

theorem Stops.dropWhile {text : List Char} (h : Stops text) :
    text.dropWhile Char.isDigit = text := by
  cases text with
  | nil => rfl
  | cons c text => exact List.dropWhile_cons_of_neg (by rw [h c rfl]; decide)

theorem Stops.take {text : List Char} (h : Stops text) (count : Nat) : Stops (text.take count) := by
  cases count with
  | zero =>
      intro c hc
      simp at hc
  | succ count =>
      cases text with
      | nil => exact h
      | cons c text => exact h

theorem stops_cons {c : Char} (h : c.isDigit = false) (rest : List Char) : Stops (c :: rest) := by
  intro head hhead
  rw [List.head?_cons, Option.mem_some] at hhead
  rw [← hhead, h]

end ParcelDesk.Numeral
