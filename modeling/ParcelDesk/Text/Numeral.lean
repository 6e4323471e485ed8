/-!
# Numerals

Decimal numerals for natural numbers: the shortest one, one padded with zeros to a width, and
the strict reader of a 64-bit number. `value_digits` says that the shortest numeral of a number
denotes that number.
-/

namespace ParcelDesk.Numeral

def digit (n : Nat) : Char :=
  Char.ofNat (48 + n)

def digitValue (c : Char) : Nat :=
  c.toNat - 48

def digits (n : Nat) : List Char :=
  if n < 10 then [digit n] else digits (n / 10) ++ [digit (n % 10)]

def value (text : List Char) : Nat :=
  text.foldl (fun n c => 10 * n + digitValue c) 0

def padded (width n : Nat) : List Char :=
  List.replicate (width - (digits n).length) '0' ++ digits n

def signedEnd : Nat := 9223372036854775808

def text (n : Nat) : String :=
  String.ofList (digits n)

inductive Fault where
  | empty
  | badDigit
  | tooLarge
deriving DecidableEq, Repr

namespace Fault

def message : Fault → String
  | .empty => "cannot parse integer from empty string"
  | .badDigit => "invalid digit found in string"
  | .tooLarge => "number too large to fit in target type"

end Fault

def hexValue? (c : Char) : Option Nat :=
  if c.isDigit then some (digitValue c)
  else if 'a' ≤ c && c ≤ 'f' then some (c.toNat - 87)
  else if 'A' ≤ c && c ≤ 'F' then some (c.toNat - 55)
  else none

def decimalValue? (c : Char) : Option Nat :=
  if c.isDigit then some (digitValue c) else none

/-- Reads digits from the left, stopping at the first that is no digit or that leaves the range. -/
def readDigits (base : Nat) (valueOf : Char → Option Nat) (total : Nat) :
    List Char → Except Fault UInt64
  | [] => .ok total.toUInt64
  | c :: rest =>
      match valueOf c with
      | none => .error .badDigit
      | some d =>
          let total := base * total + d
          if total < UInt64.size then readDigits base valueOf total rest else .error .tooLarge

def readSigned (base : Nat) (valueOf : Char → Option Nat) : List Char → Except Fault UInt64
  | [] => .error .empty
  | ['+'] => .error .badDigit
  | '+' :: rest => readDigits base valueOf 0 rest
  | text => readDigits base valueOf 0 text

/-- Reads a decimal numeral, with an optional plus sign, as a 64-bit number. -/
def read (text : List Char) : Except Fault UInt64 :=
  readSigned 10 decimalValue? text

/-- Reads a numeral that is in base sixteen after `0x` and in base ten otherwise. -/
def readAnyBase : List Char → Except Fault UInt64
  | '0' :: 'x' :: rest => readSigned 16 hexValue? rest
  | text => read text

theorem digitValue_digit : ∀ n, n < 10 → digitValue (digit n) = n
  | 0, _ | 1, _ | 2, _ | 3, _ | 4, _ | 5, _ | 6, _ | 7, _ | 8, _ | 9, _ => by decide
  | _ + 10, h => absurd h (by omega)

theorem value_concat (text : List Char) (c : Char) :
    value (text ++ [c]) = 10 * value text + digitValue c := by
  simp [value]

/-- The shortest numeral of a number denotes that number. -/
theorem value_digits (n : Nat) : value (digits n) = n := by
  induction n using Nat.strongRecOn with
  | ind n ih =>
      rw [digits]
      split
      · rename_i h
        simp [value, digitValue_digit n h]
      · rw [value_concat, ih (n / 10) (by omega), digitValue_digit _ (by omega)]
        omega

end ParcelDesk.Numeral
