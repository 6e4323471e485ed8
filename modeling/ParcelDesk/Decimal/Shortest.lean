import ParcelDesk.Text.Numeral

/-!
# The shortest decimal

The decimal with the fewest digits among those that lie closer to a binary fraction than to its
neighbours, and the form in which it is shown.
-/

namespace ParcelDesk.Decimal

/-- A power with an integer exponent, as numerator and denominator. -/
def power (base : Nat) (exponent : Int) : Nat × Nat :=
  if 0 ≤ exponent then (Nat.pow base exponent.toNat, 1)
  else (1, Nat.pow base (-exponent).toNat)

def scaledLe (a : Nat) (x : Nat × Nat) (b : Nat) (y : Nat × Nat) : Bool :=
  a * x.1 * y.2 ≤ b * y.1 * x.2

/-- The leading bit of a mantissa of 53 bits, which the stored form leaves out. -/
def hiddenBit : Nat := 4503599627370496

/-- A positive binary fraction `mantissa * 2 ^ exponent` with a mantissa of at most 53 bits. -/
structure Binary where
  mantissa : Nat
  exponent : Int

namespace Binary

/-- Holds if the neighbour below is only half as far away as the one above. -/
def isUneven (value : Binary) : Bool :=
  value.mantissa == hiddenBit && -1074 < value.exponent

/-- Holds of the multiples of a power of ten that read back as the value. -/
def covers (value : Binary) (grid : Nat × Nat) (c : Nat) : Bool :=
  let unit := power 2 (value.exponent - 2)
  let low := 4 * value.mantissa - if value.isUneven then 1 else 2
  let high := 4 * value.mantissa + 2
  let closed := value.mantissa % 2 == 0
  scaledLe low unit c grid && scaledLe c grid high unit &&
    (closed || (!scaledLe c grid low unit && !scaledLe high unit c grid))

def magnitude (value : Binary) : Int :=
  let candidates := (List.range 660).map fun (i : Nat) => (310 : Int) - i
  (candidates.find? fun e => scaledLe 1 (power 10 e) value.mantissa (power 2 value.exponent)).getD 0

/-- The better of the value's two neighbours on the grid of decimals with `count` digits. -/
def candidate? (value : Binary) (count : Nat) : Option Nat :=
  let grid := power 10 (value.magnitude - count + 1)
  let unit := power 2 value.exponent
  let below := value.mantissa * unit.1 * grid.2 / (unit.2 * grid.1)
  let twice := 2 * value.mantissa * unit.1 * grid.2
  let middle := (2 * below + 1) * (unit.2 * grid.1)
  let nearer := if middle < twice || (middle == twice && below % 2 == 1) then below + 1 else below
  [nearer, below, below + 1].find? (value.covers grid)

/-- The digits of the shortest decimal and the exponent of the first of them. -/
def shortest (value : Binary) : List Char × Int :=
  let found := (List.range 17).findSome? fun i => (value.candidate? (i + 1)).map (·, i + 1)
  let (digits, count) := found.getD (0, 17)
  let shown := Numeral.digits digits
  let kept := (shown.reverse.dropWhile (· == '0')).reverse
  (kept, value.magnitude + ((shown.length : Int) - count))

end Binary

def withPoint (digits : List Char) (places : Nat) : List Char :=
  let whole := digits.take places ++ List.replicate (places - digits.length) '0'
  let rest := digits.drop places
  whole ++ '.' :: (if rest.isEmpty then ['0'] else rest)

def exponentText (exponent : Int) : List Char :=
  'e' :: (if exponent < 0 then '-' else '+') :: Numeral.padded 2 exponent.natAbs

/-- Exponents from -5 to 15 are written out; the others follow the digits. -/
def text (digits : List Char) (exponent : Int) : List Char :=
  if 0 ≤ exponent ∧ exponent ≤ 15 then withPoint digits (exponent.toNat + 1)
  else if -5 ≤ exponent ∧ exponent < 0 then
    '0' :: '.' :: List.replicate (-exponent - 1).toNat '0' ++ digits
  else match digits with
    | [digit] => digit :: exponentText exponent
    | digits => digits.take 1 ++ '.' :: digits.drop 1 ++ exponentText exponent

def ofFloat (x : Float) : List Char :=
  let bits := x.toBits.toNat
  let sign := if Numeral.signedEnd ≤ bits then ['-'] else []
  let exponent : Nat := bits / hiddenBit % 2048
  let fraction := bits % hiddenBit
  if exponent = 0 ∧ fraction = 0 then sign ++ ['0', '.', '0']
  else
    let value : Binary :=
      if exponent = 0 then ⟨fraction, -1074⟩
      else ⟨hiddenBit + fraction, (exponent : Int) - 1075⟩
    let (digits, exponent) := value.shortest
    sign ++ text digits exponent

end ParcelDesk.Decimal
