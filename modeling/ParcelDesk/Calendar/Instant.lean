import ParcelDesk.Calendar.Date

/-!
# Instants

An instant is a second of the calendar's range, counted from 1970-01-01T00:00:00 in universal
time, and the nanoseconds since it began. The last second of a minute may last two seconds, so
that a leap second has instants of its own. `plus` moves an instant by a span of nanoseconds and
fails beyond the range.
-/

namespace ParcelDesk

def nanosPerSecond : Nat := 1000000000

def secondsPerDay : Int := 86400

/-- A moment in universal time. -/
structure Instant where
  second : Int
  nano : Nat
  first_le : -96465292 * 86400 ≤ second
  lt_end : second < (95026236 + 1) * 86400
  nano_lt : nano < nanosPerSecond ∨ (nano < 2 * nanosPerSecond ∧ second % 60 = 59)
deriving DecidableEq

namespace Instant

def make? (second : Int) (nano : Nat) : Option Instant :=
  if h : -96465292 * 86400 ≤ second ∧ second < (95026236 + 1) * 86400 ∧
      (nano < nanosPerSecond ∨ (nano < 2 * nanosPerSecond ∧ second % 60 = 59)) then
    some ⟨second, nano, h.1, h.2.1, h.2.2⟩
  else none

def ofNanos? (nanos : Int) : Option Instant :=
  make? (nanos / nanosPerSecond) (nanos % nanosPerSecond).toNat

/-- Nanoseconds from the epoch; those of a leap second run into the following second. -/
def nanos (t : Instant) : Int :=
  t.second * nanosPerSecond + t.nano

instance : LT Instant :=
  ⟨fun a b => a.second < b.second ∨ (a.second = b.second ∧ a.nano < b.nano)⟩

instance : LE Instant :=
  ⟨fun a b => a.second < b.second ∨ (a.second = b.second ∧ a.nano ≤ b.nano)⟩

instance (a b : Instant) : Decidable (a < b) :=
  inferInstanceAs (Decidable (a.second < b.second ∨ (a.second = b.second ∧ a.nano < b.nano)))

instance (a b : Instant) : Decidable (a ≤ b) :=
  inferInstanceAs (Decidable (a.second < b.second ∨ (a.second = b.second ∧ a.nano ≤ b.nano)))

def date (t : Instant) : Date :=
  ⟨t.second / 86400, by have := t.first_le; omega, by have := t.lt_end; omega⟩

/-- Moves an instant by a span of nanoseconds. A span that stays inside a leap second moves within
it; one that leaves it forward counts the leap second and the one before it as a single second. -/
def plus (t : Instant) (span : Int) : Option Instant :=
  if t.nano < nanosPerSecond then ofNanos? (t.nanos + span)
  else
    let whole := span.tdiv nanosPerSecond
    let part := span.tmod nanosPerSecond
    if 0 < whole ∨ (0 < part ∧ 2 * nanosPerSecond ≤ t.nano + part) then
      ofNanos? (t.nanos - nanosPerSecond + span)
    else if whole < 0 then ofNanos? (t.nanos + span)
    else make? t.second (t.nano + part).toNat

/-- A fraction of a second has three, six or nine places, the fewest that are exact, or none. -/
def fractionText (nano : Nat) : List Char :=
  if nano = 0 then []
  else if nano % 1000000 = 0 then '.' :: Numeral.padded 3 (nano / 1000000)
  else if nano % 1000 = 0 then '.' :: Numeral.padded 6 (nano / 1000)
  else '.' :: Numeral.padded 9 nano

/-- The time of day to the nanosecond; a leap second is the sixtieth of its minute. -/
def clockText (inDay nano : Nat) : List Char :=
  let leap := nano / nanosPerSecond
  Numeral.padded 2 (inDay / 3600) ++ ':' :: Numeral.padded 2 (inDay / 60 % 60) ++
    ':' :: Numeral.padded 2 (inDay % 60 + leap) ++ fractionText (nano % nanosPerSecond)

def text (t : Instant) : List Char :=
  t.date.yearFirst ++ 'T' :: clockText (t.second % 86400).toNat t.nano ++ ['Z']

end Instant

namespace Date

def start (date : Date) : Instant :=
  ⟨date.day * 86400, 0, by have := date.first_le; omega, by have := date.le_last; omega,
    .inl (by decide)⟩

end Date

end ParcelDesk
