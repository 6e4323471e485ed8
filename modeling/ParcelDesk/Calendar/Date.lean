import ParcelDesk.Calendar.Civil
import ParcelDesk.Text.Numeral

/-!
# Dates

A date is a day of the calendar's range. It is shown either day first, as clients write it
(`31-12-2025`), or year first, as stored records hold it (`2025-12-31`). A year outside 0 to 9999
carries its sign.
-/

namespace ParcelDesk

/-- A day from -262143-01-01 to 262142-12-31, counted from 1970-01-01. -/
structure Date where
  day : Int
  first_le : -96465292 ≤ day
  le_last : day ≤ 95026236
deriving DecidableEq

namespace Date

def first : Date := ⟨-96465292, by decide, by decide⟩

def last : Date := ⟨95026236, by decide, by decide⟩

instance : LE Date := ⟨fun a b => a.day ≤ b.day⟩

instance : LT Date := ⟨fun a b => a.day < b.day⟩

instance (a b : Date) : Decidable (a ≤ b) := inferInstanceAs (Decidable (a.day ≤ b.day))

instance (a b : Date) : Decidable (a < b) := inferInstanceAs (Decidable (a.day < b.day))

instance : Inhabited Date := ⟨⟨0, by decide, by decide⟩⟩

def ofDay? (day : Int) : Option Date :=
  if h : -96465292 ≤ day ∧ day ≤ 95026236 then some ⟨day, h.1, h.2⟩ else none

def ofCivil? (name : Civil) : Option Date :=
  if name.isValid then ofDay? name.dayNumber else none

def civil (date : Date) : Civil :=
  Civil.ofDayNumber date.day

/-- A year has at least four digits, and a sign outside 0 to 9999. -/
def yearText (year : Int) : List Char :=
  let digits := Numeral.padded 4 year.natAbs
  if 0 ≤ year ∧ year ≤ 9999 then digits
  else if year < 0 then '-' :: digits
  else '+' :: digits

def dayFirst (date : Date) : List Char :=
  let name := date.civil
  Numeral.padded 2 name.day ++ '-' :: Numeral.padded 2 name.month ++ '-' :: yearText name.year

def yearFirst (date : Date) : List Char :=
  let name := date.civil
  yearText name.year ++ '-' :: Numeral.padded 2 name.month ++ '-' :: Numeral.padded 2 name.day

end Date

end ParcelDesk
