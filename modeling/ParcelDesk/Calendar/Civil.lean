/-!
# Civil dates

Days counted from 1970-01-01 and the year, month and day of the month that name them in the
Gregorian calendar, extended to all years. Years are counted from March, so that the leap day
comes last. `dayNumber_ofDayNumber` says that the name of a day leads back to the day.
-/

namespace ParcelDesk

structure Civil where
  year : Int
  month : Nat
  day : Nat
deriving DecidableEq, Repr

namespace Civil

def isLeap (year : Int) : Bool :=
  year % 4 == 0 && (year % 100 != 0 || year % 400 == 0)

def monthLength (year : Int) : Nat → Nat
  | 2 => if isLeap year then 29 else 28
  | 4 | 6 | 9 | 11 => 30
  | 1 | 3 | 5 | 7 | 8 | 10 | 12 => 31
  | _ => 0

def isValid (date : Civil) : Bool :=
  1 ≤ date.day && date.day ≤ monthLength date.year date.month

def epoch : Int := 719468

def dayNumber (date : Civil) : Int :=
  let year := if date.month ≤ 2 then date.year - 1 else date.year
  let month : Int := if date.month ≤ 2 then date.month + 9 else date.month - 3
  365 * year + year / 4 - year / 100 + year / 400 + (153 * month + 2) / 5 + date.day - 1 - epoch

/-- The name of a day: the four-hundred-year era, the century, the leap cycle and the year in which
it falls, then its month. -/
def ofDayNumber (number : Int) : Civil :=
  let era := (number + epoch) / 146097
  let inEra := (number + epoch) % 146097
  let century := min (inEra / 36524) 3
  let inCentury := inEra - 36524 * century
  let cycle := inCentury / 1461
  let inCycle := inCentury - 1461 * cycle
  let yearOfCycle := min (inCycle / 365) 3
  let inYear := inCycle - 365 * yearOfCycle
  let month := (5 * inYear + 2) / 153
  let day := inYear - (153 * month + 2) / 5 + 1
  let year := 400 * era + 100 * century + 4 * cycle + yearOfCycle
  if month < 10 then ⟨year, (month + 3).toNat, day.toNat⟩
  else ⟨year + 1, (month - 9).toNat, day.toNat⟩

/-- The name of a day leads back to the day. -/
theorem dayNumber_ofDayNumber (number : Int) : (ofDayNumber number).dayNumber = number := by
  simp only [ofDayNumber]
  generalize hera : (number + epoch) / 146097 = era
  generalize hinEra : (number + epoch) % 146097 = inEra
  generalize hcentury : min (inEra / 36524) 3 = century
  generalize hinCentury : inEra - 36524 * century = inCentury
  generalize hcycle : inCentury / 1461 = cycle
  generalize hinCycle : inCentury - 1461 * cycle = inCycle
  generalize hyear : min (inCycle / 365) 3 = yearOfCycle
  generalize hinYear : inCycle - 365 * yearOfCycle = inYear
  generalize hmonth : (5 * inYear + 2) / 153 = month
  have hrange : 0 ≤ inEra ∧ inEra < 146097 := by omega
  have hnumber : number + epoch = 146097 * era + inEra := by omega
  have hc : 0 ≤ century ∧ century ≤ 3 := by omega
  have hr1 : 0 ≤ inCentury ∧ inCentury ≤ 36524 := by omega
  have hq : 0 ≤ cycle ∧ cycle ≤ 24 := by omega
  have hr2 : 0 ≤ inCycle ∧ inCycle ≤ 1460 := by omega
  have hy : 0 ≤ yearOfCycle ∧ yearOfCycle ≤ 3 := by omega
  have hd : 0 ≤ inYear ∧ inYear ≤ 365 := by omega
  have hm : 0 ≤ month ∧ month ≤ 11 := by omega
  have hyear4 : (400 * era + 100 * century + 4 * cycle + yearOfCycle) / 4 =
      100 * era + 25 * century + cycle := by omega
  have hyear100 : (400 * era + 100 * century + 4 * cycle + yearOfCycle) / 100 =
      4 * era + century := by omega
  have hyear400 : (400 * era + 100 * century + 4 * cycle + yearOfCycle) / 400 = era := by omega
  split
  · rename_i h
    have hlate : ¬ (month + 3).toNat ≤ 2 := by omega
    simp only [dayNumber, if_neg hlate, hyear4, hyear100, hyear400]
    have hmonth3 : ((month + 3).toNat : Int) - 3 = month := by omega
    rw [hmonth3]
    omega
  · rename_i h
    have hearly : (month - 9).toNat ≤ 2 := by omega
    simp only [dayNumber, if_pos hearly, Int.add_sub_cancel, hyear4, hyear100, hyear400]
    have hmonth9 : ((month - 9).toNat : Int) + 9 = month := by omega
    rw [hmonth9]
    omega

end Civil

end ParcelDesk
