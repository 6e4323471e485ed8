import ParcelDesk.Calendar.Date

/-!
# The names of days

Every day of the calendar bears a name that exists, and every date of the range has a year of at
most six digits.
-/

namespace ParcelDesk

namespace Civil

/-- Where a day falls: its era, century, leap cycle and year, and the day of that year, all of them
counted from March. A year has a day more only if it ends a leap cycle, a cycle that ends a century
only if the century ends an era. -/
structure Falls (number : Int) (era century cycle year day : Int) : Prop where
  century_range : 0 ≤ century ∧ century ≤ 3
  cycle_range : 0 ≤ cycle ∧ cycle ≤ 24
  year_range : 0 ≤ year ∧ year ≤ 3
  day_range : 0 ≤ day ∧ day ≤ 365
  leap_day : day = 365 → year = 3 ∧ (cycle = 24 → century = 3)
  count_eq : number + epoch =
    146097 * era + 36524 * century + 1461 * cycle + 365 * year + day

def ofMarch (year day : Int) : Civil :=
  let month := (5 * day + 2) / 153
  let monthDay := day - (153 * month + 2) / 5 + 1
  if month < 10 then ⟨year, (month + 3).toNat, monthDay.toNat⟩
  else ⟨year + 1, (month - 9).toNat, monthDay.toNat⟩

theorem ofDayNumber_falls (number : Int) : ∃ era century cycle year day,
    Falls number era century cycle year day ∧
      ofDayNumber number = ofMarch (400 * era + 100 * century + 4 * cycle + year) day := by
  refine ⟨_, _, _, _, _, ?_, rfl⟩
  generalize hera : (number + epoch) / 146097 = era
  generalize hinEra : (number + epoch) % 146097 = inEra
  generalize hcentury : min (inEra / 36524) 3 = century
  generalize hinCentury : inEra - 36524 * century = inCentury
  generalize hcycle : inCentury / 1461 = cycle
  generalize hinCycle : inCentury - 1461 * cycle = inCycle
  generalize hyear : min (inCycle / 365) 3 = year
  have hrange : 0 ≤ inEra ∧ inEra < 146097 := by omega
  have hc : 0 ≤ century ∧ century ≤ 3 := by omega
  have hr1 : 0 ≤ inCentury ∧ inCentury ≤ 36524 := by omega
  have hlast : inCentury = 36524 → century = 3 := by omega
  have hq : 0 ≤ cycle ∧ cycle ≤ 24 := by omega
  have hr2 : 0 ≤ inCycle ∧ inCycle ≤ 1460 := by omega
  have hy : 0 ≤ year ∧ year ≤ 3 := by omega
  exact {
    century_range := hc
    cycle_range := hq
    year_range := hy
    day_range := by omega
    leap_day := by omega
    count_eq := by omega }

theorem isLeap_of_falls {number era century cycle year day : Int}
    (h : Falls number era century cycle year day) (hday : day = 365) :
    isLeap (400 * era + 100 * century + 4 * cycle + year + 1) = true := by
  obtain ⟨hyear, hcentury⟩ := h.leap_day hday
  have hc := h.century_range
  have hq := h.cycle_range
  have hfour : (400 * era + 100 * century + 4 * cycle + year + 1) % 4 = 0 := by omega
  have hhundred : (400 * era + 100 * century + 4 * cycle + year + 1) % 100 ≠ 0 ∨
      (400 * era + 100 * century + 4 * cycle + year + 1) % 400 = 0 := by omega
  rw [isLeap, Bool.and_eq_true, Bool.or_eq_true, beq_iff_eq, bne_iff_ne, beq_iff_eq]
  exact ⟨hfour, hhundred⟩

/-- A day of the year counted from March bears a name that exists. The last one, in February, does
so only in a leap year. -/
theorem isValid_ofMarch {year day : Int} (hday : 0 ≤ day ∧ day ≤ 365)
    (hleap : day = 365 → isLeap (year + 1) = true) : (ofMarch year day).isValid = true := by
  have hmonth : 0 ≤ (5 * day + 2) / 153 ∧ (5 * day + 2) / 153 ≤ 11 := by omega
  simp only [ofMarch]
  generalize hm : (5 * day + 2) / 153 = month at hmonth
  by_cases hfebruary : month = 11
  · subst hfebruary
    have hshort : ¬ isLeap (year + 1) = true → day ≠ 365 := fun hcommon heq =>
      hcommon (hleap heq)
    simp only [isValid, monthLength, Int.reduceLT, Int.reduceSub, Int.reduceToNat, if_false,
      Bool.and_eq_true, decide_eq_true_eq]
    split
    · omega
    · have := hshort ‹_›
      omega
  · obtain rfl | rfl | rfl | rfl | rfl | rfl | rfl | rfl | rfl | rfl | rfl :
        month = 0 ∨ month = 1 ∨ month = 2 ∨ month = 3 ∨ month = 4 ∨ month = 5 ∨ month = 6 ∨
          month = 7 ∨ month = 8 ∨ month = 9 ∨ month = 10 := by omega
    all_goals
      simp only [isValid, monthLength, Int.reduceLT, Int.reduceAdd, Int.reduceSub,
        Int.reduceToNat, if_true, if_false, Bool.and_eq_true, decide_eq_true_eq]
      omega

theorem isValid_ofDayNumber (number : Int) : (ofDayNumber number).isValid = true := by
  obtain ⟨era, century, cycle, year, day, hfalls, hname⟩ := ofDayNumber_falls number
  rw [hname]
  exact isValid_ofMarch hfalls.day_range (isLeap_of_falls hfalls)

theorem isValid_range {date : Civil} (h : date.isValid = true) :
    (1 ≤ date.month ∧ date.month ≤ 12) ∧ 1 ≤ date.day ∧ date.day ≤ 31 := by
  obtain ⟨year, month, day⟩ := date
  rw [isValid, Bool.and_eq_true, decide_eq_true_eq, decide_eq_true_eq] at h
  obtain ⟨hfirst, hlast⟩ := h
  simp only [monthLength] at hfirst hlast ⊢
  split at hlast
  case h_1 => split at hlast <;> omega
  all_goals omega

end Civil

namespace Date

theorem ofCivil_civil (date : Date) : ofCivil? date.civil = some date := by
  rw [ofCivil?, civil, if_pos (Civil.isValid_ofDayNumber date.day), Civil.dayNumber_ofDayNumber,
    ofDay?, dif_pos ⟨date.first_le, date.le_last⟩]

theorem year_range (date : Date) : -999999 ≤ date.civil.year ∧ date.civil.year ≤ 999999 := by
  obtain ⟨era, century, cycle, year, day, hfalls, hname⟩ := Civil.ofDayNumber_falls date.day
  obtain ⟨hc, hq, hy, hd, -, hcount⟩ := hfalls
  have hfirst := date.first_le
  have hlast := date.le_last
  rw [Civil.epoch] at hcount
  simp only [civil, hname, Civil.ofMarch]
  split
  all_goals
    dsimp only
    omega

end Date

end ParcelDesk
