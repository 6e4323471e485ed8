import Mathlib.Data.Int.Init
import Mathlib.Data.Nat.Init
import ParcelDesk.Proofs.Calendar.Scan

/-!
# One name for each day

A month begins on the day after the last one of the month before it, and so does a year. So no two
names are those of one day, and the dates of the range are the days of the years -262143 to 262142,
each of them shown in a way of its own.
-/

namespace ParcelDesk

namespace Civil

/-- The number of the first day of a month. The thirteenth month is the first of the next year. -/
def monthStart (year : Int) (month : Nat) : Int :=
  dayNumber ⟨year, month, 1⟩

def yearStart (year : Int) : Int :=
  monthStart year 1

theorem monthStart_thirteen (year : Int) : monthStart year 13 = yearStart (year + 1) := by
  simp [yearStart, monthStart, dayNumber]

theorem dayNumber_eq (name : Civil) :
    name.dayNumber = monthStart name.year name.month + (name.day - 1) := by
  simp only [monthStart, dayNumber]
  omega

theorem monthStart_succ (year : Int) {month : Nat} (hfirst : 1 ≤ month) (hlast : month ≤ 12) :
    monthStart year (month + 1) = monthStart year month + monthLength year month := by
  have hleap : isLeap year = true ↔ year % 4 = 0 ∧ (year % 100 ≠ 0 ∨ year % 400 = 0) := by
    simp [isLeap]
  obtain rfl | rfl | rfl | rfl | rfl | rfl | rfl | rfl | rfl | rfl | rfl | rfl :
      month = 1 ∨ month = 2 ∨ month = 3 ∨ month = 4 ∨ month = 5 ∨ month = 6 ∨ month = 7 ∨
        month = 8 ∨ month = 9 ∨ month = 10 ∨ month = 11 ∨ month = 12 := by omega
  case inr.inl =>
    -- In March the count goes over to the next year, which makes up for the length of February.
    simp only [monthStart, dayNumber, monthLength, hleap, Nat.reduceAdd, Nat.reduceLeDiff,
      if_true, if_false]
    split <;> omega
  all_goals
    simp only [monthStart, dayNumber, monthLength, Nat.reduceAdd, Nat.reduceLeDiff, if_true,
      if_false]
    omega

theorem monthEnd_le (year : Int) {month later : Nat} (hfirst : 1 ≤ month) (hlt : month < later)
    (hlast : later ≤ 13) :
    monthStart year month + monthLength year month ≤ monthStart year later := by
  induction later, hlt using Nat.le_induction with
  | base => exact Int.le_of_eq (monthStart_succ year hfirst (by omega)).symm
  | succ later hlt ih =>
      have hbefore := ih (by omega)
      rw [monthStart_succ year (by omega) (by omega)]
      omega

theorem monthStart_le (year : Int) {month later : Nat} (hfirst : 1 ≤ month) (hle : month ≤ later)
    (hlast : later ≤ 13) : monthStart year month ≤ monthStart year later := by
  obtain rfl | hlt := Nat.eq_or_lt_of_le hle
  · exact Int.le_refl _
  · have := monthEnd_le year hfirst hlt hlast
    omega

theorem yearStart_le {year later : Int} (h : year ≤ later) : yearStart year ≤ yearStart later := by
  induction later, h using Int.leInduction with
  | base => exact Int.le_refl _
  | succ later _ ih =>
      rw [← monthStart_thirteen]
      exact Int.le_trans ih (monthStart_le later (Nat.le_refl 1) (by decide) (Nat.le_refl 13))

variable {name other : Civil}

theorem isValid_iff : name.isValid = true ↔
    1 ≤ name.day ∧ name.day ≤ monthLength name.year name.month := by
  simp [isValid]

theorem month_bounds (h : name.isValid = true) :
    monthStart name.year name.month ≤ name.dayNumber ∧
      name.dayNumber <
        monthStart name.year name.month + monthLength name.year name.month := by
  rw [isValid_iff] at h
  rw [dayNumber_eq]
  omega

theorem year_bounds (h : name.isValid = true) :
    yearStart name.year ≤ name.dayNumber ∧ name.dayNumber < yearStart (name.year + 1) := by
  obtain ⟨hmonth, -⟩ := isValid_range h
  have hbounds := month_bounds h
  have hstart := monthStart_le name.year (Nat.le_refl 1) hmonth.1 (by omega)
  have hend := monthEnd_le name.year hmonth.1 (Nat.lt_succ_of_le hmonth.2) (Nat.le_refl 13)
  rw [monthStart_thirteen] at hend
  rw [yearStart]
  omega

theorem dayNumber_lt_of_year (h : name.isValid = true) (hother : other.isValid = true)
    (hlt : name.year < other.year) : name.dayNumber < other.dayNumber := by
  have hyear := yearStart_le (Int.add_one_le_of_lt hlt)
  have := (year_bounds h).2
  have := (year_bounds hother).1
  omega

theorem dayNumber_lt_of_month (h : name.isValid = true) (hother : other.isValid = true)
    (hyear : name.year = other.year) (hlt : name.month < other.month) :
    name.dayNumber < other.dayNumber := by
  obtain ⟨hmonth, -⟩ := isValid_range h
  obtain ⟨hlater, -⟩ := isValid_range hother
  have hend := monthEnd_le name.year hmonth.1 hlt (by omega)
  have := (month_bounds h).2
  have := (month_bounds hother).1
  rw [← hyear] at this
  omega

/-- A day has only one name. -/
theorem eq_of_dayNumber_eq (h : name.isValid = true) (hother : other.isValid = true)
    (heq : name.dayNumber = other.dayNumber) : name = other := by
  have hyear : name.year = other.year := by
    obtain hlt | hsame | hlt := Int.lt_trichotomy name.year other.year
    · exact absurd heq (Int.ne_of_lt (dayNumber_lt_of_year h hother hlt))
    · exact hsame
    · exact absurd heq.symm (Int.ne_of_lt (dayNumber_lt_of_year hother h hlt))
  have hmonth : name.month = other.month := by
    obtain hlt | hsame | hlt := Nat.lt_trichotomy name.month other.month
    · exact absurd heq (Int.ne_of_lt (dayNumber_lt_of_month h hother hyear hlt))
    · exact hsame
    · exact absurd heq.symm (Int.ne_of_lt (dayNumber_lt_of_month hother h hyear.symm hlt))
  have hday : name.day = other.day := by
    rw [dayNumber_eq, dayNumber_eq, hyear, hmonth] at heq
    omega
  cases name
  cases other
  simp_all

theorem ofDayNumber_dayNumber (h : name.isValid = true) : ofDayNumber name.dayNumber = name :=
  eq_of_dayNumber_eq (isValid_ofDayNumber _) h (dayNumber_ofDayNumber _)

end Civil

namespace Date

/-- The dates are the days of the years -262143 to 262142. -/
theorem exists_civil_iff {name : Civil} : (∃ date : Date, date.civil = name) ↔
    name.isValid = true ∧ -262143 ≤ name.year ∧ name.year ≤ 262142 := by
  have hfirst : Civil.yearStart (-262143) = -96465292 := by decide
  have hend : Civil.yearStart 262143 = 95026237 := by decide
  constructor
  · rintro ⟨date, rfl⟩
    have hvalid := Civil.isValid_ofDayNumber date.day
    have hbounds := Civil.year_bounds hvalid
    rw [Civil.dayNumber_ofDayNumber] at hbounds
    have := date.first_le
    have := date.le_last
    refine ⟨hvalid, ?_, ?_⟩
    · by_contra hlow
      have := Civil.yearStart_le (show date.civil.year + 1 ≤ -262143 by omega)
      rw [civil] at this
      omega
    · by_contra hhigh
      have := Civil.yearStart_le (show 262143 ≤ date.civil.year by omega)
      rw [civil] at this
      omega
  · rintro ⟨hvalid, hlow, hhigh⟩
    have hbounds := Civil.year_bounds hvalid
    have hstart := Civil.yearStart_le hlow
    have hstop := Civil.yearStart_le (show name.year + 1 ≤ 262143 by omega)
    exact ⟨⟨name.dayNumber, by omega, by omega⟩, Civil.ofDayNumber_dayNumber hvalid⟩

theorem read_of_shows {date : Date} {text : List Char} (h : Text.Shows date.dayFirst text) :
    Date.read text = .ok date := by
  rw [Date.read, h.trim date.tight_dayFirst, Scan.dayFirst_dayFirst]

theorem dayFirst_injective : Function.Injective dayFirst := by
  intro date other h
  have hread := date.read_dayFirst
  rw [h, other.read_dayFirst] at hread
  exact (Except.ok.inj hread).symm

/-- Every day of the years -262143 to 262142, and no other, is a date. Shown day first, with any
blanks around it, a date is read back, and no two dates are shown alike. -/
theorem survives_reading :
    (∀ name : Civil, (∃ date : Date, date.civil = name) ↔
      name.isValid = true ∧ -262143 ≤ name.year ∧ name.year ≤ 262142) ∧
    (∀ (date : Date) (before after : List Char), Text.Blanks before → Text.Blanks after →
      Date.read (before ++ date.dayFirst ++ after) = .ok date) ∧
    Function.Injective dayFirst := by
  refine ⟨fun name => exists_civil_iff, ?_, dayFirst_injective⟩
  intro date before after hbefore hafter
  exact read_of_shows ⟨before, after, hbefore, hafter, rfl⟩

/-- A leap day long before the count of years, between blanks of several kinds. -/
theorem survives_reading_leap_day : ∃ date : Date, date.civil = ⟨-262140, 2, 29⟩ ∧
    Date.read "\u3000 29-02--262140\t".toList = .ok date := by
  obtain ⟨date, hname⟩ := (survives_reading.1 ⟨-262140, 2, 29⟩).2 (by decide)
  have hshown : date.dayFirst = "29-02--262140".toList := by
    rw [dayFirst, hname]
    simp [yearText, Numeral.padded, Numeral.digits]
    decide
  have hread := survives_reading.2.1 date ['\u3000', ' '] ['\t'] (by decide) (by decide)
  rw [hshown] at hread
  exact ⟨date, hname, hread⟩

end Date

end ParcelDesk
