import ParcelDesk.Desk
import ParcelDesk.Proofs.Calendar.Civil

/-!
# Spans of time

The spans that the desk adds to a moment lead beyond the calendar only from its last days.
-/

namespace ParcelDesk

namespace Date

theorem day_le_of_year {date : Date} (h : date.civil.year ≤ 9999) : date.day ≤ 2932956 := by
  obtain ⟨era, century, cycle, year, day, hfalls, hname⟩ := Civil.ofDayNumber_falls date.day
  obtain ⟨hc, hq, hy, hd, -, hcount⟩ := hfalls
  rw [Civil.epoch] at hcount
  have hyear : 400 * era + 100 * century + 4 * cycle + year ≤ 9999 := by
    simp only [civil, hname, Civil.ofMarch] at h
    split at h
    all_goals
      dsimp only at h
      omega
  omega

end Date

namespace Instant

/-- The instants of the years 0 to 9999, whose years need no sign. -/
def Unsigned (time : Instant) : Prop :=
  0 ≤ time.date.civil.year ∧ time.date.civil.year ≤ 9999

instance (time : Instant) : Decidable time.Unsigned :=
  inferInstanceAs (Decidable (_ ∧ _))

theorem not_le_iff {a b : Instant} : ¬ a ≤ b ↔ b < a := by
  change ¬ (a.second < b.second ∨ (a.second = b.second ∧ a.nano ≤ b.nano)) ↔
    b.second < a.second ∨ (b.second = a.second ∧ b.nano < a.nano)
  omega

theorem not_lt_iff {a b : Instant} : ¬ a < b ↔ b ≤ a := by
  change ¬ (a.second < b.second ∨ (a.second = b.second ∧ a.nano < b.nano)) ↔
    b.second < a.second ∨ (b.second = a.second ∧ b.nano ≤ a.nano)
  omega

theorem lt_asymm {a b : Instant} (h : a < b) : ¬ b < a := by
  change a.second < b.second ∨ (a.second = b.second ∧ a.nano < b.nano) at h
  change ¬ (b.second < a.second ∨ (b.second = a.second ∧ b.nano < a.nano))
  omega

theorem not_lt_and_not_lt_iff {a b : Instant} : ¬ a < b ∧ ¬ b < a ↔ a = b := by
  constructor
  · rintro ⟨hbefore, hafter⟩
    change ¬ (a.second < b.second ∨ (a.second = b.second ∧ a.nano < b.nano)) at hbefore
    change ¬ (b.second < a.second ∨ (b.second = a.second ∧ b.nano < a.nano)) at hafter
    obtain ⟨second, nano, _, _, _⟩ := a
    obtain ⟨other, part, _, _, _⟩ := b
    dsimp only at hbefore hafter
    have hsecond : second = other := by omega
    have hnano : nano = part := by omega
    subst hsecond hnano
    rfl
  · rintro rfl
    exact ⟨fun h => lt_asymm h h, fun h => lt_asymm h h⟩

theorem exists_make {second : Int} {nano : Nat} (hfirst : -96465292 * 86400 ≤ second)
    (hend : second < (95026236 + 1) * 86400) (hnano : nano < nanosPerSecond) :
    ∃ time, make? second nano = some time := by
  rw [make?, dif_pos ⟨hfirst, hend, .inl hnano⟩]
  exact ⟨_, rfl⟩

theorem exists_ofNanos {nanos : Int}
    (hfirst : -96465292 * 86400 * (1000000000 : Int) ≤ nanos)
    (hend : nanos < (95026236 + 1) * 86400 * (1000000000 : Int)) :
    ∃ time, ofNanos? nanos = some time := by
  rw [ofNanos?]
  apply exists_make
  all_goals
    simp only [nanosPerSecond]
    omega

/-- The window for refunds is always known. -/
theorem Unsigned.exists_limit {time : Instant} (h : time.Unsigned) :
    ∃ limit, time.plus Desk.refundWindow = some limit := by
  have hday := Date.day_le_of_year h.2
  have hdate : time.date.day = time.second / 86400 := rfl
  have hfirst := time.first_le
  have hnano := time.nano_lt
  have hspan : Desk.refundWindow = 172800 * 1000000000 := rfl
  rw [hdate] at hday
  rw [nanosPerSecond] at hnano
  rw [plus]
  split
  · apply exists_ofNanos
    all_goals
      simp only [nanos, nanosPerSecond]
      omega
  · simp only
    rw [if_pos (.inl (by decide))]
    apply exists_ofNanos
    all_goals
      simp only [nanos, nanosPerSecond]
      omega

end Instant

namespace Date

theorem day_lt_of_ne_last {date : Date} (h : date ≠ last) : date.day < 95026236 := by
  have hother : date.day ≠ 95026236 := by
    intro hsame
    obtain ⟨day, hfirst, hlast⟩ := date
    cases hsame
    exact h rfl
  have hlast := date.le_last
  omega

theorem day_later_bounds {date : Date} (h : date ≠ last) :
    -96465292 * 86400 ≤ date.start.second + secondsPerDay ∧
      date.start.second + secondsPerDay < (95026236 + 1) * 86400 := by
  have hfirst := date.first_le
  have hlast := day_lt_of_ne_last h
  simp only [start, secondsPerDay]
  omega

def dayLater (date : Date) (h : date ≠ last) : Instant :=
  ⟨date.start.second + secondsPerDay, 0, (day_later_bounds h).1, (day_later_bounds h).2,
    .inl (by decide)⟩

theorem plus_returnGrace {date : Date} (h : date ≠ last) :
    date.start.plus Desk.returnGrace = some (date.dayLater h) := by
  have hspan : Desk.returnGrace = 86400 * 1000000000 := rfl
  have hwhole : date.start.nano < nanosPerSecond := (by decide : 0 < nanosPerSecond)
  have hsecond : (date.start.nanos + Desk.returnGrace) / (nanosPerSecond : Int) =
      date.start.second + secondsPerDay := by
    simp only [Instant.nanos, start, nanosPerSecond, secondsPerDay]
    omega
  have hnano : ((date.start.nanos + Desk.returnGrace) % (nanosPerSecond : Int)).toNat = 0 := by
    simp only [Instant.nanos, start, nanosPerSecond]
    omega
  rw [Instant.plus, if_pos hwhole, Instant.ofNanos?, hsecond, hnano, Instant.make?,
    dif_pos ⟨(date.dayLater h).first_le, (date.dayLater h).lt_end, (date.dayLater h).nano_lt⟩]
  rfl

/-- The grace of an order that expires on the last day of the calendar has no end. -/
theorem plus_returnGrace_last : last.start.plus Desk.returnGrace = none := by
  decide

theorem lt_dayLater {date : Date} (h : date ≠ last) {time : Instant} :
    time < date.dayLater h ↔ ¬ date < time.date := by
  change time.second < date.day * 86400 + 86400 ∨
    (time.second = date.day * 86400 + 86400 ∧ time.nano < 0) ↔
      ¬ date.day < time.second / 86400
  omega

end Date

end ParcelDesk
