import ParcelDesk.Calendar.Scan
import ParcelDesk.Proofs.Calendar.Civil
import ParcelDesk.Proofs.Text.Blank
import ParcelDesk.Proofs.Text.Numeral
import ParcelDesk.Proofs.Text.Pieces

/-!
# Reading what was written

A date and an instant are read back from the form in which records hold them, whatever their year
and fraction of a second, and a date also from the form in which clients write it.
-/

namespace ParcelDesk

open Numeral (Stops stops_cons)

namespace Scan

theorem skipBlanks_digits {digits : List Char} (h : ∀ c ∈ digits, c.isDigit = true)
    (hsome : digits ≠ []) (rest : List Char) : skipBlanks (digits ++ rest) = digits ++ rest := by
  cases digits with
  | nil => exact absurd rfl hsome
  | cons c digits =>
      have hc := Text.isBlank_of_isDigit (h c List.mem_cons_self)
      exact List.dropWhile_cons_of_neg (by rw [hc]; decide)

theorem skipBlanks_padded (width n : Nat) (rest : List Char) :
    skipBlanks (Numeral.padded width n ++ rest) = Numeral.padded width n ++ rest :=
  skipBlanks_digits (fun _ => Numeral.isDigit_of_mem_padded) (Numeral.padded_ne_nil width n) rest

theorem numeral_padded {width n : Nat} (hn : n < Numeral.signedEnd) (rest : List Char) :
    numeral (Numeral.padded width n) rest = .ok (n, rest) := by
  rw [numeral, if_neg (by simpa using Numeral.padded_ne_nil width n), Numeral.value_padded,
    if_pos hn]

theorem longNumber_padded {width n : Nat} (hn : n < Numeral.signedEnd) {rest : List Char}
    (hrest : Stops rest) : longNumber (Numeral.padded width n ++ rest) = .ok (n, rest) := by
  have hdigits : ∀ c ∈ Numeral.padded width n, c.isDigit = true := fun _ =>
    Numeral.isDigit_of_mem_padded
  rw [longNumber, Text.takeWhile_append_of_stop hdigits hrest,
    Text.dropWhile_append_of_stop hdigits hrest]
  exact numeral_padded hn rest

/-- The digits of a padded numeral are seen, if it fills the places that are looked at or if
something else than a digit follows. -/
theorem digits_padded {width n : Nat} (hn : n < 10 ^ (width + 1)) {places : Nat}
    (hplaces : width + 1 ≤ places) {rest : List Char} (hrest : width + 1 = places ∨ Stops rest) :
    ((Numeral.padded (width + 1) n ++ rest).take places).takeWhile Char.isDigit =
      Numeral.padded (width + 1) n := by
  have hstop : Stops (rest.take (places - (width + 1))) := by
    rcases hrest with rfl | hrest
    · intro c hc
      simp at hc
    · exact hrest.take _
  have hlength := Numeral.length_padded hn
  rw [List.take_append, hlength, List.take_of_length_le (by omega),
    Text.takeWhile_append_of_stop (fun _ => Numeral.isDigit_of_mem_padded) hstop]

theorem number_padded (width : Nat) {n : Nat} (hn : n < 10 ^ (width + 1)) (hwidth : width < 18)
    {places : Nat} (hplaces : width + 1 ≤ places) {rest : List Char}
    (hrest : width + 1 = places ∨ Stops rest) :
    number places (Numeral.padded (width + 1) n ++ rest) = .ok (n, rest) := by
  have hrange : n < Numeral.signedEnd := by
    have : 10 ^ (width + 1) ≤ 10 ^ 18 := Nat.pow_le_pow_right (by decide) hwidth
    exact Nat.lt_trans (Nat.lt_of_lt_of_le hn this) (by decide)
  simp only [number, digits_padded hn hplaces hrest, List.drop_left]
  exact numeral_padded hrange rest

theorem part_padded {low high n : Nat} (hlow : low ≤ n) (hhigh : n ≤ high) (hn : n < 100)
    (rest : List Char) : part low high (Numeral.padded 2 n ++ rest) = .ok (n, rest) := by
  rw [part, skipBlanks_padded,
    number_padded 1 hn (by decide) (Nat.le_refl 2) (.inl rfl)]
  exact if_pos ⟨hlow, hhigh⟩

/-! ## Dates -/

theorem year_checked {written : Int} (h : -2147483648 ≤ written ∧ written < 2147483648)
    (rest : List Char) :
    (do
      let (year, rest) ← (pure (written, rest) : Except Fault (Int × List Char))
      if -2147483648 ≤ year ∧ year < 2147483648 then .ok (year, rest) else .error .outOfRange) =
      (.ok (written, rest) : Except Fault (Int × List Char)) := by
  rw [pure_bind]
  exact if_pos h

theorem year_of_unsigned {text : List Char} (hblanks : skipBlanks text = text)
    (hhead : ∀ c ∈ text.head?, c.isDigit = true) {n : Nat} {rest : List Char}
    (hnumber : number 4 text = .ok (n, rest)) (hn : n < 2147483648) :
    year text = .ok ((n : Int), rest) := by
  rw [year, hblanks]
  split
  · exact absurd (hhead '-' rfl) (by decide)
  · exact absurd (hhead '+' rfl) (by decide)
  · rw [hnumber, ok_bind]
    exact year_checked (by omega) rest

theorem year_of_minus {text rest : List Char} {n : Nat} (hnumber : longNumber text = .ok (n, rest))
    (hn : n < 2147483648) : year ('-' :: text) = .ok (-(n : Int), rest) := by
  have hblanks : skipBlanks ('-' :: text) = '-' :: text := rfl
  rw [year, hblanks]
  simp only
  rw [hnumber, ok_bind]
  exact year_checked (by omega) rest

theorem year_of_plus {text rest : List Char} {n : Nat} (hnumber : longNumber text = .ok (n, rest))
    (hn : n < 2147483648) : year ('+' :: text) = .ok ((n : Int), rest) := by
  have hblanks : skipBlanks ('+' :: text) = '+' :: text := rfl
  rw [year, hblanks]
  simp only
  rw [hnumber, ok_bind]
  exact year_checked (by omega) rest

theorem year_yearText {written : Int} (h : -999999 ≤ written ∧ written ≤ 999999)
    {rest : List Char} (hrest : Stops rest) :
    year (Date.yearText written ++ rest) = .ok (written, rest) := by
  have hlong : written.natAbs < Numeral.signedEnd :=
    Nat.lt_of_le_of_lt (show written.natAbs ≤ 999999 by omega) (by decide)
  rw [Date.yearText]
  split
  · have hfour : written.natAbs < 10 ^ 4 := by omega
    have hwritten : (written.natAbs : Int) = written := by omega
    rw [year_of_unsigned (skipBlanks_padded 4 _ rest) ?_
      (number_padded 3 hfour (by decide) (Nat.le_refl 4) (.inl rfl)) (by omega), hwritten]
    intro c hc
    rw [List.head?_append_of_ne_nil _ (Numeral.padded_ne_nil 4 _)] at hc
    exact Numeral.isDigit_of_mem_padded (List.mem_of_mem_head? hc)
  · split
    · have hwritten : -(written.natAbs : Int) = written := by omega
      rw [List.cons_append, year_of_minus (longNumber_padded hlong hrest) (by omega), hwritten]
    · have hwritten : (written.natAbs : Int) = written := by omega
      rw [List.cons_append, year_of_plus (longNumber_padded hlong hrest) (by omega), hwritten]

theorem mark_self (c : Char) (rest : List Char) : mark c (c :: rest) = .ok rest :=
  if_pos rfl

theorem skipBlanks_cons {c : Char} (h : Text.isBlank c = false) (rest : List Char) :
    skipBlanks (c :: rest) = c :: rest :=
  List.dropWhile_cons_of_neg (by rw [h]; decide)

theorem yearFirst_yearFirst (date : Date) (rest : List Char) :
    yearFirst (date.yearFirst ++ rest) =
      .ok ((date.civil.year, date.civil.month, date.civil.day), rest) := by
  obtain ⟨⟨hmonth1, hmonth12⟩, hday1, hday31⟩ :=
    Civil.isValid_range (Civil.isValid_ofDayNumber date.day)
  rw [← Date.civil] at hmonth1 hmonth12 hday1 hday31
  simp only [yearFirst, Date.yearFirst, List.append_assoc, List.cons_append]
  rw [year_yearText date.year_range (stops_cons (by decide) _), ok_bind,
    skipBlanks_cons (by decide), mark_self, ok_bind,
    part_padded hmonth1 hmonth12 (by omega), ok_bind,
    skipBlanks_cons (by decide), mark_self, ok_bind,
    part_padded hday1 hday31 (by omega), ok_bind]

theorem named_civil (date : Date) :
    named date.civil.year date.civil.month date.civil.day = .ok date := by
  rw [named, date.ofCivil_civil]

theorem dayFirst_dayFirst (date : Date) : Scan.dayFirst date.dayFirst = .ok date := by
  obtain ⟨⟨hmonth1, hmonth12⟩, hday1, hday31⟩ :=
    Civil.isValid_range (Civil.isValid_ofDayNumber date.day)
  rw [← Date.civil] at hmonth1 hmonth12 hday1 hday31
  have hyear : year (Date.yearText date.civil.year ++ []) = .ok (date.civil.year, []) :=
    year_yearText date.year_range fun c hc => by cases hc
  rw [List.append_nil] at hyear
  simp only [Scan.dayFirst, Date.dayFirst, List.append_assoc, List.cons_append]
  rw [part_padded hday1 hday31 (by omega), ok_bind, mark_self, ok_bind,
    part_padded hmonth1 hmonth12 (by omega), ok_bind, mark_self, ok_bind, hyear, ok_bind]
  exact named_civil date

theorem date_yearFirst (date : Date) : Scan.date date.yearFirst = .ok date := by
  have hread := yearFirst_yearFirst date []
  rw [List.append_nil] at hread
  rw [Scan.date, hread, ok_bind]
  exact named_civil date

/-! ## Instants -/

theorem fraction_padded (width : Nat) {n : Nat} (hn : n < 10 ^ (width + 1)) (hwidth : width + 1 ≤ 9)
    {rest : List Char} (hrest : Stops rest) :
    fraction ('.' :: (Numeral.padded (width + 1) n ++ rest)) =
      .ok (n * Nat.pow 10 (9 - (width + 1)), rest) := by
  rw [fraction, number_padded width hn (by omega) hwidth (.inr hrest), ok_bind]
  simp only [digits_padded hn hwidth (.inr hrest), Numeral.length_padded hn, hrest.dropWhile]

theorem fraction_fractionText {nano : Nat} (h : nano < nanosPerSecond) {rest : List Char}
    (hrest : Stops rest) (hpoint : ∀ tail, rest ≠ '.' :: tail) :
    fraction (Instant.fractionText nano ++ rest) = .ok (nano, rest) := by
  rw [nanosPerSecond] at h
  rw [Instant.fractionText]
  split
  · rename_i hzero
    rw [hzero, List.nil_append, fraction]
    exact hpoint
  · split
    · rename_i hmilli
      rw [List.cons_append, fraction_padded 2 (by omega) (by decide) hrest]
      have hscale : nano / 1000000 * Nat.pow 10 (9 - (2 + 1)) = nano :=
        Nat.div_mul_cancel (Nat.dvd_of_mod_eq_zero hmilli)
      rw [hscale]
    · split
      · rename_i hmicro
        rw [List.cons_append, fraction_padded 5 (by omega) (by decide) hrest]
        have hscale : nano / 1000 * Nat.pow 10 (9 - (5 + 1)) = nano :=
          Nat.div_mul_cancel (Nat.dvd_of_mod_eq_zero hmicro)
        rw [hscale]
      · rw [List.cons_append, fraction_padded 8 (by omega) (by decide) hrest]
        have hscale : nano * Nat.pow 10 (9 - (8 + 1)) = nano := Nat.mul_one nano
        rw [hscale]

/-- The parts of an instant make up the instant; of a leap second the sixtieth does. -/
theorem assemble_parts (time : Instant) {inDay : Nat} (h : time.second % 86400 = inDay) :
    assemble time.date (inDay / 3600) (inDay / 60 % 60)
      (inDay % 60 + time.nano / nanosPerSecond) (time.nano % nanosPerSecond) 0 = .ok time := by
  have hnano := time.nano_lt
  rw [nanosPerSecond] at hnano
  have hshown : min (inDay % 60 + time.nano / nanosPerSecond) 59 = inDay % 60 := by
    rw [nanosPerSecond]
    omega
  have hfraction : (if inDay % 60 + time.nano / nanosPerSecond = 60 then
      time.nano % nanosPerSecond + nanosPerSecond else time.nano % nanosPerSecond) =
        time.nano := by
    rw [nanosPerSecond]
    split <;> omega
  have hsecond : time.date.day * 86400 + (3600 * (inDay / 3600 : Nat) +
      60 * (inDay / 60 % 60 : Nat) + (inDay % 60 : Nat) : Int) - 0 = time.second := by
    have hday : time.date.day = time.second / 86400 := rfl
    omega
  have hmake : Instant.make? time.second time.nano = some time := by
    rw [Instant.make?, dif_pos ⟨time.first_le, time.lt_end, time.nano_lt⟩]
  simp only [assemble, hshown, hsecond, hfraction, hmake]
  rfl

theorem instant_text (time : Instant) : instant time.text = .ok time := by
  obtain ⟨inDay, hinDay⟩ : ∃ inDay : Nat, time.second % 86400 = inDay :=
    Int.eq_ofNat_of_zero_le (Int.emod_nonneg _ (by decide))
  have hday : inDay < 86400 := by omega
  have hnano := time.nano_lt
  have hsecond : inDay % 60 + time.nano / nanosPerSecond ≤ 60 := by
    rw [nanosPerSecond] at hnano ⊢
    omega
  have hzone : zone (skipBlanks ['Z']) = .ok (0, []) := rfl
  have hstops : Stops ['Z'] := stops_cons (by decide) []
  have hfraction := fraction_fractionText (Nat.mod_lt time.nano (by decide)) hstops (by simp)
  simp only [instant, Instant.text, Instant.clockText, hinDay, Int.toNat_natCast,
    List.append_assoc, List.cons_append]
  rw [yearFirst_yearFirst, ok_bind]
  have hdivider : ∀ rest, divider ('T' :: rest) = .ok rest := fun _ => rfl
  rw [hdivider, ok_bind,
    part_padded (Nat.zero_le _) (by omega) (by omega), ok_bind,
    skipBlanks_cons (by decide), mark_self, ok_bind,
    part_padded (Nat.zero_le _) (by omega) (by omega), ok_bind,
    skipBlanks_cons (by decide), mark_self, ok_bind,
    part_padded (Nat.zero_le _) hsecond (by omega), ok_bind,
    hfraction, ok_bind, hzone, ok_bind]
  simp only [named_civil]
  exact assemble_parts time hinDay

end Scan

namespace Date

theorem isBlank_of_mem_yearText {year : Int} {c : Char} (h : c ∈ yearText year) :
    Text.isBlank c = false := by
  have hdigits : c ∈ Numeral.padded 4 year.natAbs → Text.isBlank c = false := fun hc =>
    Text.isBlank_of_isDigit (Numeral.isDigit_of_mem_padded hc)
  rw [yearText] at h
  split at h
  · exact hdigits h
  · split at h
    all_goals
      rcases List.mem_cons.1 h with rfl | hc
      · decide
      · exact hdigits hc

/-- A date shown day first is one word. -/
theorem isBlank_of_mem_dayFirst {date : Date} {c : Char} (h : c ∈ date.dayFirst) :
    Text.isBlank c = false := by
  simp only [dayFirst, List.mem_append, List.mem_cons, or_assoc] at h
  obtain hday | rfl | hmonth | rfl | hyear := h
  · exact Text.isBlank_of_isDigit (Numeral.isDigit_of_mem_padded hday)
  · decide
  · exact Text.isBlank_of_isDigit (Numeral.isDigit_of_mem_padded hmonth)
  · decide
  · exact isBlank_of_mem_yearText hyear

theorem dayFirst_ne_nil (date : Date) : date.dayFirst ≠ [] := by
  simp [dayFirst]

theorem tight_dayFirst (date : Date) : Text.Tight date.dayFirst :=
  Text.tight_of_forall fun _ => isBlank_of_mem_dayFirst

theorem read_dayFirst (date : Date) : Date.read date.dayFirst = .ok date := by
  rw [Date.read, date.tight_dayFirst.trim, Scan.dayFirst_dayFirst]

end Date

end ParcelDesk
