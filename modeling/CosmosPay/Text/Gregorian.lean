import CosmosPay.Text.Calendar
import Mathlib.Tactic.IntervalCases

/-!
# The Gregorian calendar

The calendar days follow one another: within a month, from the end of a month to the next
one, and from the end of a year to the next one.  `calendarDay` computes the day with a given
number, and the ISO dates of the years up to 9999 tell different days apart.
-/

namespace Text

/-- The days of a month; the months count from zero. -/
def daysInMonth (year month : Nat) : Nat :=
  if month = 1 then 28 + inLeapYear year
  else if month = 3 ∨ month = 5 ∨ month = 8 ∨ month = 10 then 30
  else 31

namespace CalendarDay

/-- A month of the year, and a day of this month. -/
structure IsValid (day : CalendarDay) : Prop where
  month : day.month < 12
  date : day.date < daysInMonth day.year day.month

/-- The calendar day that follows. -/
def next (day : CalendarDay) : CalendarDay :=
  if day.date + 1 < daysInMonth day.year day.month then { day with date := day.date + 1 }
  else if day.month + 1 < 12 then ⟨day.year, day.month + 1, 0⟩
  else ⟨day.year + 1, 0, 0⟩

/-- The days from the first of January of the year 0 to this day. -/
def number (day : CalendarDay) : Nat :=
  dayFromYear day.year + (monthStart day.year day.month + day.date)

end CalendarDay

/-! ## Years and months -/

theorem inLeapYear_le_one (year : Nat) : inLeapYear year ≤ 1 := by
  unfold inLeapYear
  split <;> omega

/-- Of the years divisible by four, the centuries are left out, but not every fourth one. -/
theorem inLeapYear_add (year : Nat) :
    inLeapYear year + (if year % 100 = 0 then 1 else 0) =
      (if year % 4 = 0 then 1 else 0) + if year % 400 = 0 then 1 else 0 := by
  unfold inLeapYear
  split_ifs <;> omega

theorem leapYears_succ (year : Nat) :
    leapYears (year + 1) = leapYears year + inLeapYear year := by
  have fours : (year + 1 + 3) / 4 = (year + 3) / 4 + if year % 4 = 0 then 1 else 0 := by
    split <;> omega
  have centuries : (year + 1 + 99) / 100 = (year + 99) / 100 + if year % 100 = 0 then 1 else 0 := by
    split <;> omega
  have cycles : (year + 1 + 399) / 400 = (year + 399) / 400 + if year % 400 = 0 then 1 else 0 := by
    split <;> omega
  have fewer : (year + 99) / 100 ≤ (year + 3) / 4 := by
    omega
  have fewerLater : (year + 1 + 99) / 100 ≤ (year + 1 + 3) / 4 := by
    omega
  have leap := inLeapYear_add year
  unfold leapYears
  rw [centuries, fours] at fewerLater
  rw [fours, centuries, cycles]
  -- the rest is linear in the counts
  generalize (year + 3) / 4 = fourths at *
  generalize (year + 99) / 100 = hundredths at *
  generalize (year + 399) / 400 = fourHundredths at *
  omega

theorem dayFromYear_succ (year : Nat) :
    dayFromYear (year + 1) = dayFromYear year + (365 + inLeapYear year) := by
  rw [dayFromYear, leapYears_succ, dayFromYear]
  omega

theorem dayFromYear_mono {year later : Nat} (ordered : year ≤ later) :
    dayFromYear year ≤ dayFromYear later := by
  induction later, ordered using Nat.le_induction with
  | base => exact le_rfl
  | succ later _ ih =>
      rw [dayFromYear_succ]
      omega

theorem le_dayFromYear (year : Nat) : 365 * year ≤ dayFromYear year :=
  Nat.le_add_right _ _

theorem daysInMonth_pos (year month : Nat) : 0 < daysInMonth year month := by
  unfold daysInMonth
  split <;> (try split) <;> omega

theorem daysInMonth_le (year month : Nat) : daysInMonth year month ≤ 31 := by
  have leap := inLeapYear_le_one year
  unfold daysInMonth
  split <;> (try split) <;> omega

theorem monthStart_zero (year : Nat) : monthStart year 0 = 0 :=
  rfl

/-- A month starts when the one before it is over. -/
theorem monthStart_succ (year : Nat) {month : Nat} (isMonth : month < 11) :
    monthStart year (month + 1) = monthStart year month + daysInMonth year month := by
  interval_cases month <;> simp [monthStart, daysInMonth] <;> omega

/-- The year is over with its last month. -/
theorem monthStart_last (year : Nat) :
    monthStart year 11 + daysInMonth year 11 = 365 + inLeapYear year := by
  simp [monthStart, daysInMonth]
  omega

/-- A month is over before a later one starts. -/
theorem monthEnd_le (year : Nat) {month later : Nat} (ordered : month < later)
    (isMonth : later < 12) :
    monthStart year month + daysInMonth year month ≤ monthStart year later := by
  induction later, ordered using Nat.le_induction with
  | base => rw [monthStart_succ year (by omega)]
  | succ later _ ih =>
      rw [monthStart_succ year (by omega)]
      exact (ih (by omega)).trans (Nat.le_add_right _ _)

/-- A month lies within its year. -/
theorem monthEnd_le_year (year : Nat) {month : Nat} (isMonth : month < 12) :
    monthStart year month + daysInMonth year month ≤ 365 + inLeapYear year := by
  rw [← monthStart_last]
  rcases Nat.lt_or_ge month 11 with earlier | last
  · exact (monthEnd_le year earlier (by omega)).trans (Nat.le_add_right _ _)
  · obtain rfl : month = 11 := by omega
    exact le_rfl

/-! ## The day with a number -/

theorem dayFromYear_yearFromDay_le (day : Nat) : dayFromYear (yearFromDay day) ≤ day := by
  have first : dayFromYear 0 ≤ day := Nat.zero_le day
  exact Nat.findGreatest_spec (P := fun year => dayFromYear year ≤ day) (Nat.zero_le _) first

theorem lt_dayFromYear_yearFromDay (day : Nat) : day < dayFromYear (yearFromDay day + 1) := by
  by_contra passed
  have tried : yearFromDay day + 1 ≤ day / 365 := by
    have counted := le_dayFromYear (yearFromDay day + 1)
    omega
  exact Nat.findGreatest_is_greatest (P := fun year => dayFromYear year ≤ day)
    (Nat.lt_succ_self _) tried (not_lt.mp passed)

section Days

variable (year rest : Nat)

/-- The month of a day of the year. -/
def monthFromDay : Nat :=
  Nat.findGreatest (fun month => monthStart year month ≤ rest) 11

theorem monthFromDay_lt : monthFromDay year rest < 12 :=
  Nat.lt_succ_of_le (Nat.findGreatest_le 11)

theorem monthStart_monthFromDay_le : monthStart year (monthFromDay year rest) ≤ rest :=
  Nat.findGreatest_spec (P := fun month => monthStart year month ≤ rest) (Nat.zero_le 11)
    (Nat.zero_le rest)

theorem lt_monthEnd_monthFromDay (within : rest < 365 + inLeapYear year) :
    rest < monthStart year (monthFromDay year rest) +
      daysInMonth year (monthFromDay year rest) := by
  rcases Nat.lt_or_ge (monthFromDay year rest) 11 with earlier | last
  · rw [← monthStart_succ year earlier]
    exact not_le.mp (Nat.findGreatest_is_greatest (P := fun month => monthStart year month ≤ rest)
      (Nat.lt_succ_self _) earlier)
  · have isLast : monthFromDay year rest = 11 := by
      have bounded := monthFromDay_lt year rest
      omega
    rwa [isLast, monthStart_last]

end Days

theorem calendarDay_year (day : Nat) : (calendarDay day).year = yearFromDay day :=
  rfl

theorem calendarDay_month (day : Nat) :
    (calendarDay day).month =
      monthFromDay (yearFromDay day) (day - dayFromYear (yearFromDay day)) :=
  rfl

theorem calendarDay_date (day : Nat) : (calendarDay day).date =
    day - dayFromYear (yearFromDay day) - monthStart (yearFromDay day) (calendarDay day).month :=
  rfl

theorem number_calendarDay (day : Nat) : (calendarDay day).number = day := by
  have year := dayFromYear_yearFromDay_le day
  have month := monthStart_monthFromDay_le (yearFromDay day)
    (day - dayFromYear (yearFromDay day))
  rw [CalendarDay.number, calendarDay_date, calendarDay_month, calendarDay_year]
  omega

theorem isValid_calendarDay (day : Nat) : (calendarDay day).IsValid where
  month := monthFromDay_lt _ _
  date := by
    have begun := dayFromYear_yearFromDay_le day
    have within := lt_dayFromYear_yearFromDay day
    rw [dayFromYear_succ] at within
    have month := lt_monthEnd_monthFromDay (yearFromDay day)
      (day - dayFromYear (yearFromDay day)) (by omega)
    have start := monthStart_monthFromDay_le (yearFromDay day)
      (day - dayFromYear (yearFromDay day))
    rw [calendarDay_date, calendarDay_month, calendarDay_year]
    omega

/-! ## Days one after another -/

namespace CalendarDay

variable {day other : CalendarDay}

theorem IsValid.lt_year (valid : day.IsValid) : day.number < dayFromYear (day.year + 1) := by
  have within := monthEnd_le_year day.year valid.month
  have date := valid.date
  rw [dayFromYear_succ, number]
  omega

theorem IsValid.next (valid : day.IsValid) : day.next.IsValid := by
  unfold CalendarDay.next
  split
  · rename_i more
    exact ⟨valid.month, more⟩
  · split
    · rename_i more
      exact ⟨more, daysInMonth_pos _ _⟩
    · exact ⟨Nat.zero_lt_succ 11, daysInMonth_pos _ _⟩

theorem IsValid.number_next (valid : day.IsValid) : day.next.number = day.number + 1 := by
  have date := valid.date
  unfold CalendarDay.next
  split
  · rw [number, number]
    simp only
    omega
  · split
    · rename_i last more
      rw [number, number]
      simp only
      rw [monthStart_succ day.year (by omega)]
      omega
    · rename_i last december
      have isDecember : day.month = 11 := by
        have isMonth := valid.month
        omega
      rw [number, number]
      simp only
      rw [dayFromYear_succ, monthStart_zero]
      have whole := monthStart_last day.year
      rw [isDecember] at date last ⊢
      omega

theorem IsValid.year_le (valid : other.IsValid) (ordered : day.number ≤ other.number) :
    day.year ≤ other.year := by
  by_contra later
  have begun : dayFromYear (other.year + 1) ≤ dayFromYear day.year :=
    dayFromYear_mono (not_le.mp later)
  have ended := valid.lt_year
  have start : dayFromYear day.year ≤ day.number := Nat.le_add_right _ _
  omega

theorem IsValid.month_le (valid : day.IsValid) (validOther : other.IsValid)
    (sameYear : day.year = other.year) (ordered : day.number ≤ other.number) :
    day.month ≤ other.month := by
  by_contra later
  have begun := monthEnd_le other.year (not_le.mp later) valid.month
  have date := validOther.date
  rw [number, number, sameYear] at ordered
  omega

/-- The number tells calendar days apart. -/
theorem IsValid.eq_of_number_eq (valid : day.IsValid) (validOther : other.IsValid)
    (same : day.number = other.number) : day = other := by
  have sameYear : day.year = other.year :=
    le_antisymm (validOther.year_le same.le) (valid.year_le same.ge)
  have sameMonth : day.month = other.month :=
    le_antisymm (valid.month_le validOther sameYear same.le)
      (validOther.month_le valid sameYear.symm same.ge)
  have sameDate : day.date = other.date := by
    rw [number, number, sameYear, sameMonth] at same
    omega
  cases day
  cases other
  simp only at sameYear sameMonth sameDate
  rw [sameYear, sameMonth, sameDate]

end CalendarDay

/-- The calendar day after a day is the one that follows it in the calendar. -/
theorem calendarDay_succ (day : Nat) : calendarDay (day + 1) = (calendarDay day).next := by
  have valid := isValid_calendarDay day
  apply (isValid_calendarDay (day + 1)).eq_of_number_eq valid.next
  rw [valid.number_next, number_calendarDay, number_calendarDay]

theorem calendarDay_injective {day other : Nat} (same : calendarDay day = calendarDay other) :
    day = other := by
  rw [← number_calendarDay day, same, number_calendarDay]

/-- The UTC calendar day of a time in milliseconds since 1970. -/
def utcDay (time : Int) : CalendarDay :=
  calendarDay (dayOfTime time)

/-- Whole days before a time from 1970 on. -/
theorem dayOfTime_sub (time days : Nat) (recent : days ≤ dayFromYear 1970) :
    dayOfTime (time - days * msPerDay) + days = dayOfTime time := by
  have epoch : dayFromYear 1970 = 719528 := by decide
  have length : msPerDay = 86400000 := rfl
  rw [epoch] at recent
  unfold dayOfTime
  rw [epoch, length]
  push_cast
  omega

/-! ## ISO dates -/

/-- The first ten characters of the ISO string of a day; `isoDate` shows a time by its
`utcDay`. -/
def CalendarDay.isoText (day : CalendarDay) : String :=
  String.ofList ((yearText day.year ++ '-' :: padded 2 (day.month + 1) ++
    '-' :: padded 2 (day.date + 1)).take 10)

section Padded

variable {width number : Nat}

theorem length_padded (positive : 0 < width) (fits : number < 10 ^ width) :
    (padded width number).length = width := by
  have digits := (Nat.length_toDigits_le_iff (b := 10) (by decide) positive).mpr fits
  rw [padded, List.length_leftpad]
  exact max_eq_left digits

theorem ofDigitChars_padded (width number : Nat) :
    Nat.ofDigitChars 10 (padded width number) 0 = number := by
  rw [padded, List.leftpad, Nat.ofDigitChars_append, Nat.ofDigitChars_replicate_zero,
    Nat.mul_zero, Nat.ofDigitChars_ten_toDigits]

theorem padded_injective {other : Nat} (same : padded width number = padded width other) :
    number = other := by
  rw [← ofDigitChars_padded width number, same, ofDigitChars_padded]

theorem plus_notMem_padded : '+' ∉ padded width number := by
  intro member
  rcases List.mem_append.mp member with zeros | digits
  · cases List.eq_of_mem_replicate zeros
  · have isDigit := Nat.isDigit_of_mem_toDigits (by decide) (by decide) digits
    cases isDigit

end Padded

namespace CalendarDay

variable {day other : CalendarDay}

/-- The digits of the month and of the date have two places each. -/
theorem IsValid.length_padded (valid : day.IsValid) :
    (padded 2 (day.month + 1)).length = 2 ∧ (padded 2 (day.date + 1)).length = 2 := by
  have month := valid.month
  have date := valid.date.trans_le (daysInMonth_le _ _)
  exact ⟨Text.length_padded (by omega) (by omega), Text.length_padded (by omega) (by omega)⟩

/-- Up to the year 9999 nothing is cut off. -/
theorem IsValid.toList_isoText (valid : day.IsValid) (few : day.year ≤ 9999) :
    day.isoText.toList = padded 4 day.year ++ '-' :: padded 2 (day.month + 1) ++
      '-' :: padded 2 (day.date + 1) := by
  obtain ⟨month, date⟩ := valid.length_padded
  have year : (padded 4 day.year).length = 4 := Text.length_padded (by omega) (by omega)
  rw [isoText, yearText, if_pos few, String.toList_ofList]
  apply List.take_of_length_le
  simp [year, month, date]

/-- A later year is shown with a sign. -/
theorem head?_isoText_of_later (many : 9999 < day.year) :
    day.isoText.toList.head? = some '+' := by
  rw [isoText, yearText, if_neg (not_le.mpr many), String.toList_ofList]
  rfl

/-- The ISO date of a year up to 9999 shows which day it is. -/
theorem IsValid.eq_of_isoText_eq (valid : day.IsValid) (few : day.year ≤ 9999)
    (validOther : other.IsValid) (same : day.isoText = other.isoText) : day = other := by
  have shown := valid.toList_isoText few
  rcases Nat.lt_or_ge 9999 other.year with many | fewOther
  · have sign := head?_isoText_of_later many
    rw [← same, shown] at sign
    have year : padded 4 day.year ≠ [] := by
      intro none
      have length : (padded 4 day.year).length = 4 :=
        Text.length_padded (by omega) (by omega)
      rw [none] at length
      cases length
    obtain ⟨first, others, isYear⟩ := List.exists_cons_of_ne_nil year
    rw [isYear] at sign
    obtain rfl : first = '+' := Option.some.inj sign
    exact absurd (isYear ▸ List.mem_cons_self) plus_notMem_padded
  · have shownOther := validOther.toList_isoText fewOther
    rw [← same, shown] at shownOther
    obtain ⟨months, dates⟩ := List.append_inj' shownOther
      (by simp [valid.length_padded, validOther.length_padded])
    obtain ⟨years, months⟩ := List.append_inj' months
      (by simp [valid.length_padded, validOther.length_padded])
    have sameYear := padded_injective years
    have sameMonth := padded_injective (List.cons.inj months).2
    have sameDate := padded_injective (List.cons.inj dates).2
    cases day
    cases other
    simp only [Nat.add_right_cancel_iff] at sameYear sameMonth sameDate
    rw [sameYear, sameMonth, sameDate]

end CalendarDay

end Text
