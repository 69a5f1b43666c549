import Mathlib.Data.Nat.Find

/-!
# Dates

The UTC calendar day of a time, as ECMAScript computes it, and as `toISOString` writes it.
Days are counted from the first of January of the year 0.
-/

namespace Text

def msPerDay : Nat :=
  24 * 60 * 60 * 1000

/-- The leap years before a year. -/
def leapYears (year : Nat) : Nat :=
  (year + 3) / 4 - (year + 99) / 100 + (year + 399) / 400

/-- `DayFromYear` -/
def dayFromYear (year : Nat) : Nat :=
  365 * year + leapYears year

/-- `InLeapYear` -/
def inLeapYear (year : Nat) : Nat :=
  if year % 4 = 0 ∧ (year % 100 ≠ 0 ∨ year % 400 = 0) then 1 else 0

/-- The days of a year before a month. -/
def monthStart (year month : Nat) : Nat :=
  [0, 31, 59, 90, 120, 151, 181, 212, 243, 273, 304, 334].getD month 0 +
    if 2 ≤ month then inLeapYear year else 0

/-- A calendar day; the months and the days of a month count from zero. -/
structure CalendarDay where
  year : Nat
  month : Nat
  date : Nat
  deriving DecidableEq

/-- `YearFromTime` -/
def yearFromDay (day : Nat) : Nat :=
  Nat.findGreatest (fun year => dayFromYear year ≤ day) (day / 365)

/-- `MonthFromTime` and `DateFromTime` -/
def calendarDay (day : Nat) : CalendarDay :=
  let year := yearFromDay day
  let dayWithinYear := day - dayFromYear year
  let month := Nat.findGreatest (fun month => monthStart year month ≤ dayWithinYear) 11
  ⟨year, month, dayWithinYear - monthStart year month⟩

/-- `Day`, for a time in milliseconds since 1970. -/
def dayOfTime (time : Int) : Nat :=
  (time / msPerDay + dayFromYear 1970).toNat

def padded (width number : Nat) : List Char :=
  List.leftpad width '0' (Nat.toDigits 10 number)

/-- The year of an ISO string; from 10000 on it has six digits and a sign. -/
def yearText (year : Nat) : List Char :=
  if year ≤ 9999 then padded 4 year else '+' :: padded 6 year

/-- The time of a day in an ISO string. -/
def timeText (msOfDay : Nat) : List Char :=
  padded 2 (msOfDay / 1000 / 60 / 60) ++ ':' :: padded 2 (msOfDay / 1000 / 60 % 60) ++
    ':' :: padded 2 (msOfDay / 1000 % 60) ++ '.' :: padded 3 (msOfDay % 1000)

/-- `new Date(time).toISOString()` -/
def toISOString (time : Int) : String :=
  let day := calendarDay (dayOfTime time)
  String.ofList ((yearText day.year ++ '-' :: padded 2 (day.month + 1) ++
    '-' :: padded 2 (day.date + 1)) ++ 'T' :: timeText (time % msPerDay).toNat ++ ['Z'])

/-- `new Date(time).toISOString().slice(0, 10)` -/
def isoDate (time : Int) : String :=
  let day := calendarDay (dayOfTime time)
  String.ofList ((yearText day.year ++ '-' :: padded 2 (day.month + 1) ++
    '-' :: padded 2 (day.date + 1)).take 10)

theorem le_length_padded (width number : Nat) : width ≤ (padded width number).length := by
  rw [padded, List.length_leftpad]
  exact le_max_left _ _

theorem le_length_yearText (year : Nat) : 4 ≤ (yearText year).length := by
  unfold yearText
  split
  · exact le_length_padded 4 year
  · have digits := le_length_padded 6 year
    rw [List.length_cons]
    omega

theorem isoDate_eq_take (time : Int) :
    isoDate time = String.ofList ((toISOString time).toList.take 10) := by
  let day := calendarDay (dayOfTime time)
  have year := le_length_yearText day.year
  have month := le_length_padded 2 (day.month + 1)
  have date := le_length_padded 2 (day.date + 1)
  have enough : 10 ≤ (yearText day.year ++ '-' :: padded 2 (day.month + 1) ++
      '-' :: padded 2 (day.date + 1)).length := by
    simp only [List.length_append, List.length_cons]
    omega
  rw [toISOString, String.toList_ofList, List.append_assoc,
    List.take_append_of_le_length enough]
  rfl

example : toISOString 951782400123 = "2000-02-29T00:00:00.123Z" := by decide +kernel
example : isoDate 951782400000 = "2000-02-29" := by decide +kernel
example : isoDate (-1) = "1969-12-31" := by decide +kernel

end Text
