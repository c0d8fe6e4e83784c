/-!
# Calendar days

Days of the proleptic Gregorian calendar.  Year `0` exists and is a leap year.

## Main definitions

* `daysInMonth year month` — the number of days of a month.
* `IsDay year month day` — the three numbers name an existing day.
* `Date` — an existing day.
* `Date.of? year month day` — the day with these numbers, if it exists.
-/

namespace Specimen

namespace Calendar

/-- Every fourth year is a leap year, but of the full centuries only every fourth. -/
def isLeapYear (year : Int) : Bool :=
  year % 4 == 0 && (year % 100 != 0 || year % 400 == 0)

/-- The number of days of a month; there are none in a month that does not exist. -/
def daysInMonth (year : Int) : Nat → Nat
  | 1 | 3 | 5 | 7 | 8 | 10 | 12 => 31
  | 4 | 6 | 9 | 11 => 30
  | 2 => if isLeapYear year then 29 else 28
  | _ => 0

/-- The first year of the calendar. -/
def firstYear : Int := -262143

/-- The last year of the calendar. -/
def lastYear : Int := 262142

/-- The numbers name an existing day. -/
def IsDay (year : Int) (month day : Nat) : Prop :=
  (firstYear ≤ year ∧ year ≤ lastYear) ∧ 1 ≤ day ∧ day ≤ daysInMonth year month

instance (year : Int) (month day : Nat) : Decidable (IsDay year month day) :=
  inferInstanceAs (Decidable (_ ∧ _))

/-- There are twelve months. -/
theorem month_bounds_of_daysInMonth_pos {year : Int} {month : Nat}
    (h : 0 < daysInMonth year month) : 1 ≤ month ∧ month ≤ 12 := by
  match month with
  | 0 => simp [daysInMonth] at h
  | 1 | 2 | 3 | 4 | 5 | 6 | 7 | 8 | 9 | 10 | 11 | 12 => omega
  | n + 13 => simp [daysInMonth] at h

end Calendar

/-- A day of the calendar. -/
structure Date where
  year : Int
  month : Nat
  day : Nat
  /-- Only days that exist are dates. -/
  isDay : Calendar.IsDay year month day
deriving DecidableEq

namespace Date

/-- The day with these numbers, if it exists. -/
def of? (year : Int) (month day : Nat) : Option Date :=
  if h : Calendar.IsDay year month day then some ⟨year, month, day, h⟩ else none

/-- The numbers of a date name it. -/
@[simp] theorem of?_self (d : Date) : of? d.year d.month d.day = some d := by
  simp [of?, d.isDay]

instance : Inhabited Date := ⟨⟨1970, 1, 1, by decide⟩⟩

end Date

end Specimen
