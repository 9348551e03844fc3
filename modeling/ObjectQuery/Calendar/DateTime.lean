/-!
# Date-times

A date of the Gregorian calendar with a time of day, without a time zone.

## Main Definitions

* `daysIn` — the length of a month
* `Valid` — the dates and times that exist
* `DateTime` — a valid date and time, down to the nanosecond

## Design Notes

A leap second is second 60, allowed in every minute.  Years run from -262143 to 262142, the
years whose days all have a 32-bit number.
-/

namespace ObjectQuery.Calendar

/-- Whether a year of the Gregorian calendar has a 29th of February. -/
def isLeapYear (year : Int) : Bool := year % 4 = 0 && (year % 100 != 0 || year % 400 = 0)

/-- The number of days of a month. -/
def daysIn (year : Int) (month : Nat) : Nat :=
  if month = 2 then (if isLeapYear year then 29 else 28)
  else if month = 4 ∨ month = 6 ∨ month = 9 ∨ month = 11 then 30
  else 31

/-- The dates and times of day that exist. -/
def Valid (year : Int) (month day hour minute second nanosecond : Nat) : Prop :=
  (-262143 ≤ year ∧ year ≤ 262142) ∧ (1 ≤ month ∧ month ≤ 12) ∧
    (1 ≤ day ∧ day ≤ daysIn year month) ∧ hour < 24 ∧ minute < 60 ∧ second ≤ 60 ∧
    nanosecond < 1000000000

instance (year : Int) (month day hour minute second nanosecond : Nat) :
    Decidable (Valid year month day hour minute second nanosecond) := by
  unfold Valid
  infer_instance

/-- A valid date with a time of day. -/
structure DateTime where
  year : Int
  month : Nat
  day : Nat
  hour : Nat
  minute : Nat
  second : Nat
  nanosecond : Nat
  valid : Valid year month day hour minute second nanosecond
  deriving DecidableEq

namespace DateTime

/-- The date-time with the given numbers, if it exists. -/
def of? (year : Int) (month day hour minute second nanosecond : Nat) : Option DateTime :=
  if h : Valid year month day hour minute second nanosecond then
    some ⟨year, month, day, hour, minute, second, nanosecond, h⟩
  else none

/-- The last second of the year 9999, which marks rows that were never deleted. -/
def endOfTime : DateTime := ⟨9999, 12, 31, 23, 59, 59, 0, by decide⟩

end DateTime

end ObjectQuery.Calendar
