import ObjectQuery.Calendar.DateTime

/-!
# Printing date-times

## Main Definitions

* `DateTime.iso` — `YYYY-MM-DDTHH:MM:SS` with the shortest exact fraction
* `DateTime.display` — `YYYY-MM-DD HH:MM:SS`, the fraction left out
-/

namespace ObjectQuery.Calendar

/-- The decimal digits of a number, filled up with zeros in front to a width. -/
def padded (width n : Nat) : String :=
  let digits := Nat.toDigits 10 n
  String.ofList (List.replicate (width - digits.length) '0' ++ digits)

/-- Four digits for the years 0 to 9999, a sign and at least four digits for the others. -/
def yearText (year : Int) : String :=
  if 0 ≤ year ∧ year ≤ 9999 then padded 4 year.toNat
  else (if year < 0 then "-" else "+") ++ padded 4 year.natAbs

/-- The fraction of a second in the fewest of three, six or nine places that is exact;
nothing for a whole second. -/
def fractionText (nanosecond : Nat) : String :=
  if nanosecond = 0 then ""
  else if nanosecond % 1000000 = 0 then "." ++ padded 3 (nanosecond / 1000000)
  else if nanosecond % 1000 = 0 then "." ++ padded 6 (nanosecond / 1000)
  else "." ++ padded 9 nanosecond

namespace DateTime

/-- The date part, `YYYY-MM-DD`. -/
def dateText (d : DateTime) : String :=
  yearText d.year ++ "-" ++ padded 2 d.month ++ "-" ++ padded 2 d.day

/-- The time part to the second, `HH:MM:SS`. -/
def timeText (d : DateTime) : String :=
  padded 2 d.hour ++ ":" ++ padded 2 d.minute ++ ":" ++ padded 2 d.second

/-- The exact text of a date-time. -/
def iso (d : DateTime) : String :=
  d.dateText ++ "T" ++ d.timeText ++ fractionText d.nanosecond

/-- The text of a date-time for display. -/
def display (d : DateTime) : String := d.dateText ++ " " ++ d.timeText

end DateTime

end ObjectQuery.Calendar
