import ObjectQuery.Calendar.DateTime
import ObjectQuery.Number.Digits
import ObjectQuery.Text.Blank

/-!
# Reading date-times

Two written forms are read: the configured form `YYYY-MM-DD HH:MM:SS` and the value form
`YYYY-MM-DDTHH:MM:SS.fraction`.  Both take blanks in front of every number, one or two digits
for the parts smaller than a year, and for the year up to four digits or a sign with any
number of digits.

## Main Definitions

* `DateTime.ofConfigured?` — the form of dates in definitions and configurations
* `DateTime.ofValue?` — the form of dates among bind values
-/

namespace ObjectQuery.Calendar

open ObjectQuery.Text ObjectQuery.Number

/-- A part of a date in the making: what is left to read, behind what was read. -/
abbrev Reader (α : Type) := List Char → Option (α × List Char)

/-- Reads a number of one up to `width` digits behind any blanks. -/
def readNumber (width : Nat) : Reader Nat := fun cs =>
  let (run, rest) := takeDigits width (trimStart cs)
  if run.isEmpty then none else some (natOfDecimal run, rest)

/-- Reads a year behind any blanks: up to four digits, or a sign and any number of digits. -/
def readYear : Reader Int := fun cs =>
  let signed (negative : Bool) (cs : List Char) : Option (Int × List Char) :=
    let (run, rest) := takeDigits cs.length cs
    if run.isEmpty then none
    else some (if negative then -(natOfDecimal run : Int) else natOfDecimal run, rest)
  match trimStart cs with
  | '-' :: rest => signed true rest
  | '+' :: rest => signed false rest
  | cs =>
    let (run, rest) := takeDigits 4 cs
    if run.isEmpty then none else some (natOfDecimal run, rest)

/-- Reads one given character. -/
def readChar (expected : Char) : List Char → Option (List Char)
  | c :: rest => if c = expected then some rest else none
  | [] => none

/-- Reads an optional fraction of a second as nanoseconds; digits after the ninth are
dropped. -/
def readFraction : Reader Nat
  | '.' :: cs =>
    let (run, rest) := takeDigits 9 cs
    if run.isEmpty then none
    else some (natOfDecimal run * Nat.pow 10 (9 - run.length), rest.dropWhile isDigit)
  | cs => some (0, cs)

/-- Reads `YYYY-MM-DD HH:MM:SS`.  The space stands for any amount of blanks, also none. -/
def DateTime.ofConfigured? (text : String) : Option DateTime := do
  let (year, cs) ← readYear text.toList
  let cs ← readChar '-' cs
  let (month, cs) ← readNumber 2 cs
  let cs ← readChar '-' cs
  let (day, cs) ← readNumber 2 cs
  let (hour, cs) ← readNumber 2 cs
  let cs ← readChar ':' cs
  let (minute, cs) ← readNumber 2 cs
  let cs ← readChar ':' cs
  let (second, cs) ← readNumber 2 cs
  if cs.isEmpty then DateTime.of? year month day hour minute second 0 else none

/-- Reads `YYYY-MM-DDTHH:MM:SS` with an optional fraction.  Blanks may stand before every
separator and at the end. -/
def DateTime.ofValue? (text : String) : Option DateTime := do
  let (year, cs) ← readYear text.toList
  let cs ← readChar '-' (trimStart cs)
  let (month, cs) ← readNumber 2 cs
  let cs ← readChar '-' (trimStart cs)
  let (day, cs) ← readNumber 2 cs
  let cs ← readChar 'T' (trimStart cs)
  let (hour, cs) ← readNumber 2 cs
  let cs ← readChar ':' (trimStart cs)
  let (minute, cs) ← readNumber 2 cs
  let cs ← readChar ':' (trimStart cs)
  let (second, cs) ← readNumber 2 cs
  let (nanosecond, cs) ← readFraction cs
  if (trimStart cs).isEmpty then DateTime.of? year month day hour minute second nanosecond
  else none

end ObjectQuery.Calendar
