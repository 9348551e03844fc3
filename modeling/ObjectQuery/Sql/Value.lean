import ObjectQuery.Calendar.Printing
import ObjectQuery.Number.Decimal

/-!
# Bind values

## Main Definitions

* `Value` — a value bound to a placeholder
* `Value.display` — its text for a reader
* `Value.same` — equality as the database sees it, with floating-point numbers compared as
  numbers
-/

namespace ObjectQuery.Sql

open ObjectQuery.Calendar ObjectQuery.Number

/-- A value bound to a placeholder. -/
inductive Value
  | null
  | bool (value : Bool)
  | integer (value : Int64)
  | float (value : Float)
  | date (value : DateTime)
  | text (value : String)

namespace Value

/-- The text of a value for a reader; a quote inside a text is left as it is. -/
def display : Value → String
  | null => "NULL"
  | bool value => if value then "true" else "false"
  | integer value => toString value.toInt
  | float value => floatDisplay value
  | date value => value.display
  | text value => "'" ++ value ++ "'"

/-- Whether two values are of one type and equal; a number that is not a number differs from
itself. -/
def same : Value → Value → Bool
  | null, null => true
  | bool a, bool b => a == b
  | integer a, integer b => a == b
  | float a, float b => a == b
  | date a, date b => a == b
  | text a, text b => a == b
  | _, _ => false

/-- Whether two lists of values agree value by value. -/
def sameAll : List Value → List Value → Bool
  | [], [] => true
  | a :: as, b :: bs => a.same b && sameAll as bs
  | _, _ => false

end Value

end ObjectQuery.Sql
