/-!
# Runs of digits

Reading of unsigned whole numbers in a base, and of signed machine integers with the reason
why a text is not one.

## Main Definitions

* `digitValue?` — the value of a digit character in a base
* `natOfDigits?` — the number that a non-empty text of digits writes
* `takeDigits` — the longest run of decimal digits a text starts with
* `IntegerError`, `readInt32` — reading of a 32-bit integer, with the cause of a failure
-/

namespace ObjectQuery.Number

/-- The value of a digit character in a base up to sixteen; letters count in both cases. -/
def digitValue? (base : Nat) (c : Char) : Option Nat :=
  let value :=
    if '0' ≤ c ∧ c ≤ '9' then some (c.toNat - '0'.toNat)
    else if 'a' ≤ c ∧ c ≤ 'f' then some (c.toNat - 'a'.toNat + 10)
    else if 'A' ≤ c ∧ c ≤ 'F' then some (c.toNat - 'A'.toNat + 10)
    else none
  value.filter (· < base)

/-- Whether a character is one of the ten decimal digits. -/
def isDigit (c : Char) : Bool := '0' ≤ c && c ≤ '9'

/-- The value of a run of digits behind an already read number. -/
def natOfDigitsFrom? (base : Nat) (read : Nat) : List Char → Option Nat
  | [] => some read
  | c :: rest => (digitValue? base c).bind fun d => natOfDigitsFrom? base (read * base + d) rest

/-- The number that a text writes in a base; none if the text is empty or holds another
character. -/
def natOfDigits? (base : Nat) (cs : List Char) : Option Nat :=
  if cs.isEmpty then none else natOfDigitsFrom? base 0 cs

/-- The longest run of at most `limit` decimal digits at the start of a text, and the rest. -/
def takeDigits : (limit : Nat) → List Char → List Char × List Char
  | 0, cs => ([], cs)
  | _, [] => ([], [])
  | limit + 1, c :: rest =>
    if isDigit c then
      let (run, rest) := takeDigits limit rest
      (c :: run, rest)
    else ([], c :: rest)

/-- The number written by a run of decimal digits; other characters count as zero. -/
def natOfDecimal (cs : List Char) : Nat :=
  cs.foldl (fun n c => n * 10 + (c.toNat - '0'.toNat)) 0

/-- Whether a text starts with a minus sign, and the text behind its sign. -/
def takeSign : List Char → Bool × List Char
  | '-' :: rest => (true, rest)
  | '+' :: rest => (false, rest)
  | cs => (false, cs)

/-- Why a text is not a machine integer. -/
inductive IntegerError
  | empty
  | invalidDigit
  | tooLarge
  | tooSmall
  deriving DecidableEq, Repr

/-- The wording of each cause. -/
def IntegerError.message : IntegerError → String
  | .empty => "cannot parse integer from empty string"
  | .invalidDigit => "invalid digit found in string"
  | .tooLarge => "number too large to fit in target type"
  | .tooSmall => "number too small to fit in target type"

/-- Reads digits up to a largest magnitude; the first character that is wrong, or at which
the magnitude passes the largest one, decides the error. -/
def readMagnitude (largest : Nat) (beyond : IntegerError) (read : Nat) :
    List Char → Except IntegerError Nat
  | [] => .ok read
  | c :: rest =>
    if isDigit c then
      let next := read * 10 + (c.toNat - '0'.toNat)
      if next ≤ largest then readMagnitude largest beyond next rest else .error beyond
    else .error .invalidDigit

/-- Reads a 32-bit integer: an optional sign and at least one decimal digit. -/
def readInt32 (text : String) : Except IntegerError Int32 :=
  match text.toList with
  | [] => .error .empty
  | ['+'] | ['-'] => .error .invalidDigit
  | cs =>
    match takeSign cs with
    | (true, digits) =>
      (readMagnitude 2147483648 .tooSmall 0 digits).map fun n => Int32.ofInt (-(n : Int))
    | (false, digits) =>
      (readMagnitude 2147483647 .tooLarge 0 digits).map fun n => Int32.ofInt n

/-- The 64-bit integer with a given value, if there is one. -/
def int64OfInt? (n : Int) : Option Int64 :=
  if -9223372036854775808 ≤ n ∧ n ≤ 9223372036854775807 then some (Int64.ofInt n) else none

/-- The 32-bit integer with a given value, if there is one. -/
def int32OfInt? (n : Int) : Option Int32 :=
  if -2147483648 ≤ n ∧ n ≤ 2147483647 then some (Int32.ofInt n) else none

end ObjectQuery.Number
