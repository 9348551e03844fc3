import ObjectQuery.Document.Tree

/-!
# Plain scalars

The value of a scalar that stands without quotes follows from its text alone.

## Main Definitions

* `isNull`, `boolOf?`, `integerOf?`, `floatOf?` — the texts of each type
* `plainDatum` — the value of a plain scalar

## Design Notes

A whole number is decimal without leading zeros, or has one of the marks `0x`, `0o` and `0b`
behind its sign.  Whole numbers that need more than 128 bits are read as floating-point
numbers, and floating-point numbers that are not finite only in their own spellings; any other
text is a text.
-/

namespace ObjectQuery.Document

open ObjectQuery.Number

/-- Whether a text stands for nothing. -/
def isNull (cs : List Char) : Bool :=
  let text := String.ofList cs
  text == "" || text == "~" || text == "null" || text == "Null" || text == "NULL"

/-- The truth value that a text stands for. -/
def boolOf? (cs : List Char) : Option Bool :=
  let text := String.ofList cs
  if text == "true" || text == "True" || text == "TRUE" then some true
  else if text == "false" || text == "False" || text == "FALSE" then some false
  else none

/-- Whether a text is a decimal number with a leading zero, which makes it a text. -/
def hasLeadingZero (cs : List Char) : Bool :=
  match (takeSign cs).2 with
  | '0' :: rest => !rest.isEmpty && rest.all isDigit
  | _ => false

/-- The unsigned number that a text writes in the base that its mark names. -/
def magnitude? (cs : List Char) : Option Nat :=
  match cs with
  | '0' :: 'x' :: digits => natOfDigits? 16 digits
  | '0' :: 'o' :: digits => natOfDigits? 8 digits
  | '0' :: 'b' :: digits => natOfDigits? 2 digits
  | _ => if hasLeadingZero cs then none else natOfDigits? 10 cs

/-- The whole number that a text writes, within 128 bits. -/
def integerOf? (cs : List Char) : Option Int :=
  let (negative, body) := takeSign cs
  (magnitude? body).bind fun n =>
    if negative then if n ≤ Nat.pow 2 127 then some (-(n : Int)) else none
    else if n < Nat.pow 2 128 then some n
    else none

/-- The floating-point number that a text writes. -/
def floatOf? (cs : List Char) : Option Float :=
  let text := String.ofList cs
  let unsigned := match cs with
    | '+' :: rest => rest
    | _ => cs
  let unsignedText := String.ofList unsigned
  if unsignedText == ".inf" || unsignedText == ".Inf" || unsignedText == ".INF" then
    some (1 / 0)
  else if text == "-.inf" || text == "-.Inf" || text == "-.INF" then some (-(1 / 0))
  else if text == ".nan" || text == ".NaN" || text == ".NAN" then some (0 / 0)
  else match cs, unsigned with
    | '+' :: _, '+' :: _ => none
    | '+' :: _, '-' :: _ => none
    | _, _ => (floatOfText? unsigned).filter Float.isFinite

/-- The value of a plain scalar. -/
def plainDatum (text : String) : Datum :=
  let cs := text.toList
  if isNull cs then .null
  else match boolOf? cs with
    | some b => .bool b
    | none =>
      match integerOf? cs with
      | some n => .integer n
      | none =>
        if hasLeadingZero cs then .text text
        else match floatOf? cs with
          | some x => .float x
          | none => .text text

end ObjectQuery.Document
