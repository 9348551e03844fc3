import ObjectQuery.Number.Digits

/-!
# Decimal numerals of floating-point numbers

A finite double is `significand · 2 ^ exponent`.  Its shortest decimal is the decimal with
the fewest digits among those that read back as the same double, and of these the nearest
one.  All of it is exact arithmetic on natural numbers.

## Main Definitions

* `Binary` — the significand and exponent of a positive finite double
* `Decimal` — a coefficient times a power of ten
* `shortest` — the shortest decimal of a positive double
* `floatOfText?` — the double nearest to a decimal numeral

## Design Notes

The reals that read back as a double form an interval around it, whose ends belong to it
exactly if the significand is even.  A decimal with `n` digits lies on the grid of multiples
of a power of ten; if any point of that grid lies in the interval then so does one of the two
neighbours of the double, so only these two are tried for each `n`.  When both are equally
near, the printers differ: `Tie` says which one is taken.
-/

namespace ObjectQuery.Number

/-- A positive number `significand · 2 ^ exponent`, with whether the gap to the double below
is half of the gap to the double above. -/
structure Binary where
  significand : Nat
  exponent : Int
  narrowBelow : Bool
  deriving DecidableEq, Repr

/-- The number `coefficient · 10 ^ exponent`. -/
structure Decimal where
  coefficient : Nat
  exponent : Int
  deriving DecidableEq, Repr

/-- Which neighbour is taken when both are equally near. -/
inductive Tie
  | up
  | even
  deriving DecidableEq, Repr

/-- A power of a base with a signed exponent as a quotient of naturals. -/
def scale (base : Nat) (exponent : Int) : Nat × Nat :=
  match exponent with
  | .ofNat n => (Nat.pow base n, 1)
  | .negSucc n => (1, Nat.pow base (n + 1))

/-- The number of decimal digits of a natural number, none for zero. -/
def digitCount (n : Nat) : Nat := if n = 0 then 0 else (Nat.toDigits 10 n).length

/-- The exponent of the leading decimal digit of a positive quotient. -/
def leadingExponent (numerator denominator : Nat) : Int :=
  if denominator ≤ numerator then (digitCount (numerator / denominator) : Int) - 1
  else
    let guess : Nat := digitCount denominator - digitCount numerator
    if denominator ≤ numerator * Nat.pow 10 guess then
      if denominator ≤ numerator * Nat.pow 10 (guess - 1) then -((guess - 1 : Nat) : Int)
      else -(guess : Int)
    else -((guess + 1 : Nat) : Int)

/-- The decimals on one grid that read back as the number: the nearer of the two neighbours
that do. -/
def onGrid? (tie : Tie) (b : Binary) (exponent : Int) : Option Decimal :=
  let (twos, halves) := scale 2 (b.exponent - 2)
  let (tens, tenths) := scale 10 exponent
  -- all quantities below are in units of `1 / (halves * tenths)` of a quarter step
  let value := 4 * b.significand * twos * tenths
  let low := (4 * b.significand - (if b.narrowBelow then 1 else 2)) * twos * tenths
  let high := (4 * b.significand + 2) * twos * tenths
  let step := tens * halves
  let floor := value / step
  let inside (c : Nat) : Bool :=
    if b.significand % 2 = 0 then low ≤ c * step && c * step ≤ high
    else low < c * step && c * step < high
  let below := value - floor * step
  let above := (floor + 1) * step - value
  match inside floor, inside (floor + 1) with
  | true, true =>
    if below < above then some ⟨floor, exponent⟩
    else if above < below then some ⟨floor + 1, exponent⟩
    else match tie with
      | .up => some ⟨floor + 1, exponent⟩
      | .even => some ⟨if floor % 2 = 0 then floor else floor + 1, exponent⟩
  | true, false => some ⟨floor, exponent⟩
  | false, true => some ⟨floor + 1, exponent⟩
  | false, false => none

/-- Drops the trailing zeros of a positive coefficient. -/
def Decimal.normalize : (fuel : Nat) → Decimal → Decimal
  | 0, d => d
  | fuel + 1, d =>
    if d.coefficient % 10 = 0 ∧ d.coefficient ≠ 0 then
      Decimal.normalize fuel ⟨d.coefficient / 10, d.exponent + 1⟩
    else d

/-- Tries the grids of `digits`, `digits + 1`, … significant digits. -/
def shortestFrom (tie : Tie) (b : Binary) (leading : Int) : (fuel digits : Nat) → Decimal
  | 0, _ => ⟨0, 0⟩
  | fuel + 1, digits =>
    match onGrid? tie b (leading - digits + 1) with
    | some d => d
    | none => shortestFrom tie b leading fuel (digits + 1)

/-- The shortest decimal that reads back as the number; seventeen digits always suffice. -/
def shortest (tie : Tie) (b : Binary) : Decimal :=
  let (twos, halves) := scale 2 b.exponent
  let leading := leadingExponent (b.significand * twos) halves
  (shortestFrom tie b leading 17 1).normalize 20

/-- What a double is. -/
inductive FloatClass
  | nan
  | infinite (negative : Bool)
  | zero (negative : Bool)
  | finite (negative : Bool) (magnitude : Binary)
  deriving DecidableEq, Repr

/-- Decodes the bits of a double. -/
def classify (x : Float) : FloatClass :=
  let bits : Nat := x.toBits.toNat
  let negative : Bool := bits / Nat.pow 2 63 == 1
  let biased : Nat := bits / Nat.pow 2 52 % 2048
  let fraction : Nat := bits % Nat.pow 2 52
  if biased = 2047 then
    if fraction = 0 then .infinite negative else .nan
  else if biased = 0 then
    if fraction = 0 then .zero negative
    else .finite negative ⟨fraction, -1074, false⟩
  else
    .finite negative ⟨Nat.pow 2 52 + fraction, (biased : Int) - 1075, fraction = 0 && biased != 1⟩

/-- The decimal digits of a coefficient. -/
def Decimal.digits (d : Decimal) : List Char := Nat.toDigits 10 d.coefficient

/-- The exponent of the leading digit. -/
def Decimal.leading (d : Decimal) : Int := (d.digits.length : Int) - 1 + d.exponent

/-- A text of zeros. -/
def zeros (n : Nat) : List Char := List.replicate n '0'

/-- The digits of a decimal written out in full, with a point only before a fraction. -/
def Decimal.positional (d : Decimal) : List Char :=
  let digits := d.digits
  match d.exponent with
  | .ofNat n => digits ++ zeros n
  | .negSucc n =>
    let places := n + 1
    if places < digits.length then
      digits.take (digits.length - places) ++ '.' :: digits.drop (digits.length - places)
    else '0' :: '.' :: zeros (places - digits.length) ++ digits

/-- The digits of a decimal with a point behind the first of several and a signed exponent. -/
def Decimal.scientific (d : Decimal) : List Char :=
  let mantissa := match d.digits with
    | first :: second :: rest => first :: '.' :: second :: rest
    | digits => digits
  let exponent := match d.leading with
    | .ofNat n => '+' :: Nat.toDigits 10 n
    | .negSucc n => '-' :: Nat.toDigits 10 (n + 1)
  mantissa ++ 'e' :: exponent

/-- The text of a double for display: never an exponent, no point for a whole number. -/
def floatDisplay (x : Float) : String :=
  match classify x with
  | .nan => "NaN"
  | .infinite negative => if negative then "-inf" else "inf"
  | .zero negative => if negative then "-0" else "0"
  | .finite negative b =>
    String.ofList ((if negative then ['-'] else []) ++ (shortest .up b).positional)

/-- The text of a finite double as a JSON number: positional when the exponent of the leading
digit is between -5 and 15, with a fraction always shown; none for the others. -/
def floatJson? (x : Float) : Option String :=
  match classify x with
  | .nan | .infinite _ => none
  | .zero negative => some (if negative then "-0.0" else "0.0")
  | .finite negative b =>
    let d := shortest .even b
    let body :=
      if -5 ≤ d.leading ∧ d.leading ≤ 15 then
        if 0 ≤ d.exponent then d.positional ++ ['.', '0'] else d.positional
      else d.scientific
    some (String.ofList ((if negative then ['-'] else []) ++ body))

/-! ### Reading -/

/-- A decimal numeral taken apart: its digits without the point, the number of digits behind
the point, and the exponent. -/
structure Numeral where
  digits : List Char
  places : Nat
  exponent : Int
  deriving DecidableEq, Repr

/-- Reads an unsigned numeral: digits with an optional point, at least one digit, and an
optional exponent; nothing may follow. -/
def Numeral.ofChars? (cs : List Char) : Option Numeral :=
  let whole := cs.takeWhile isDigit
  let rest := cs.dropWhile isDigit
  let (fraction, rest) := match rest with
    | '.' :: behind => (behind.takeWhile isDigit, behind.dropWhile isDigit)
    | _ => ([], rest)
  if whole.isEmpty && fraction.isEmpty then none
  else match rest with
    | [] => some ⟨whole ++ fraction, fraction.length, 0⟩
    | c :: behind =>
      if c = 'e' ∨ c = 'E' then
        let (negative, digits) := takeSign behind
        if digits.isEmpty || !digits.all isDigit then none
        else
          let n := natOfDecimal digits
          some ⟨whole ++ fraction, fraction.length, if negative then -(n : Int) else n⟩
      else none

/-- The double nearest to `coefficient · 10 ^ exponent`, a tie going to the even neighbour.
Coefficients with a leading exponent outside the range of doubles need no arithmetic. -/
def nearestFloat (coefficient : Nat) (exponent : Int) : Float :=
  if coefficient = 0 then 0
  else
    let leading := (digitCount coefficient : Int) + exponent
    if leading < -400 then 0
    else if 400 < leading then 1 / 0
    else match exponent with
      | .ofNat n => Float.ofScientific coefficient false n
      | .negSucc n => Float.ofScientific coefficient true (n + 1)

/-- The double that a numeral writes. -/
def Numeral.toFloat (n : Numeral) : Float :=
  nearestFloat (natOfDecimal n.digits) (n.exponent - n.places)

/-- A text in lower case, for the letters of ASCII. -/
def lower (cs : List Char) : List Char := cs.map Char.toLower

/-- The double nearest to a text: a sign, then a numeral or one of the words for infinity and
not-a-number in any case. -/
def floatOfText? (cs : List Char) : Option Float :=
  let (negative, body) := takeSign cs
  let magnitude : Option Float :=
    if lower body = ['i', 'n', 'f'] ∨ lower body = ['i', 'n', 'f', 'i', 'n', 'i', 't', 'y'] then
      some (1 / 0)
    else if lower body = ['n', 'a', 'n'] then some (0 / 0)
    else (Numeral.ofChars? body).map Numeral.toFloat
  magnitude.map fun x => if negative then -x else x

end ObjectQuery.Number
