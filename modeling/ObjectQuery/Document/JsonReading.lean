import ObjectQuery.Document.Json

/-!
# Reading JSON

## Main Definitions

* `JsonNumber.toJson?` — the value of a written number
* `Json.ofText?` — the value of a JSON text

## Design Notes

A number without point and exponent is a whole number if it fits a signed or unsigned 64-bit
word, but not minus zero.  Any other number is a floating-point number: its digits are taken
as a 64-bit significand, rounded to a double, and scaled by a power of ten in double
arithmetic.  Numbers too large for a double are refused.
-/

namespace ObjectQuery.Document

open ObjectQuery.Number

/-- A written number: its sign, the digits before and behind the point, and its exponent. -/
structure JsonNumber where
  negative : Bool
  whole : List Char
  fraction : Option (List Char)
  exponent : Option Int

/-- The digits that fit into a 64-bit significand, and the digits left over. -/
def takeSignificand (read : Nat) : List Char → Nat × List Char
  | [] => (read, [])
  | c :: rest =>
    let next := read * 10 + (c.toNat - '0'.toNat)
    if next < Nat.pow 2 64 then takeSignificand next rest else (read, c :: rest)

/-- A significand times a power of ten, in steps of double arithmetic; none if the result is
not finite. -/
def scaled? (significand : Nat) (exponent : Int) : Option Float :=
  let f := Float.ofNat significand
  let power (n : Nat) : Float := Float.ofScientific 1 false n
  match exponent with
  | .ofNat n =>
    if significand = 0 then some f
    else if n ≤ 308 then
      let x := f * power n
      if x.isInf then none else some x
    else none
  | .negSucc n =>
    let places := n + 1
    if places ≤ 308 then some (f / power places)
    else if places ≤ 616 then some (f / power 308 / power (places - 308))
    else some 0

/-- The value of a written number. -/
def JsonNumber.toJson? (n : JsonNumber) : Option Json :=
  let (significand, excess) := takeSignificand 0 n.whole
  match n.fraction, n.exponent, excess with
  | none, none, [] =>
    if n.negative then
      if 0 < significand ∧ significand ≤ Nat.pow 2 63 then some (.integer (-(significand : Int)))
      else some (.float (-(Float.ofNat significand)))
    else some (.integer significand)
  | _, _, _ =>
    let (significand, behind) := takeSignificand significand (n.fraction.getD [])
    let places : Nat := (n.fraction.getD []).length - behind.length
    let exponent : Int := (n.exponent.getD 0) + excess.length - places
    (scaled? significand exponent).map fun x => .float (if n.negative then -x else x)

/-- Whether a character is white space between the parts of a JSON text. -/
def isJsonSpace (c : Char) : Bool := c = ' ' || c = '\n' || c = '\r' || c = '\t'

/-- The text from its first character that is not white space. -/
def skipSpace (cs : List Char) : List Char := cs.dropWhile isJsonSpace

/-- Reads the part of a number behind its digits: a point with digits, and an exponent. -/
def readNumber? (negative : Bool) (cs : List Char) : Option (JsonNumber × List Char) :=
  let whole := cs.takeWhile isDigit
  let rest := cs.dropWhile isDigit
  if whole.isEmpty || (whole.head? == some '0' && 1 < whole.length) then none
  else
    let point : Option (Option (List Char) × List Char) := match rest with
      | '.' :: behind =>
        let digits := behind.takeWhile isDigit
        if digits.isEmpty then none else some (some digits, behind.dropWhile isDigit)
      | _ => some (none, rest)
    point.bind fun (fraction, rest) =>
      match rest with
      | c :: behind =>
        if c = 'e' ∨ c = 'E' then
          let (minus, behind) := takeSign behind
          let digits := behind.takeWhile isDigit
          if digits.isEmpty then none
          else
            let e : Int := natOfDecimal digits
            some (⟨negative, whole, fraction, some (if minus then -e else e)⟩,
              behind.dropWhile isDigit)
        else some (⟨negative, whole, fraction, none⟩, rest)
      | [] => some (⟨negative, whole, fraction, none⟩, [])

/-- The number written by four hexadecimal digits. -/
def readHex4 : List Char → Option (Nat × List Char)
  | a :: b :: c :: d :: rest => (natOfDigits? 16 [a, b, c, d]).map fun n => (n, rest)
  | _ => none

/-- The character of a Unicode escape; two surrogates make one character. -/
def readUnicodeEscape (cs : List Char) : Option (Char × List Char) := do
  let (n, rest) ← readHex4 cs
  if 0xD800 ≤ n ∧ n < 0xDC00 then
    match rest with
    | '\\' :: 'u' :: rest =>
      let (low, rest) ← readHex4 rest
      if 0xDC00 ≤ low ∧ low < 0xE000 then
        some (Char.ofNat (0x10000 + (n - 0xD800) * 0x400 + (low - 0xDC00)), rest)
      else none
    | _ => none
  else if 0xDC00 ≤ n ∧ n < 0xE000 then none
  else some (Char.ofNat n, rest)

/-- Reads a text up to its closing quote; `read` holds the characters so far, the last one
first. -/
def readText : (fuel : Nat) → (read : List Char) → List Char → Option (String × List Char)
  | 0, _, _ => none
  | fuel + 1, read, cs =>
    match cs with
    | [] => none
    | '"' :: rest => some (String.ofList read.reverse, rest)
    | '\\' :: 'u' :: rest =>
      (readUnicodeEscape rest).bind fun (c, rest) => readText fuel (c :: read) rest
    | '\\' :: c :: rest =>
      let escaped : Option Char :=
        if c = '"' ∨ c = '\\' ∨ c = '/' then some c
        else if c = 'n' then some '\n'
        else if c = 'r' then some '\r'
        else if c = 't' then some '\t'
        else if c = 'b' then some (Char.ofNat 8)
        else if c = 'f' then some (Char.ofNat 12)
        else none
      escaped.bind fun c => readText fuel (c :: read) rest
    | c :: rest => if c.toNat < 32 then none else readText fuel (c :: read) rest

/-- The members with one more; a member of the same name gives way. -/
def putMember (members : List Member) (m : Member) : List Member :=
  if members.any fun old => old.name == m.name then
    members.map fun old => if old.name == m.name then m else old
  else members ++ [m]

mutual

/-- Reads a value. -/
def readValue : (fuel : Nat) → List Char → Option (Json × List Char)
  | 0, _ => none
  | fuel + 1, cs =>
    match skipSpace cs with
    | 'n' :: 'u' :: 'l' :: 'l' :: rest => some (.null, rest)
    | 't' :: 'r' :: 'u' :: 'e' :: rest => some (.bool true, rest)
    | 'f' :: 'a' :: 'l' :: 's' :: 'e' :: rest => some (.bool false, rest)
    | '"' :: rest => (readText (rest.length + 1) [] rest).map fun (s, rest) => (.text s, rest)
    | '[' :: rest =>
      match skipSpace rest with
      | ']' :: rest => some (.list [], rest)
      | rest => (readItems fuel [] rest).map fun (items, rest) => (.list items, rest)
    | '\x7b' :: rest =>
      match skipSpace rest with
      | '\x7d' :: rest => some (.record [], rest)
      | rest => (readMembers fuel [] rest).map fun (members, rest) => (.record members, rest)
    | '-' :: rest => do
      let (n, rest) ← readNumber? true rest
      return (← n.toJson?, rest)
    | rest => do
      let (n, rest) ← readNumber? false rest
      return (← n.toJson?, rest)

/-- Reads the items of a list up to its closing bracket. -/
def readItems : (fuel : Nat) → (read : List Json) → List Char → Option (List Json × List Char)
  | 0, _, _ => none
  | fuel + 1, read, cs => do
    let (item, rest) ← readValue fuel cs
    match skipSpace rest with
    | ',' :: rest => readItems fuel (item :: read) rest
    | ']' :: rest => some ((item :: read).reverse, rest)
    | _ => none

/-- Reads the members of a record up to its closing brace. -/
def readMembers :
    (fuel : Nat) → (read : List Member) → List Char → Option (List Member × List Char)
  | 0, _, _ => none
  | fuel + 1, read, cs =>
    match skipSpace cs with
    | '"' :: rest => do
      let (name, rest) ← readText (rest.length + 1) [] rest
      match skipSpace rest with
      | ':' :: rest =>
        let (value, rest) ← readValue fuel rest
        let read := putMember read ⟨name, value⟩
        match skipSpace rest with
        | ',' :: rest => readMembers fuel read rest
        | '\x7d' :: rest => some (read, rest)
        | _ => none
      | _ => none
    | _ => none

end

/-- The value of a JSON text. -/
def Json.ofText? (text : String) : Option Json :=
  let cs := text.toList
  (readValue (2 * cs.length + 2) cs).bind fun (value, rest) =>
    if (skipSpace rest).isEmpty then some value else none

end ObjectQuery.Document
