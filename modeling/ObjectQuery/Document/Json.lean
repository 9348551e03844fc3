import ObjectQuery.Number.Decimal
import ObjectQuery.Text.Blank

/-!
# JSON

## Main Definitions

* `Json` — a JSON value, with whole numbers and floating-point numbers told apart
* `Json.compact` — its text on one line
* `Json.pretty` — its text with one item a line
-/

namespace ObjectQuery.Document

open ObjectQuery.Number

mutual

/-- A JSON value. -/
inductive Json
  | null
  | bool (value : Bool)
  | integer (value : Int)
  | float (value : Float)
  | text (value : String)
  | list (items : List Json)
  | record (members : List Member)

/-- A named value of a record. -/
structure Member where
  name : String
  value : Json

end

instance : Inhabited Json := ⟨.null⟩

/-- A hexadecimal digit in lower case. -/
def hexDigit (n : Nat) : Char := if n < 10 then Char.ofNat (48 + n) else Char.ofNat (87 + n)

/-- A character inside a quoted text: quotes, backslashes and control characters are written
as escapes. -/
def escapeChar (c : Char) : List Char :=
  if c = '"' then ['\\', '"']
  else if c = '\\' then ['\\', '\\']
  else if c = '\n' then ['\\', 'n']
  else if c = '\r' then ['\\', 'r']
  else if c = '\t' then ['\\', 't']
  else if c.toNat = 8 then ['\\', 'b']
  else if c.toNat = 12 then ['\\', 'f']
  else if c.toNat < 32 then
    ['\\', 'u', '0', '0', hexDigit (c.toNat / 16), hexDigit (c.toNat % 16)]
  else [c]

/-- A text between double quotes. -/
def quoted (s : String) : String :=
  "\"" ++ String.ofList (s.toList.flatMap escapeChar) ++ "\""

/-- A floating-point number; null if it is not finite. -/
def floatText (x : Float) : String := (floatJson? x).getD "null"

/-- A line break with two blanks for every level. -/
def lineBreak (level : Nat) : String := String.ofList ('\n' :: List.replicate (2 * level) ' ')

mutual

/-- The text of a value on one line. -/
def Json.compact : Json → String
  | .null => "null"
  | .bool value => if value then "true" else "false"
  | .integer value => toString value
  | .float value => floatText value
  | .text value => quoted value
  | .list items => "[" ++ Text.joinWith "," (Json.compactItems items) ++ "]"
  | .record members => "\x7b" ++ Text.joinWith "," (Json.compactMembers members) ++ "\x7d"

/-- The texts of values. -/
def Json.compactItems : List Json → List String
  | [] => []
  | item :: items => item.compact :: Json.compactItems items

/-- The texts of named values. -/
def Json.compactMembers : List Member → List String
  | [] => []
  | ⟨name, value⟩ :: members => (quoted name ++ ":" ++ value.compact) :: Json.compactMembers members

end

mutual

/-- The text of a value with one item a line, at a level of indentation. -/
def Json.prettyAt (level : Nat) : Json → String
  | .null => "null"
  | .bool value => if value then "true" else "false"
  | .integer value => toString value
  | .float value => floatText value
  | .text value => quoted value
  | .list [] => "[]"
  | .list (item :: items) =>
    "[" ++ lineBreak (level + 1) ++
      Text.joinWith ("," ++ lineBreak (level + 1))
        (item.prettyAt (level + 1) :: Json.prettyItems (level + 1) items) ++
      lineBreak level ++ "]"
  | .record [] => "\x7b\x7d"
  | .record (⟨name, value⟩ :: members) =>
    "\x7b" ++ lineBreak (level + 1) ++
      Text.joinWith ("," ++ lineBreak (level + 1))
        ((quoted name ++ ": " ++ value.prettyAt (level + 1)) ::
          Json.prettyMembers (level + 1) members) ++
      lineBreak level ++ "\x7d"

/-- The texts of values at a level of indentation. -/
def Json.prettyItems (level : Nat) : List Json → List String
  | [] => []
  | item :: items => item.prettyAt level :: Json.prettyItems level items

/-- The texts of named values at a level of indentation. -/
def Json.prettyMembers (level : Nat) : List Member → List String
  | [] => []
  | ⟨name, value⟩ :: members =>
    (quoted name ++ ": " ++ value.prettyAt level) :: Json.prettyMembers level members

end

namespace Json

/-- The text of a value with one item a line. -/
def pretty (j : Json) : String := j.prettyAt 0

/-- The record with the given names and values. -/
def ofPairs (pairs : List (String × Json)) : Json := .record (pairs.map fun (n, v) => ⟨n, v⟩)

/-- The list of texts. -/
def texts (items : List String) : Json := .list (items.map .text)

/-- The value, or null for none. -/
def optional {α : Type} (write : α → Json) : Option α → Json
  | none => .null
  | some a => write a

/-- The member of a record with a name; the last one if there are several. -/
def get? (j : Json) (name : String) : Option Json :=
  match j with
  | .record members => (members.reverse.find? fun m => m.name == name).map (·.value)
  | _ => none

end Json

end ObjectQuery.Document
