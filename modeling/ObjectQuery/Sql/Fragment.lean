import ObjectQuery.Sql.Value

/-!
# Fragments of parameterized SQL

A fragment is a text with the values of its placeholders.  The n-th `?` of the text outside
single-quoted literals belongs to the n-th value, and every way of putting fragments together
keeps it so.

## Main Definitions

* `Fragment` — a text with its values in order
* `Fragment.append`, `Fragment.join`, `Fragment.parenthesized` — the ways to put them together
* `placeholderCount` — the number of placeholders of a text
-/

namespace ObjectQuery.Sql

/-- A text with the values bound to its placeholders, in order. -/
structure Fragment where
  sql : String := ""
  values : List Value := []

namespace Fragment

/-- The fragment without text and values. -/
def empty : Fragment := ⟨"", []⟩

/-- A text without placeholders. -/
def text (sql : String) : Fragment := ⟨sql, []⟩

/-- A single placeholder with its value. -/
def placeholder (value : Value) : Fragment := ⟨"?", [value]⟩

/-- Two fragments one after the other, with their values in the same order. -/
def append (a b : Fragment) : Fragment := ⟨a.sql ++ b.sql, a.values ++ b.values⟩

instance : Append Fragment := ⟨append⟩

/-- A fragment with more text behind it. -/
def push (a : Fragment) (sql : String) : Fragment := ⟨a.sql ++ sql, a.values⟩

/-- Fragments one after the other with a text between neighbours. -/
def join (separator : String) : List Fragment → Fragment
  | [] => empty
  | [part] => part
  | part :: parts => part ++ text separator ++ join separator parts

/-- A fragment between parentheses. -/
def parenthesized (a : Fragment) : Fragment := ⟨"(" ++ a.sql ++ ")", a.values⟩

/-- Whether a fragment has no text. -/
def isEmpty (a : Fragment) : Bool := a.sql.isEmpty

end Fragment

/-- The number of `?` of a text outside single-quoted literals, started inside a literal or
outside. -/
def countPlaceholders : (quoted : Bool) → List Char → Nat
  | _, [] => 0
  | quoted, c :: rest =>
    if c = '\'' then countPlaceholders (!quoted) rest
    else if c = '?' ∧ quoted = false then countPlaceholders quoted rest + 1
    else countPlaceholders quoted rest

/-- The number of placeholders of a text. -/
def placeholderCount (sql : String) : Nat := countPlaceholders false sql.toList

end ObjectQuery.Sql
