import ObjectQuery.Document.Json

/-!
# Documents

A document is a tree of scalars, lists and records, as a configuration or definition is
written down.  Scalars have a value of their own and, in a format that leaves types to the
reader, also the text that was written.

## Main Definitions

* `Datum`, `Written`, `Document` — scalars and trees
* `Style` — how a part of a document is read
* `depth` — the number of levels of a document
* `settles` — whether every scalar of a document has a value of its own
* `Json.toDocument` — a JSON value as a document

## Design Notes

A part that is read *directly* knows the type it is read as before its scalars are given
values: a text field takes any scalar as it was written, and an empty scalar stands for an
empty list or record.  A part that is read as it was *given* comes from a format whose values
have types of their own: only a text is a text, and a list of values in field order stands for a
record.  A part that is read *settled* was given values first and is read from a copy: in it the
place of a name may stand for the name.  Criteria and links are settled because their kind
decides the fields they have.
-/

namespace ObjectQuery.Document

/-- The value of a scalar. -/
inductive Datum
  | null
  | bool (value : Bool)
  | integer (value : Int)
  | float (value : Float)
  | text (value : String)

/-- The ways to write a scalar. -/
inductive Form
  /-- Without quotes. -/
  | plain
  /-- As a block that keeps its line breaks. -/
  | literal
  /-- Between quotes or as a folded block. -/
  | other
  deriving DecidableEq, Repr

/-- What the tag in front of a scalar names. -/
inductive TypeTag
  | null
  | bool
  | integer
  | float
  | other
  deriving DecidableEq, Repr

/-- A scalar as it was written. -/
structure Written where
  text : String
  form : Form
  tag : Option TypeTag

end ObjectQuery.Document

namespace ObjectQuery

open Document (Datum Written)

mutual

/-- A tree of scalars, lists and records. -/
inductive Document
  /-- A scalar with its value; none if it has no value without a type. -/
  | scalar (value : Option Datum) (written : Option Written)
  | list (items : List Document)
  | record (entries : List Document.Entry)
  /-- A part under a tag of the document's own. -/
  | tagged (tag : String) (content : Document)

/-- A key with its value. -/
structure Document.Entry where
  key : Document
  value : Document

end

end ObjectQuery

namespace ObjectQuery.Document

/-- A part that was passed over; nothing can be read from it. -/
def unread : Document := .scalar none none

/-- How a part of a document is read. -/
inductive Style
  | direct
  | given
  | settled
  deriving DecidableEq, Repr

mutual

/-- The number of levels of a document. -/
def depth : Document → Nat
  | .scalar _ _ => 1
  | .list items => depthItems items + 1
  | .record entries => depthEntries entries + 1
  | .tagged _ content => content.depth + 1

/-- The greatest number of levels of a list of documents. -/
def depthItems : List Document → Nat
  | [] => 0
  | item :: items => max item.depth (depthItems items)

/-- The greatest number of levels of a list of entries. -/
def depthEntries : List Entry → Nat
  | [] => 0
  | ⟨key, value⟩ :: entries => max (max key.depth value.depth) (depthEntries entries)

end

theorem one_le_depth (d : Document) : 1 ≤ d.depth := by
  cases d <;> simp [depth]

mutual

/-- Whether a part can be settled: every scalar has a value, whole numbers fit a 64-bit word,
and nothing is tagged. -/
def settles : Document → Bool
  | .scalar none _ => false
  | .scalar (some (.integer n)) _ => -9223372036854775808 ≤ n && n < 18446744073709551616
  | .scalar (some _) _ => true
  | .list items => settlesItems items
  | .record entries => settlesEntries entries
  | .tagged _ _ => false

/-- Whether all documents of a list can be settled. -/
def settlesItems : List Document → Bool
  | [] => true
  | item :: items => item.settles && settlesItems items

/-- Whether all keys and values of a list of entries can be settled. -/
def settlesEntries : List Entry → Bool
  | [] => true
  | ⟨key, value⟩ :: entries => key.settles && value.settles && settlesEntries entries

end

mutual

/-- A JSON value as a document. -/
def Json.toDocument : Json → Document
  | .null => .scalar (some .null) none
  | .bool value => .scalar (some (.bool value)) none
  | .integer value => .scalar (some (.integer value)) none
  | .float value => .scalar (some (.float value)) none
  | .text value => .scalar (some (.text value)) none
  | .list items => .list (Json.toDocuments items)
  | .record members => .record (Json.toEntries members)

/-- JSON values as documents. -/
def Json.toDocuments : List Json → List Document
  | [] => []
  | item :: items => item.toDocument :: Json.toDocuments items

/-- Named JSON values as entries. -/
def Json.toEntries : List Member → List Entry
  | [] => []
  | ⟨name, value⟩ :: members =>
    ⟨.scalar (some (.text name)) none, value.toDocument⟩ :: Json.toEntries members

end

end ObjectQuery.Document
