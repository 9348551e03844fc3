import ObjectQuery.Document.Tree

/-!
# Shapes of documents

Which parts of a document are read.  The entries of a record that no field names are passed
over, so that nothing is asked of them.

## Main Definitions

* `Shape` — what is read of a part
* `Shape.names`, `Shape.field?` — the fields of a record with their shapes
-/

namespace ObjectQuery.Document

/-- What is read of a part. -/
inductive Shape
  /-- All of it. -/
  | whole
  /-- Of a record, or of every record of a list, the fields that are named. -/
  | fields (known : List (String × Shape))

namespace Shape

/-- A record whose named fields are read as a whole. -/
def ofNames (names : List String) : Shape := .fields (names.map fun name => (name, .whole))

/-- The names of the fields in their order. -/
def names : Shape → List String
  | .whole => []
  | .fields known => known.map (·.1)

/-- The shape of what stands under a key; none if it is passed over.  Only a text can name an
entry that is passed over. -/
def field? (shape : Shape) (name : Option String) : Option Shape :=
  match shape, name with
  | .fields known, some name => known.lookup name
  | _, _ => some .whole

/-- A record has the fields that its shape was made of. -/
@[simp] theorem names_ofNames (names : List String) : (ofNames names).names = names := by
  simp [ofNames, Shape.names, Function.comp_def]

end Shape

end ObjectQuery.Document
