import ObjectQuery.Catalog.Registry
import ObjectQuery.Document.Reading
import ObjectQuery.Yaml.Reading

/-!
# Catalogs as documents

## Main Definitions

* `fieldShape`, `tableShape`, `linkTypeShape`, `registryShape` — the fields of a catalog
* `readTable`, `readLinkType` — descriptors from documents
* `Registry.ofDocument`, `Registry.ofText` — a registry from a document or a YAML text
* `Table.toJson`, `LinkType.toJson` — descriptors as JSON
-/

namespace ObjectQuery.Catalog

open ObjectQuery.Document

/-! ### Fields -/

/-- The fields of a column. -/
def fieldShape : Shape := .ofNames ["name", "type"]

/-- The fields of a table. -/
def tableShape : Shape :=
  .fields [("object_type_id", .whole), ("name", .whole), ("schema", .whole),
    ("table_name", .whole), ("repo_table", .whole), ("row_id_column", .whole),
    ("repo_fields", fieldShape), ("type_fields", fieldShape)]

/-- The fields of a link type. -/
def linkTypeShape : Shape := .ofNames ["id", "name", "type_a", "type_b"]

/-- The fields of a registry. -/
def registryShape : Shape := .fields [("tables", tableShape), ("link_types", linkTypeShape)]

/-! ### Reading -/

/-- Reads a column. -/
def readField (style : Style) (d : Document) : Option Field := do
  let fields ← d.fields? style fieldShape.names
  let name ← fields.required? "name" (text? style)
  let type ← fields.withDefault? "type" .text
    (choice? style (FieldType.all.map fun t => (t.name, t)))
  return ⟨name, type⟩

/-- Reads a table. -/
def readTable (style : Style) (d : Document) : Option Table := do
  let fields ← d.fields? style tableShape.names
  let objectType ← fields.required? "object_type_id" (int64? style)
  let name ← fields.required? "name" (text? style)
  let schema ← fields.required? "schema" (text? style)
  let tableName ← fields.required? "table_name" (text? style)
  let repository ← fields.withDefault? "repo_table" "repository" (text? style)
  let rowColumn ← fields.withDefault? "row_id_column" rowKey (text? style)
  let repositoryFields ← fields.withDefault? "repo_fields" systemFields
    (list? style (readField style))
  let typeFields ← fields.withDefault? "type_fields" [] (list? style (readField style))
  return ⟨objectType, name, schema, tableName, repository, rowColumn, repositoryFields,
    typeFields⟩

/-- Reads a link type. -/
def readLinkType (style : Style) (d : Document) : Option LinkType := do
  let fields ← d.fields? style linkTypeShape.names
  let id ← fields.required? "id" (int64? style)
  let name ← fields.required? "name" (text? style)
  let typeA ← fields.required? "type_a" (int64? style)
  let typeB ← fields.required? "type_b" (int64? style)
  return ⟨id, name, typeA, typeB⟩

/-- Reads the entries of a registry. -/
def readEntries (style : Style) (d : Document) : Option (List Table × List LinkType) := do
  let fields ← d.fields? style registryShape.names
  let tables ← fields.withDefault? "tables" [] (list? style (readTable style))
  let linkTypes ← fields.withDefault? "link_types" [] (list? style (readLinkType style))
  return (tables, linkTypes)

/-- The registry that a document describes. -/
def Registry.ofDocument (style : Style) (d : Document) : Except CatalogError Registry :=
  match readEntries style d with
  | some (tables, linkTypes) => Registry.ofEntries tables linkTypes
  | none => .error .malformed

/-- The registry that a YAML text describes. -/
def Registry.ofText (text : String) : Except CatalogError Registry :=
  match Yaml.ofText? registryShape text with
  | some d => Registry.ofDocument .direct d
  | none => .error .malformed

/-! ### Writing -/

/-- A column as JSON. -/
def Field.toJson (f : Field) : Json :=
  .ofPairs [("name", .text f.name), ("type", .text f.type.name)]

/-- A table as JSON. -/
def Table.toJson (t : Table) : Json :=
  .ofPairs [("object_type_id", .integer t.objectType.toInt), ("name", .text t.name),
    ("schema", .text t.schema), ("table_name", .text t.tableName),
    ("repo_table", .text t.repository), ("row_id_column", .text t.rowColumn),
    ("repo_fields", .list (t.repositoryFields.map Field.toJson)),
    ("type_fields", .list (t.typeFields.map Field.toJson))]

/-- A link type as JSON. -/
def LinkType.toJson (l : LinkType) : Json :=
  .ofPairs [("id", .integer l.id.toInt), ("name", .text l.name),
    ("type_a", .integer l.typeA.toInt), ("type_b", .integer l.typeB.toInt)]

end ObjectQuery.Catalog
