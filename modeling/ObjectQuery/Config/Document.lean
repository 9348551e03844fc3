import ObjectQuery.Config.Basic
import ObjectQuery.Document.Reading
import ObjectQuery.Yaml.Reading

/-!
# Configurations as documents

## Main Definitions

* `linkColumnsShape`, `linkTableShape`, `shape` — the fields of a configuration
* `Config.ofDocument?` — a configuration from a document, not validated
* `Config.ofText` — a valid configuration from a YAML text
* `Config.toJson` — a configuration with all its settings
-/

namespace ObjectQuery.Config

open ObjectQuery.Document ObjectQuery.Query

/-! ### Fields -/

/-- The fields of the columns of the link table. -/
def linkColumnsShape : Shape :=
  .ofNames ["link_type_id", "obj_id_1", "obj_id_2", "status", "dt_insert", "dt_delete"]

/-- The fields of the link table. -/
def linkTableShape : Shape :=
  .fields [("schema", .whole), ("table", .whole), ("columns", linkColumnsShape)]

/-- The fields of a configuration. -/
def shape : Shape :=
  .fields [("max_date", .whole), ("keywords", .whole), ("link_table", linkTableShape),
    ("link_statuses", .whole), ("geometry_srid", .whole)]

/-! ### Reading -/

/-- The columns of the link table by field. -/
def readLinkColumns (style : Style) (d : Document) : Option LinkColumns := do
  let fields ← d.fields? style linkColumnsShape.names
  let default : LinkColumns := {}
  let linkType ← fields.withDefault? "link_type_id" default.linkType (text? style)
  let object1 ← fields.withDefault? "obj_id_1" default.object1 (text? style)
  let object2 ← fields.withDefault? "obj_id_2" default.object2 (text? style)
  let status ← fields.withDefault? "status" default.status (text? style)
  let validFrom ← fields.withDefault? "dt_insert" default.validFrom (text? style)
  let validTo ← fields.withDefault? "dt_delete" default.validTo (text? style)
  return ⟨linkType, object1, object2, status, validFrom, validTo⟩

/-- The link table. -/
def readLinkTable (style : Style) (d : Document) : Option LinkTable := do
  let fields ← d.fields? style linkTableShape.names
  let schema ← fields.required? "schema" (text? style)
  let table ← fields.required? "table" (text? style)
  let columns ← fields.withDefault? "columns" {} (readLinkColumns style)
  return ⟨schema, table, columns⟩

/-- Puts a word under a key; an earlier word under the key gives way. -/
def putWord (words : List (String × String)) (key word : String) : List (String × String) :=
  words.filter (fun e => e.1 != key) ++ [(key, word)]

/-- Words by key; of several under one key the last counts. -/
def readWords (style : Style) (d : Document) : Option (List (String × String)) :=
  let entries? : Option (List Entry) := match style, d with
    | .direct, _ =>
      match d.untagged with
      | .record entries => some entries
      | _ => if d.isBlank .direct then some [] else none
    | _, .record entries => some entries
    | _, _ => none
  entries?.bind fun entries =>
    entries.foldlM (fun words e => do
      let key ← e.key.text? style
      let word ← e.value.text? style
      return putWord words key word) []

/-- A configuration; settings that are left out have their defaults. -/
def ofDocument? (style : Style) (d : Document) : Option Config := do
  let fields ← d.fields? style shape.names
  let default : Config := {}
  let maxDate ← fields.withDefault? "max_date" default.maxDate (text? style)
  let keywords ← fields.withDefault? "keywords" [] (readWords style)
  let linkTable ← fields.optional? "link_table" style (readLinkTable style)
  let statuses ← fields.withDefault? "link_statuses" [] (texts? style)
  let srid ← fields.optional? "geometry_srid" style (int32? style)
  return { maxDate, keywords, linkTable, statuses, srid }

/-- The valid configuration that a YAML text writes. -/
def ofText (text : String) : Except ConfigError Config :=
  match (Yaml.ofText? shape text).bind (ofDocument? .direct) with
  | some c => c.validate
  | none => .error .malformed

/-! ### Writing -/

/-- The columns of the link table by field. -/
def writeLinkColumns (c : LinkColumns) : Json :=
  .ofPairs [("link_type_id", .text c.linkType), ("obj_id_1", .text c.object1),
    ("obj_id_2", .text c.object2), ("status", .text c.status), ("dt_insert", .text c.validFrom),
    ("dt_delete", .text c.validTo)]

/-- The link table. -/
def writeLinkTable (t : LinkTable) : Json :=
  .ofPairs [("schema", .text t.schema), ("table", .text t.table),
    ("columns", writeLinkColumns t.columns)]

/-- A configuration with all its settings. -/
def toJson (c : Config) : Json :=
  .ofPairs [("max_date", .text c.maxDate),
    ("keywords", .ofPairs (c.keywords.map fun (key, word) => (key, Json.text word))),
    ("link_table", .optional writeLinkTable c.linkTable),
    ("link_statuses", .texts c.statuses),
    ("geometry_srid", .optional (fun id => .integer id.toInt) c.srid)]

end ObjectQuery.Config
