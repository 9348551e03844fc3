import ObjectQuery.Definition.Names
import ObjectQuery.Document.Reading
import ObjectQuery.Yaml.Reading

/-!
# Reading definitions

## Main Definitions

* `readLink`, `readNode`, `readCriterion` — the parts of a definition
* `QueryDefinition.ofDocument?`, `QueryDefinition.ofText?` — a definition from a document or a
  YAML text

## Design Notes

Nodes and criteria nest in each other, so their readers count down the levels of the document;
the depth of the document is always enough.
-/

namespace ObjectQuery.Definition

open ObjectQuery.Sql ObjectQuery.Query ObjectQuery.Document

/-- Reads a field to order by. -/
def readSortField (style : Style) (d : Document) : Option SortField := do
  let fields ← d.fields? style sortFieldShape.names
  let field ← fields.required? "field" (text? style)
  let descending ← fields.withDefault? "descending" false (bool? style)
  return ⟨field, descending⟩

/-- Reads a sub-query. -/
def readSubQuery (style : Style) (d : Document) : Option SubQuery := do
  let fields ← d.fields? style subQueryShape.names
  let sql ← fields.required? "sql" (text? style)
  let columns ← fields.required? "fields" (texts? style)
  let values ← fields.withDefault? "params" [] (list? style value?)
  return ⟨sql, columns, values⟩

/-- Reads a box. -/
def readBox (d : Document) : Option BoundingBox := do
  let fields ← d.fields? .settled ["min_x", "min_y", "max_x", "max_y"]
  let minX ← fields.required? "min_x" (float? .settled)
  let minY ← fields.required? "min_y" (float? .settled)
  let maxX ← fields.required? "max_x" (float? .settled)
  let maxY ← fields.required? "max_y" (float? .settled)
  return ⟨minX, minY, maxX, maxY⟩

/-- Reads a link through the link table from its settled fields. -/
def readLinkRow (near : LinkEnd) (content : Document) : Option LinkDefinition := do
  let fields ← content.fields? .settled ["link_type", "link_type_id"]
  let name ← fields.optional? "link_type" .settled (text? .settled)
  let id ← fields.optional? "link_type_id" .settled (int64? .settled)
  return .linkRow near name id

/-- Reads a link. -/
def readLink (style : Style) (d : Document) : Option LinkDefinition := do
  let (kind, content) ← d.variant? style linkKinds
  let one (name : String) : Option String := do
    let fields ← content.fields? .settled [name]
    fields.required? name (text? .settled)
  match kind with
  | "child" => if content.holdsNothing then some .child else none
  | "parent" => if content.holdsNothing then some .parent else none
  | "custom" =>
    let fields ← content.fields? .settled ["left", "right"]
    let left ← fields.required? "left" (texts? .settled)
    let right ← fields.required? "right" (texts? .settled)
    return .custom left right
  | "free_text" => (one "sql").map .freeText
  | "db_link" => readLinkRow .first content
  | "db_link_reverse" => readLinkRow .second content
  | "denormalized" => (one "field").map .denormalized
  | "denormalized_reverse" => (one "field").map .denormalizedReverse
  | "denormalized_full" =>
    let fields ← content.fields? .settled ["left_field", "right_field"]
    let left ← fields.required? "left_field" (text? .settled)
    let right ← fields.required? "right_field" (text? .settled)
    return .denormalizedFull left right
  | _ => none

/-- Reads a link filter from its settled fields. -/
def readLinked (near : LinkEnd) (content : Document) : Option ConditionDefinition := do
  let fields ← content.fields? .settled ["link_type_id", "related_ids"]
  let linkType ← fields.required? "link_type_id" (int64? .settled)
  let related ← fields.withDefault? "related_ids" [] (list? .settled (int64? .settled))
  return .linked near linkType related

/-- Reads a condition that holds no other one from its kind and settled fields. -/
def readLeaf (kind : String) (content : Document) : Option ConditionDefinition := do
  let pick (names : List String) : Option Fields := content.fields? .settled names
  match kind with
  | "compare" =>
    let fields ← pick ["field", "op", "value", "other_field"]
    let field ← fields.required? "field" (text? .settled)
    let comparison ← fields.required? "op" (choice? .settled comparisons)
    let value ← fields.optional? "value" .settled value?
    let other ← fields.optional? "other_field" .settled (text? .settled)
    return .compare field comparison value other
  | "is_null" =>
    let fields ← pick ["field"]
    let field ← fields.required? "field" (text? .settled)
    return .isNull field
  | "between" =>
    let fields ← pick ["field", "low", "high"]
    let field ← fields.required? "field" (text? .settled)
    let low ← fields.required? "low" value?
    let high ← fields.required? "high" value?
    return .between field low high
  | "value_between" =>
    let fields ← pick ["value", "low_field", "high_field"]
    let value ← fields.required? "value" value?
    let low ← fields.required? "low_field" (text? .settled)
    let high ← fields.required? "high_field" (text? .settled)
    return .valueBetween value low high
  | "bbox" =>
    let fields ← pick ["field", "bbox"]
    let field ← fields.required? "field" (text? .settled)
    let box ← fields.required? "bbox" readBox
    return .touches field box
  | "in_list" =>
    let fields ← pick ["field", "values"]
    let field ← fields.required? "field" (text? .settled)
    let values ← fields.required? "values" (list? .settled value?)
    return .inList field values
  | "db_link" => readLinked .first content
  | "db_link_reverse" => readLinked .second content
  | "free_text" =>
    let fields ← pick ["sql", "params"]
    let sql ← fields.required? "sql" (text? .settled)
    let values ← fields.withDefault? "params" [] (list? .settled value?)
    return .freeText sql values
  | _ => none

/-- The entries of a criterion: those of its own fields by name, and those of its condition,
which are settled. -/
def criterionEntries (style : Style) (d : Document) : Option (List Entry × List Entry) :=
  match style with
  | .direct =>
    match d.untagged with
    | .record entries =>
      (entries.mapM named?).bind fun named =>
        let (own, rest) := splitEntries isOwn named
        if settlesEntries rest then some (own, rest) else none
    | _ => none
  | .given | .settled =>
    match d with
    | .record entries => some (splitEntries isOwn entries)
    | _ => none
where
  /-- An entry under the text of its key. -/
  named? (e : Entry) : Option Entry :=
    (e.key.text? .direct).map fun name => ⟨.scalar (some (.text name)) none, e.value⟩
  /-- Whether a key names a field of every criterion. -/
  isOwn (key : Document) : Bool :=
    key.text? .settled == some "not" || key.text? .settled == some "connector"

mutual

/-- Reads a node. -/
def readNode : (levels : Nat) → (style : Style) → Document → Option NodeDefinition
  | 0, _, _ => none
  | levels + 1, style, d => do
    let fields ← d.fields? style nodeFields
    let table ← fields.optional? "table" style (text? style)
    let objectType ← fields.optional? "object_type_id" style (int64? style)
    let subQuery ← fields.optional? "sub_query" style (readSubQuery style)
    let aliasName ← fields.optional? "alias" style (text? style)
    let join ← fields.withDefault? "join" .inner (choice? style joins)
    let link ← fields.optional? "link" style (readLink style)
    let criteria ← fields.withDefault? "where" [] (list? style (readCriterion levels style))
    let connective ← fields.withDefault? "connector" .and (choice? style connectives)
    let referenceDate ← fields.optional? "reference_date" style (text? style)
    let linkReferenceDate ← fields.optional? "link_reference_date" style (text? style)
    let history ← fields.withDefault? "history" false (bool? style)
    let sort ← fields.withDefault? "order_by" [] (list? style (readSortField style))
    let returned ← fields.withDefault? "return" false (bool? style)
    let showsLinkColumns ← fields.withDefault? "link_columns" false (bool? style)
    let own ← fields.optional? "fields" style (texts? style)
    let children ← fields.withDefault? "children" [] (list? style (readNode levels style))
    return {
      table, objectType, subQuery, aliasName, join, link, connective, referenceDate,
      linkReferenceDate, history, sort, returned, showsLinkColumns, fields := own, criteria,
      children }

/-- Reads a criterion. -/
def readCriterion : (levels : Nat) → (style : Style) → Document → Option CriterionDefinition
  | 0, _, _ => none
  | levels + 1, style, d => do
    let (own, rest) ← criterionEntries style d
    let fields ← pickFields? .settled ["not", "connector"] own
    let negated ← fields.withDefault? "not" false (bool? style)
    let connective ← fields.withDefault? "connector" .and (choice? style connectives)
    let (kind, content) ← (Document.record rest).variant? .settled conditionKinds
    let condition ← readCondition levels kind content
    return ⟨condition, negated, connective⟩

/-- Reads a condition from its kind and settled fields. -/
def readCondition :
    (levels : Nat) → (kind : String) → Document → Option ConditionDefinition
  | 0, _, _ => none
  | levels + 1, kind, content =>
    let members : Option (List CriterionDefinition) := do
      let fields ← content.fields? .settled ["members"]
      fields.required? "members" (list? .settled (readCriterion levels .settled))
    match kind with
    | "in_subquery" => do
      let fields ← content.fields? .settled ["field", "query"]
      let field ← fields.required? "field" (text? .settled)
      let query ← fields.required? "query" (readNode levels .settled)
      return .inSubquery field query
    | "all" => members.map .all
    | "any" => members.map .any
    | "group" => members.map .group
    | _ => readLeaf kind content

end

/-- The number of levels that reading a document may need. -/
def levelsFor (d : Document) : Nat := 2 * d.depth + 2

/-- Reads a query definition. -/
def QueryDefinition.ofDocument? (style : Style) (d : Document) : Option QueryDefinition := do
  let fields ← d.fields? style (definitionShape 0).names
  let read := readNode (levelsFor d) style
  let nodes ← fields.withDefault? "nodes" [] (list? style read)
  let root ← fields.optional? "root" style read
  let returnType ← fields.optional? "return_type" style (text? style)
  return ⟨nodes, root, returnType⟩

/-- The query definition that a YAML text writes. -/
def QueryDefinition.ofText? (text : String) : Option QueryDefinition :=
  (Yaml.ofText? (definitionShape Yaml.nestingLimit) text).bind
    (QueryDefinition.ofDocument? .direct)

end ObjectQuery.Definition
