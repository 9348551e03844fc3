import ObjectQuery.Definition.Names
import ObjectQuery.Document.Json

/-!
# Writing definitions

## Main Definitions

* `Value.toJson` — a bind value
* `NodeDefinition.toJson`, `CriterionDefinition.toJson` — the nested parts
* `ConditionDefinition.kind`, `ConditionDefinition.content` — the fields of a condition, apart
  from its criterion
* `QueryDefinition.toJson` — a definition with all fields of its nodes
-/

namespace ObjectQuery.Sql

open ObjectQuery.Document

/-- A bind value as JSON: a date is the text of its exact form. -/
def Value.toJson : Value → Json
  | .null => .null
  | .bool value => .bool value
  | .integer value => .integer value.toInt
  | .float value => .float value
  | .date value => .text value.iso
  | .text value => .text value

end ObjectQuery.Sql

namespace ObjectQuery.Definition

open ObjectQuery.Sql ObjectQuery.Query ObjectQuery.Document

/-- A list of bind values. -/
def writeValues (values : List Value) : Json := .list (values.map Value.toJson)

/-- An identifier. -/
def writeId (id : Int64) : Json := .integer id.toInt

/-- A link. -/
def LinkDefinition.toJson : LinkDefinition → Json
  | .child => .ofPairs [("kind", .text "child")]
  | .parent => .ofPairs [("kind", .text "parent")]
  | .custom left right =>
    .ofPairs [("kind", .text "custom"), ("left", .texts left), ("right", .texts right)]
  | .freeText sql => .ofPairs [("kind", .text "free_text"), ("sql", .text sql)]
  | .linkRow near name id =>
    .ofPairs [("kind", .text (if near = .first then "db_link" else "db_link_reverse")),
      ("link_type", .optional .text name), ("link_type_id", .optional writeId id)]
  | .denormalized field => .ofPairs [("kind", .text "denormalized"), ("field", .text field)]
  | .denormalizedReverse field =>
    .ofPairs [("kind", .text "denormalized_reverse"), ("field", .text field)]
  | .denormalizedFull left right =>
    .ofPairs [("kind", .text "denormalized_full"), ("left_field", .text left),
      ("right_field", .text right)]

/-- A field to order by. -/
def writeSortField (s : SortField) : Json :=
  .ofPairs [("field", .text s.field), ("descending", .bool s.descending)]

/-- A sub-query. -/
def writeSubQuery (q : SubQuery) : Json :=
  .ofPairs [("sql", .text q.sql), ("fields", .texts q.fields), ("params", writeValues q.values)]

/-- A box. -/
def writeBox (b : BoundingBox) : Json :=
  .ofPairs [("min_x", .float b.minX), ("min_y", .float b.minY), ("max_x", .float b.maxX),
    ("max_y", .float b.maxY)]

/-- The fields of a node with its criteria and the nodes below it written already. -/
def NodeSource.members (n : NodeSource) (criteria children : List Json) :
    List (String × Json) :=
  [("table", .optional .text n.table), ("object_type_id", .optional writeId n.objectType),
    ("sub_query", .optional writeSubQuery n.subQuery), ("alias", .optional .text n.aliasName),
    ("join", .text (joinName n.join)), ("link", .optional LinkDefinition.toJson n.link),
    ("where", .list criteria), ("connector", .text (connectiveName n.connective)),
    ("reference_date", .optional .text n.referenceDate),
    ("link_reference_date", .optional .text n.linkReferenceDate), ("history", .bool n.history),
    ("order_by", .list (n.sort.map writeSortField)), ("return", .bool n.returned),
    ("link_columns", .bool n.showsLinkColumns), ("fields", .optional .texts n.fields),
    ("children", .list children)]

mutual

/-- The fields of a condition, its kind first. -/
def ConditionDefinition.members : ConditionDefinition → List (String × Json)
  | .compare field comparison value other =>
    [("kind", .text "compare"), ("field", .text field),
      ("op", .text (comparisonName comparison)), ("value", .optional Value.toJson value),
      ("other_field", .optional .text other)]
  | .isNull field => [("kind", .text "is_null"), ("field", .text field)]
  | .between field low high =>
    [("kind", .text "between"), ("field", .text field), ("low", low.toJson),
      ("high", high.toJson)]
  | .valueBetween value low high =>
    [("kind", .text "value_between"), ("value", value.toJson), ("low_field", .text low),
      ("high_field", .text high)]
  | .touches field box => [("kind", .text "bbox"), ("field", .text field), ("bbox", writeBox box)]
  | .inList field values =>
    [("kind", .text "in_list"), ("field", .text field), ("values", writeValues values)]
  | .inSubquery field query =>
    [("kind", .text "in_subquery"), ("field", .text field), ("query", query.toJson)]
  | .linked near linkType related =>
    [("kind", .text (if near = .first then "db_link" else "db_link_reverse")),
      ("link_type_id", writeId linkType), ("related_ids", .list (related.map writeId))]
  | .freeText sql values =>
    [("kind", .text "free_text"), ("sql", .text sql), ("params", writeValues values)]
  | .all members =>
    [("kind", .text "all"), ("members", .list (CriterionDefinition.toJsons members))]
  | .any members =>
    [("kind", .text "any"), ("members", .list (CriterionDefinition.toJsons members))]
  | .group members =>
    [("kind", .text "group"), ("members", .list (CriterionDefinition.toJsons members))]

/-- A criterion: the fields of its condition, then its own. -/
def CriterionDefinition.toJson : CriterionDefinition → Json
  | ⟨condition, negated, connective⟩ =>
    .ofPairs (condition.members ++
      [("not", .bool negated), ("connector", .text (connectiveName connective))])

/-- A list of criteria. -/
def CriterionDefinition.toJsons : List CriterionDefinition → List Json
  | [] => []
  | criterion :: rest => criterion.toJson :: CriterionDefinition.toJsons rest

/-- A node. -/
def NodeDefinition.toJson : NodeDefinition → Json
  | ⟨source, criteria, children⟩ =>
    .ofPairs (source.members (CriterionDefinition.toJsons criteria)
      (NodeDefinition.toJsons children))

/-- A list of nodes. -/
def NodeDefinition.toJsons : List NodeDefinition → List Json
  | [] => []
  | node :: rest => node.toJson :: NodeDefinition.toJsons rest

end

namespace ConditionDefinition

/-- The written kind of a condition. -/
def kind : ConditionDefinition → String
  | .compare .. => "compare"
  | .isNull .. => "is_null"
  | .between .. => "between"
  | .valueBetween .. => "value_between"
  | .touches .. => "bbox"
  | .inList .. => "in_list"
  | .inSubquery .. => "in_subquery"
  | .linked near _ _ => if near = .first then "db_link" else "db_link_reverse"
  | .freeText .. => "free_text"
  | .all .. => "all"
  | .any .. => "any"
  | .group .. => "group"

/-- The fields of a condition behind its kind. -/
def content (c : ConditionDefinition) : List (String × Json) := c.members.tail

/-- A condition is written as its kind and the fields behind it. -/
theorem members_eq (c : ConditionDefinition) : c.members = ("kind", .text c.kind) :: c.content := by
  unfold content
  cases c <;> rw [members] <;> rfl

end ConditionDefinition

/-- A query definition; empty parts of it are left out. -/
def QueryDefinition.toJson (q : QueryDefinition) : Json :=
  .ofPairs
    ((if q.nodes.isEmpty then [] else [("nodes", .list (NodeDefinition.toJsons q.nodes))]) ++
      (q.root.map fun root => ("root", root.toJson)).toList ++
      (q.returnType.map fun name => ("return_type", Json.text name)).toList)

end ObjectQuery.Definition
