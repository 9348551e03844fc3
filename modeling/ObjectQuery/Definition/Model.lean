import ObjectQuery.Query.Node

/-!
# Query definitions

A query as it is written down: nodes that name tables and links that name link types, not yet
resolved through a catalog.

## Main Definitions

* `LinkDefinition` — how a node is linked to its neighbour
* `ConditionDefinition`, `CriterionDefinition`, `NodeDefinition` — the nested parts
* `QueryDefinition` — a chain of nodes or a tree below a root
* `NodeDefinition.labels` — the names of a node and the nodes below it
-/

namespace ObjectQuery.Definition

open ObjectQuery.Sql ObjectQuery.Query

/-- How a node is linked: in a chain to the next node, in a tree to its parent. -/
inductive LinkDefinition
  | child
  | parent
  | custom (left right : List String)
  | freeText (sql : String)
  /-- Through the link table, by the name of a link type or by its identifier. -/
  | linkRow (near : LinkEnd) (name : Option String) (id : Option Int64)
  | denormalized (field : String)
  | denormalizedReverse (field : String)
  | denormalizedFull (left right : String)
  deriving DecidableEq

/-- A node without its criteria and the nodes below it. -/
structure NodeSource where
  table : Option String := none
  objectType : Option Int64 := none
  subQuery : Option SubQuery := none
  aliasName : Option String := none
  join : JoinKind := .inner
  link : Option LinkDefinition := none
  connective : Connective := .and
  referenceDate : Option String := none
  linkReferenceDate : Option String := none
  history : Bool := false
  sort : List SortField := []
  returned : Bool := false
  showsLinkColumns : Bool := false
  fields : Option (List String) := none

mutual

/-- A condition as it is written down. -/
inductive ConditionDefinition
  | compare (field : String) (comparison : Comparison) (value : Option Value)
      (other : Option String)
  | isNull (field : String)
  | between (field : String) (low high : Value)
  | valueBetween (value : Value) (low high : String)
  | touches (field : String) (box : BoundingBox)
  | inList (field : String) (values : List Value)
  | inSubquery (field : String) (query : NodeDefinition)
  | linked (near : LinkEnd) (linkType : Int64) (related : List Int64)
  | freeText (sql : String) (values : List Value)
  | all (members : List CriterionDefinition)
  | any (members : List CriterionDefinition)
  | group (members : List CriterionDefinition)

/-- A condition, possibly negated, with the connective to the next one. -/
structure CriterionDefinition where
  condition : ConditionDefinition
  negated : Bool
  connective : Connective

/-- A node as it is written down. -/
structure NodeDefinition extends NodeSource where
  criteria : List CriterionDefinition := []
  children : List NodeDefinition := []

end

/-- A query as it is written down: a chain of nodes or a tree below a root. -/
structure QueryDefinition where
  nodes : List NodeDefinition := []
  root : Option NodeDefinition := none
  returnType : Option String := none

/-- The name of a node in messages: its alias, its table or its object type. -/
def NodeSource.label (n : NodeSource) : String :=
  match n.aliasName, n.table, n.objectType with
  | some aliasName, _, _ => aliasName
  | none, some table, _ => table
  | none, none, some id => "#" ++ toString id.toInt
  | none, none, none => "<sub-query>"

mutual

/-- The names of a node and, behind it, of the nodes below it. -/
def NodeDefinition.labels : NodeDefinition → List String
  | ⟨source, _, children⟩ => source.label :: NodeDefinition.labelsOf children

/-- The names of nodes, each with the nodes below it. -/
def NodeDefinition.labelsOf : List NodeDefinition → List String
  | [] => []
  | node :: nodes => node.labels ++ NodeDefinition.labelsOf nodes

end

/-- The names of all nodes of a query. -/
def QueryDefinition.labels (q : QueryDefinition) : List String :=
  NodeDefinition.labelsOf q.nodes ++ NodeDefinition.labelsOf q.root.toList

end ObjectQuery.Definition
