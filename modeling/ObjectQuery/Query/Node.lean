import ObjectQuery.Query.Environment

/-!
# Nodes and criteria

A node is a table or sub-query that takes part in a query, with its criterion; a criterion is
a condition on the rows of its node, and a condition may hold a node of its own.  Field names
are relative to the node that a criterion belongs to.

## Main Definitions

* `Source` — what a node reads
* `NodeSettings` — a node without its criterion
* `Condition`, `Criterion`, `Node` — the three mutually nested types
* `Criterion.validity` — the criterion that a row is valid
* `Node.validity`, `Node.effectivePredicate` — what the rows of a node have to meet
-/

namespace ObjectQuery.Query

open ObjectQuery.Sql ObjectQuery.Calendar

/-- A select given as text, with the columns that it shows and its values. -/
structure SubQuery where
  sql : String
  fields : List String
  values : List Value

/-- What a node reads. -/
inductive Source
  | table (table : Catalog.Table)
  | subQuery (query : SubQuery)

/-- A field to order by. -/
structure SortField where
  field : String
  descending : Bool := false
  deriving DecidableEq, Repr

/-- What a node compiled alone uses in place of the settings of a graph. -/
structure Standalone where
  environment : Option (Shared Environment) := none
  linkTable : Option LinkTable := none
  statuses : List String := []

/-- A node without its criterion. -/
structure NodeSettings where
  source : Option Source := none
  givenAlias : Option String := none
  /-- The place in the graph, which names nodes without an alias. -/
  position : Nat := 0
  /-- The connective behind the node's conditions, in place of the criterion's own. -/
  connective : Option Connective := none
  /-- Whether all versions of rows count, not only the valid ones. -/
  history : Bool := false
  referenceDate : Option DateTime := none
  linkReferenceDate : Option DateTime := none
  link : Option Link := none
  join : JoinKind := .inner
  sort : List SortField := []
  returned : Bool := false
  showsLinkColumns : Bool := false
  fields : Option (List String) := none
  lastMode : Mode := {}
  standalone : Standalone := {}

/-- A filter on objects that are linked to other objects. -/
structure LinkFilter where
  linkType : Int64
  related : List Int64
  referenceDate : Option DateTime := none
  deriving DecidableEq

mutual

/-- A condition on the rows of a node. -/
inductive Condition
  | compare (field : String) (comparison : Comparison) (value : Value)
  | compareFields (field : String) (comparison : Comparison) (other : String)
  | isNull (field : String)
  | between (field : String) (low high : Value)
  | valueBetween (value : Value) (low high : String)
  | touches (field : String) (box : BoundingBox)
  | inList (field : String) (values : List Value)
  | inSubquery (field : String) (query : Node)
  /-- The object of the row is at the near end of a link. -/
  | linked (near : LinkEnd) (filter : LinkFilter)
  | freeText (sql : String) (values : List Value)
  | group (members : List Criterion)

/-- A condition, possibly negated, with the connective to the next one. -/
structure Criterion where
  condition : Condition
  negated : Bool := false
  connective : Connective := .and

/-- A table or sub-query that takes part in a query. -/
structure Node extends NodeSettings where
  predicate : Option Criterion := none

end

namespace Criterion

/-- The criterion negated once more. -/
def negate (c : Criterion) : Criterion := { c with negated := !c.negated }

/-- The criterion with another connective behind it. -/
def connectedBy (c : Criterion) (connective : Connective) : Criterion := { c with connective }

/-- Whether the condition of a criterion is a group. -/
def isGroup (c : Criterion) : Bool :=
  match c.condition with
  | .group _ => true
  | _ => false

/-- The members with their own connectives. -/
def group (members : List Criterion) : Criterion := ⟨.group members, false, .and⟩

/-- All of the members. -/
def all (members : List Criterion) : Criterion := group (members.map (connectedBy · .and))

/-- One of the members at least. -/
def any (members : List Criterion) : Criterion := group (members.map (connectedBy · .or))

/-- The criterion that a field equals a value. -/
def equals (field : String) (value : Value) : Criterion :=
  ⟨.compare field .equal value, false, .and⟩

/-- The criterion that a row is valid: at the reference date, or else never deleted.  A row
that a left join may leave out is valid also if it is missing. -/
def validity (validFrom validTo : String) (referenceDate : Option DateTime) (leftJoined : Bool)
    (maxDate : DateTime) : Criterion :=
  match referenceDate with
  | some date => ⟨.valueBetween (.date date) validFrom validTo, false, .and⟩
  | none =>
    if leftJoined then
      group [(equals validTo (.date maxDate)).connectedBy .or, ⟨.isNull validTo, false, .and⟩]
    else equals validTo (.date maxDate)

end Criterion

namespace NodeSettings

/-- The table that a node reads, if it reads one. -/
def table? (n : NodeSettings) : Option Catalog.Table :=
  match n.source with
  | some (.table t) => some t
  | _ => none

/-- The sub-query that a node reads, if it reads one. -/
def subQuery? (n : NodeSettings) : Option SubQuery :=
  match n.source with
  | some (.subQuery q) => some q
  | _ => none

/-- The object type of the table that a node reads. -/
def objectType? (n : NodeSettings) : Option Int64 := n.table?.map (·.objectType)

/-- The alias of a node: the one it was given, or its place in the graph. -/
def aliasName (n : NodeSettings) : String := n.givenAlias.getD ("t" ++ toString n.position)

/-- The source of a node, or the error that it has none. -/
def requireSource (n : NodeSettings) : Except CompileError Source :=
  match n.source with
  | some source => .ok source
  | none => .error (.missingSource n.aliasName)

theorem requireSource_eq_ok_iff {n : NodeSettings} {source : Source} :
    n.requireSource = .ok source ↔ n.source = some source := by
  unfold requireSource
  cases n.source <;> simp

/-- The criterion that a row of the node is valid; none for sub-queries and histories. -/
def validity (n : NodeSettings) (maxDate : DateTime) : Option Criterion :=
  if n.history || n.table?.isNone then none
  else
    some (.validity Catalog.validFrom Catalog.validTo n.referenceDate (n.join == .left) maxDate)

end NodeSettings

namespace Node

/-- What the rows of a node have to meet: validity in front of the node's own criterion. -/
def effectivePredicate (n : Node) (maxDate : DateTime) : Option Criterion :=
  match n.validity maxDate, n.predicate with
  | none, predicate => predicate
  | some validity, none => some validity
  | some validity, some predicate =>
    some ((Criterion.group [validity.connectedBy .and, predicate]).connectedBy
      predicate.connective)

/-- The connective behind the conditions of a node. -/
def connectiveAfter (n : Node) : Connective :=
  (n.connective <|> n.predicate.map (·.connective)).getD .and

end Node

end ObjectQuery.Query
