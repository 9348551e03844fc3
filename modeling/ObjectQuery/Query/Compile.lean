import ObjectQuery.Query.Graph
import ObjectQuery.Query.Resolution

/-!
# Compiling query graphs

A graph is walked once; every node gives joins, conditions, select items and order terms, and
these make up a statement.  A left-joined node of a tree is isolated: it is joined as a
derived table, and its conditions stay inside, so that they cannot drop rows of the other
nodes.

## Main Definitions

* `LinkRow` — the row of the link table that a join goes through
* `Graph.part` — what one node contributes
* `Graph.statement` — the statement of a graph
* `Graph.compile` — its text and values
* `Node.compileIn` — a node compiled alone
-/

namespace ObjectQuery.Query

open ObjectQuery.Sql ObjectQuery.Calendar

/-- The row of the link table that a join goes through. -/
structure LinkRow where
  table : LinkTable
  aliasName : String
  linkType : Int64
  near : LinkEnd
  /-- Whether the row may be missing. -/
  optional : Bool

namespace LinkRow

/-- A column of a link row. -/
def column (r : LinkRow) (name : String) : ColumnRef := ⟨r.aliasName, name⟩

/-- The column that holds the previous object. -/
def nearColumn (r : LinkRow) : String := r.table.columns.endColumn r.near

/-- The column that holds the next object. -/
def farColumn (r : LinkRow) : String := r.table.columns.endColumn r.near.opposite

/-- The link table under the alias of the row. -/
def tableRef (r : LinkRow) : TableRef := .named r.table.qualifiedName r.aliasName

/-- The conditions on the kind of a link row: its link type and its status. -/
def conditions (r : LinkRow) (statuses : List String) : List Expr :=
  .hasId (r.column r.table.columns.linkType) r.linkType ::
    (r.table.statusFilter r.aliasName statuses).toList

/-- The name under which a derived table shows a column of the link row. -/
def exposed (r : LinkRow) (column : String) : String := r.aliasName ++ "_" ++ column

/-- The columns of a link row as select items. -/
def items (r : LinkRow) : List SelectItem :=
  r.table.columns.all.map fun c => .column (r.column c) (r.exposed c)

/-- The columns of a link row as select items of a derived table with an alias. -/
def exposedItems (r : LinkRow) (aliasName : String) : List SelectItem :=
  r.table.columns.all.map fun c => .column ⟨aliasName, r.exposed c⟩ (r.exposed c)

/-- The condition that a link row is valid, for the node that keeps the link; none for a
history. -/
def validity (r : LinkRow) (holder : NodeSettings) (maxDate : DateTime) : Option Expr :=
  if holder.history then none
  else
    some (validityExpr (r.column r.table.columns.validFrom) (r.column r.table.columns.validTo)
      holder.linkReferenceDate r.optional maxDate).enclosed

end LinkRow

/-- A planned join to the nodes in front: the scope of the partner, the plan of the link and
the link row it goes through. -/
structure PlannedJoin where
  previous : Scope
  plan : JoinPlan
  row : Option LinkRow

/-- A join in line, behind a join of its link row if it has one. -/
def inlineJoins (cx : Context) (n : NodeSettings) (source : Source) (scope : Scope)
    (j : PlannedJoin) : List Join :=
  let target := source.tableRef scope.aliasName cx.physical
  match j.row with
  | none => [.plain n.join target (j.plan.conditions j.previous scope)]
  | some row =>
    [.plain n.join row.tableRef
        (equality (j.previous.column Catalog.objectId) (row.column row.nearColumn) ::
          row.conditions cx.statuses),
      .plain n.join target
        [equality (row.column row.farColumn) (scope.column Catalog.objectId)]]

/-- A join of a derived table that holds the filters of the node. -/
def derivedJoin (cx : Context) (n : NodeSettings) (source : Source) (scope : Scope)
    (j : PlannedJoin) (filters : List Expr) : Join :=
  let target := source.tableRef scope.aliasName cx.physical
  let columns := n.derivedColumns scope cx.physical
  match j.row with
  | none =>
    .derived ⟨columns, none, [], target, filters⟩ scope.aliasName
      (j.plan.conditions j.previous (.uniform scope.aliasName))
  | some row =>
    .derived
      ⟨columns,
        some (row.tableRef,
          equality (row.column row.farColumn) (scope.column Catalog.objectId) ::
            row.conditions cx.statuses),
        row.items, target, filters⟩
      scope.aliasName
      [equality (j.previous.column Catalog.objectId)
        ⟨scope.aliasName, row.exposed row.nearColumn⟩]

/-- The conditions of one node with connectives: `AND` between them, the node's own behind the
last. -/
def connected (after : Connective) : List Expr → List (Expr × Connective)
  | [] => []
  | [last] => [(last, after)]
  | condition :: rest => (condition, .and) :: connected after rest

/-- What one node contributes to a statement. -/
structure Part where
  joins : List Join
  conditions : List (Expr × Connective)
  items : List SelectItem
  order : List OrderTerm

namespace Graph

/-- What the resolution of the nodes of a graph depends on. -/
def context (g : Graph) (mode : Mode) : Context :=
  ⟨g.environment.maxDate, mode.physical, g.linkTable, g.statuses⟩

/-- Whether a node is joined as a derived table: a left-joined node of a tree. -/
def isolated (g : Graph) (id : Nat) (n : NodeSettings) : Bool :=
  g.direction == .reverse && (g.partner? id).isSome && n.join == .left

/-- How the other nodes reach the columns of a node. -/
def outerScope (g : Graph) (mode : Mode) (id : Nat) (n : NodeSettings) : Scope :=
  if g.isolated id n then .uniform n.aliasName else n.scope n.aliasName mode.physical

/-- The link row of a planned link to a target; none if the link needs no link table. -/
def linkRow (g : Graph) (plan : JoinPlan) (target : NodeSettings) (previous : String) :
    Except CompileError (Option LinkRow) :=
  match plan with
  | .linkTable linkType near =>
    match g.linkTable with
    | some table =>
      .ok (some ⟨table, LinkTable.aliasTo target.aliasName, linkType, near, target.join == .left⟩)
    | none => .error (.unresolvedLink (.noTableForJoin target.aliasName previous))
  | _ => .ok none

/-- The join of a node to its partner; none for the first node. -/
def planJoin (g : Graph) (mode : Mode) (id : Nat) (n : NodeSettings) :
    Except CompileError (Option PlannedJoin) :=
  match g.partner? id with
  | none => .ok none
  | some partner => do
    let previous ← g.node partner
    let holder ← g.node (g.direction.linkHolder id partner)
    match holder.link with
    | none => .error (.joinConfiguration (.noLink previous.aliasName n.aliasName))
    | some link =>
      let plan ← link.plan
      let row ← g.linkRow plan n previous.aliasName
      return some ⟨g.outerScope mode partner previous.toNodeSettings, plan, row⟩

/-- The link row that leads from a node of a chain to its successor. -/
def outgoingRow (g : Graph) (id : Nat) (n : NodeSettings) :
    Except CompileError (Option LinkRow) :=
  match (g.children id).head?, n.link with
  | some next, some link => do
    let target ← g.node next
    let plan ← link.plan
    g.linkRow plan target.toNodeSettings n.aliasName
  | _, _ => .ok none

/-- The link row whose validity a node answers for: in a chain the one that leads to its
successor, in a tree the one that leads to it. -/
def heldRow (g : Graph) (id : Nat) (n : NodeSettings) (join : Option PlannedJoin) :
    Except CompileError (Option LinkRow) :=
  match g.direction with
  | .forward => g.outgoingRow id n
  | .reverse => .ok (join.bind (·.row))

/-- The select items of the link row of a node, if the node shows them. -/
def linkItems (g : Graph) (id : Nat) (n : NodeSettings) (join : Option PlannedJoin) :
    List SelectItem :=
  match join.bind (·.row) with
  | some row =>
    if n.showsLinkColumns then
      if g.isolated id n then row.exposedItems n.aliasName else row.items
    else []
  | none => []

/-- What one node contributes to the statement. -/
def part (g : Graph) (mode : Mode) (id : Nat) : Except CompileError Part := do
  let n ← g.node id
  let source ← n.requireSource
  let join ← g.planJoin mode id n.toNodeSettings
  let held ← g.heldRow id n.toNodeSettings join
  let cx := g.context mode
  let inner := n.scope n.aliasName mode.physical
  let predicate ← n.resolvePredicate cx inner
  let filters :=
    predicate.toList ++
      (held.bind fun row => row.validity n.toNodeSettings cx.maxDate).toList
  let outer := g.outerScope mode id n.toNodeSettings
  let isolated := g.isolated id n.toNodeSettings
  let joins : List Join := match join with
    | none => []
    | some j =>
      if isolated then [derivedJoin cx n.toNodeSettings source inner j filters]
      else inlineJoins cx n.toNodeSettings source inner j
  let own ← n.items outer mode.geometry
  return {
    joins
    conditions := if isolated then [] else connected n.connectiveAfter filters
    items := if g.projected id then own ++ g.linkItems id n.toNodeSettings join else []
    order := n.sort.map fun field => ⟨outer.column field.field, field.descending⟩ }

/-- The statement of a graph with at least one node. -/
def statement (g : Graph) (mode : Mode) : Except CompileError Statement := do
  let root ← g.node 0
  let source ← root.requireSource
  let parts ← g.walk.mapM (g.part mode)
  return {
    items := parts.flatMap (·.items)
    root := source.tableRef root.aliasName mode.physical
    joins := parts.flatMap (·.joins)
    filter := Chain.ofParts? (parts.flatMap (·.conditions))
    order := parts.flatMap (·.order) }

/-- The text and values of a graph. -/
def compile (g : Graph) (mode : Mode) : Except CompileError Fragment :=
  if g.size = 0 then .error (.invalidGraph .empty)
  else do
    let words ← vocabulary g.environment.dialect
    let statement ← g.statement mode
    return statement.render ⟨words, g.environment.geometry⟩

/-- The text of a graph; the mode is kept for the values asked for later, also if the graph
does not compile. -/
def compileText (g : Graph) (mode : Mode) : Graph × Except CompileError String :=
  ({ g with lastMode := mode }, (g.compile mode).map (·.sql))

/-- The values of a graph in the mode of the last text. -/
def values (g : Graph) : Except CompileError (List Value) := (g.compile g.lastMode).map (·.values)

end Graph

namespace Node

/-- The chain of a node alone, with the link settings that the node carries. -/
def alone (n : Node) (environment : Environment) : Graph :=
  { (Graph.forward environment).push n none (Direction.admits_first .forward) with
    linkTable := n.standalone.linkTable
    statuses := n.standalone.statuses }

/-- The text and values of a node compiled alone. -/
def compileIn (n : Node) (environment : Environment) (mode : Mode) :
    Except CompileError Fragment :=
  (n.alone environment).compile mode

/-- The environment of a node compiled alone. -/
def ownEnvironment (n : Node) : Environment :=
  n.standalone.environment.elim .standard (·.value)

/-- The text of a node alone; the mode is kept for the values asked for later, also if the
node does not compile. -/
def compileText (n : Node) (mode : Mode) : Node × Except CompileError String :=
  ({ n with lastMode := mode }, (n.compileIn n.ownEnvironment mode).map (·.sql))

/-- The values of a node alone in the mode of the last text. -/
def values (n : Node) : Except CompileError (List Value) :=
  (n.compileIn n.ownEnvironment n.lastMode).map (·.values)

end Node

end ObjectQuery.Query
