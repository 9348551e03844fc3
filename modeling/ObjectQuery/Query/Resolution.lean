import ObjectQuery.Query.Node

/-!
# Resolving nodes and criteria

Conditions become expressions over resolved columns, and nodes become table references and
select items.  This is where a query can fail: a nested node without a source, or a link
filter without a link table.

## Main Definitions

* `Context` — what resolution depends on besides the node
* `Criterion.resolve`, `Node.resolveNested` — criteria and the nodes inside them
* `Node.resolvePredicate` — what the rows of a node have to meet, between parentheses
* `NodeSettings.tableRef`, `NodeSettings.items` — tables and select items

## Design Notes

An empty group resolves to nothing, and so does a negated one; groups drop such members
together with their connectives.
-/

namespace ObjectQuery.Query

open ObjectQuery.Sql ObjectQuery.Calendar

/-- What resolution depends on besides the node. -/
structure Context where
  maxDate : DateTime
  physical : Bool
  linkTable : Option LinkTable
  statuses : List String

/-! ### Tables and columns -/

/-- The alias of the repository table of a node. -/
def repositoryAlias (aliasName : String) : String := "r" ++ aliasName

namespace NodeSettings

/-- How the columns of a node are reached under an alias. -/
def scope (n : NodeSettings) (aliasName : String) (physical : Bool) : Scope :=
  match n.table? with
  | some t =>
    if physical then
      ⟨aliasName, some ⟨repositoryAlias aliasName, t.repositoryFields.map (·.name)⟩⟩
    else .uniform aliasName
  | none => .uniform aliasName

/-- The columns of a node inside a derived table: everything, or in physical mode the
selected columns of its two tables. -/
def derivedColumns (n : NodeSettings) (scope : Scope) (physical : Bool) : Columns :=
  match n.table? with
  | some t =>
    if physical then .listed (t.selectedFields.map fun f => scope.column f.name)
    else .every scope.aliasName
  | none => .every scope.aliasName

end NodeSettings

/-- The table reference of a source under an alias. -/
def Source.tableRef (aliasName : String) (physical : Bool) : Source → TableRef
  | .table t =>
    if physical then
      .paired t.repositoryName (repositoryAlias aliasName) t.typeTableName aliasName
        ⟨repositoryAlias aliasName, Catalog.rowKey⟩ ⟨aliasName, t.rowColumn⟩
    else .named t.viewName aliasName
  | .subQuery q => .subQuery q.sql q.values aliasName

/-- The columns of a nested node: its own list, else the first column of a sub-query, else
the object identifier. -/
def NodeSettings.nestedColumns (n : NodeSettings) (scope : Scope) (source : Source) : Columns :=
  match n.fields, source with
  | some fields, _ => .listed (fields.map scope.column)
  | none, .subQuery q =>
    match q.fields with
    | first :: _ => .listed [scope.column first]
    | [] => .every scope.aliasName
  | none, .table _ => .listed [scope.column Catalog.objectId]

/-! ### Validity and link rows -/

/-- The condition that a row is valid, over the columns that bound its validity. -/
def validityExpr (validFrom validTo : ColumnRef) (referenceDate : Option DateTime)
    (leftJoined : Bool) (maxDate : DateTime) : Expr :=
  match referenceDate with
  | some date => .valueBetween (.date date) validFrom validTo
  | none =>
    let current : Expr := .compare validTo .equal (.date maxDate)
    if leftJoined then .group (.more current .or (.last (.isNull validTo))) else current

/-- The condition that a row of a node is valid; none for sub-queries and histories. -/
def NodeSettings.validityExpr? (n : NodeSettings) (cx : Context) (scope : Scope) :
    Option Expr :=
  if n.history || n.table?.isNone then none
  else
    some (validityExpr (scope.column Catalog.validFrom) (scope.column Catalog.validTo)
      n.referenceDate (n.join == .left) cx.maxDate)

/-- The condition that a link filter stands for: a valid link row with an accepted status
leads from the object, to one of the related objects if there are any. -/
def LinkFilter.resolve (cx : Context) (scope : Scope) (near : LinkEnd) (f : LinkFilter) :
    Except CompileError Expr :=
  match cx.linkTable with
  | none => .error (.unresolvedLink (.noTableForFilter scope.aliasName))
  | some table =>
    let aliasName := LinkTable.aliasTo scope.aliasName ++ "_f"
    let column (name : String) : ColumnRef := ⟨aliasName, name⟩
    let related : List Expr :=
      if f.related.isEmpty then []
      else [.inList (column (table.columns.endColumn near.opposite)) (f.related.map .integer)]
    .ok (.linked table.qualifiedName aliasName
      (.conjunction (equality (column (table.columns.endColumn near))
          (scope.column Catalog.objectId))
        ([.hasId (column table.columns.linkType) f.linkType,
            validityExpr (column table.columns.validFrom) (column table.columns.validTo)
              f.referenceDate false cx.maxDate] ++
          related ++ (table.statusFilter aliasName cx.statuses).toList)))

/-! ### Conditions -/

/-- The group of the members that are left; nothing if none is. -/
def groupOf? (parts : List (Expr × Connective)) : Option Expr :=
  (Chain.ofParts? parts).map .group

/-- Validity in front of a node's own condition, between one pair of parentheses.  A node
without a criterion is told apart from one whose criterion resolves to nothing. -/
def withValidity (validity : Option Expr) (own : Option (Option Expr)) : Option Expr :=
  match validity, own with
  | none, none => none
  | none, some own => own.map Expr.enclosed
  | some validity, none => some validity.enclosed
  | some validity, some none => some (.group (.last validity))
  | some validity, some (some own) => some (.group (.more validity .and (.last own)))

mutual

/-- A condition over the columns of a scope; nothing for an empty group. -/
def Condition.resolve (cx : Context) (scope : Scope) :
    Condition → Except CompileError (Option Expr)
  | .compare field comparison value => .ok (some (.compare (scope.column field) comparison value))
  | .compareFields field comparison other =>
    .ok (some (.compareColumns (scope.column field) comparison (scope.column other)))
  | .isNull field => .ok (some (.isNull (scope.column field)))
  | .between field low high => .ok (some (.between (scope.column field) low high))
  | .valueBetween value low high =>
    .ok (some (.valueBetween value (scope.column low) (scope.column high)))
  | .touches field box => .ok (some (.touches (scope.column field) box))
  | .inList field values => .ok (some (.inList (scope.column field) values))
  | .inSubquery field query =>
    (query.resolveNested cx (scope.aliasName ++ "_sq")).map fun select =>
      some (.inSelect (scope.column field) select)
  | .linked near filter => (filter.resolve cx scope near).map some
  | .freeText sql values => .ok (some (.raw sql values))
  | .group members => (Criterion.resolveParts cx scope members).map groupOf?

/-- A criterion over the columns of a scope. -/
def Criterion.resolve (cx : Context) (scope : Scope) :
    Criterion → Except CompileError (Option Expr)
  | ⟨condition, negated, _⟩ =>
    (condition.resolve cx scope).map fun resolved =>
      if negated then resolved.map Expr.negated else resolved

/-- The members of a group that resolve to something, each with its connective. -/
def Criterion.resolveParts (cx : Context) (scope : Scope) :
    List Criterion → Except CompileError (List (Expr × Connective))
  | [] => .ok []
  | member :: rest => do
    let resolved ← member.resolve cx scope
    let parts ← Criterion.resolveParts cx scope rest
    return match resolved with
      | none => parts
      | some expr => (expr, member.connective) :: parts

/-- The select of a node inside a condition, under its own alias or a default one. -/
def Node.resolveNested (cx : Context) (defaultAlias : String) :
    Node → Except CompileError Subselect
  | ⟨settings, predicate⟩ => do
    let aliasName := settings.givenAlias.getD defaultAlias
    let scope := settings.scope aliasName cx.physical
    let source ← settings.requireSource
    let filter ← Criterion.resolveOwn cx scope settings predicate
    return .mk (settings.nestedColumns scope source) (source.tableRef aliasName cx.physical) filter

/-- What the rows of a node have to meet, between one pair of parentheses. -/
def Criterion.resolveOwn (cx : Context) (scope : Scope) (settings : NodeSettings) :
    Option Criterion → Except CompileError (Option Expr)
  | none => .ok (withValidity (settings.validityExpr? cx scope) none)
  | some predicate =>
    (predicate.resolve cx scope).map fun own =>
      withValidity (settings.validityExpr? cx scope) (some own)

end

/-- What the rows of a node have to meet, between one pair of parentheses. -/
def Node.resolvePredicate (cx : Context) (scope : Scope) (n : Node) :
    Except CompileError (Option Expr) :=
  Criterion.resolveOwn cx scope n.toNodeSettings n.predicate

/-! ### Select items -/

namespace NodeSettings

/-- The label of a column in the result. -/
def labelOf (n : NodeSettings) (column : String) : String := n.aliasName ++ "_" ++ column

/-- A column of the node as a select item. -/
def plainItem (n : NodeSettings) (scope : Scope) (column : String) : SelectItem :=
  .column (scope.column column) (n.labelOf column)

/-- A geometry column of the node as a select item. -/
def geometryItem (n : NodeSettings) (scope : Scope) (column : String) : SelectItem :=
  .geometry (scope.column column) (n.labelOf column)

/-- A column of a node's own list as a select item. -/
def customItem (n : NodeSettings) (scope : Scope) (column : String) : SelectItem :=
  match n.table? with
  | some t =>
    if t.isGeometryField column then n.geometryItem scope column else n.plainItem scope column
  | none => n.plainItem scope column

/-- A column of the descriptor as a select item; geometry columns only on demand. -/
def fieldItem? (n : NodeSettings) (scope : Scope) (geometry : Bool) (f : Catalog.Field) :
    Option SelectItem :=
  if f.isGeometry then
    if geometry then some (n.geometryItem scope f.name) else none
  else some (n.plainItem scope f.name)

/-- The select items of a node: its own list, else the columns of its sub-query, else the
selected columns of its table. -/
def items (n : NodeSettings) (scope : Scope) (geometry : Bool) :
    Except CompileError (List SelectItem) :=
  match n.fields with
  | some fields => .ok (fields.map (n.customItem scope))
  | none =>
    n.requireSource.map fun source =>
      match source with
      | .subQuery q => q.fields.map (n.plainItem scope)
      | .table t => t.selectedFields.filterMap (n.fieldItem? scope geometry)

/-- The scope of a select list under two aliases: a single one shows the view, two different
ones show the repository table and the type table. -/
def listScope (n : NodeSettings) (repositoryAlias aliasName : String) : Scope :=
  match n.table? with
  | some t =>
    if repositoryAlias = aliasName then .uniform aliasName
    else ⟨aliasName, some ⟨repositoryAlias, t.repositoryFields.map (·.name)⟩⟩
  | none => .uniform aliasName

end NodeSettings

/-- The vocabulary of a dialect, or the error that a keyword is missing. -/
def vocabulary (d : Dialect) : Except CompileError Vocabulary :=
  d.vocabulary.mapError .missingKeyword

/-- The select list of a node under two aliases, as text. -/
def NodeSettings.fieldList (n : NodeSettings) (d : Dialect) (g : Geometry)
    (repositoryAlias aliasName : String) (geometry : Bool) : Except CompileError String := do
  let words ← vocabulary d
  let items ← n.items (n.listScope repositoryAlias aliasName) geometry
  return Text.joinWith ", " (items.map (SelectItem.render ⟨words, g⟩))

end ObjectQuery.Query
