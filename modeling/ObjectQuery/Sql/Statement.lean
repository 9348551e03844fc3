import ObjectQuery.Sql.Geometry
import ObjectQuery.Sql.Vocabulary

/-!
# Statements

The select statements that queries compile to, with every name resolved: a column is a
qualifier and a name, a table reference carries the alias it declares.  Nothing here knows a
dialect; `ObjectQuery.Sql.Rendering` spells a statement.

## Main Definitions

* `ColumnRef`, `TableRef` — resolved columns and tables
* `Expr`, `Chain` — conditions, and conditions joined by connectives
* `Subselect` — the select behind `IN`
* `Join`, `DerivedTable` — joins in line and joins of a select of their own
* `Statement` — a whole select statement
* `Statement.values` — the bind values in the order of the text
-/

namespace ObjectQuery.Sql

/-- A connective between neighbouring conditions. -/
inductive Connective
  | and
  | or
  deriving DecidableEq, Repr

/-- The word of a connective. -/
def Connective.keyword : Connective → Keyword
  | .and => .conjunction
  | .or => .disjunction

/-- A comparison of a column with a value or another column. -/
inductive Comparison
  | equal | unequal | less | lessOrEqual | greater | greaterOrEqual | like | notLike
  deriving DecidableEq, Repr

/-- The word of a comparison. -/
def Comparison.keyword : Comparison → Keyword
  | .equal => .equal
  | .unequal => .unequal
  | .less => .less
  | .lessOrEqual => .lessOrEqual
  | .greater => .greater
  | .greaterOrEqual => .greaterOrEqual
  | .like => .like
  | .notLike => .notLike

/-- Which rows of the two sides a join keeps. -/
inductive JoinKind
  | inner
  | left
  | right
  deriving DecidableEq, Repr

/-- The words of a join. -/
def JoinKind.keyword : JoinKind → Keyword
  | .inner => .innerJoin
  | .left => .leftJoin
  | .right => .rightJoin

/-- A column under the alias of the table that exposes it. -/
structure ColumnRef where
  qualifier : String
  column : String
  deriving DecidableEq, Repr

/-- The columns of a select without labels: everything under an alias, or a list. -/
inductive Columns
  | every (aliasName : String)
  | listed (columns : List ColumnRef)
  deriving DecidableEq, Repr

/-- A table in a list of tables, with the aliases that it declares. -/
inductive TableRef
  /-- A table or view under an alias. -/
  | named (name aliasName : String)
  /-- A repository table joined with a type table on a column of each. -/
  | paired (repository repositoryAlias table aliasName : String) (key rowKey : ColumnRef)
  /-- A select given as text with its values. -/
  | subQuery (sql : String) (values : List Value) (aliasName : String)

mutual

/-- A condition on rows. -/
inductive Expr
  | compare (column : ColumnRef) (comparison : Comparison) (value : Value)
  | compareColumns (left : ColumnRef) (comparison : Comparison) (right : ColumnRef)
  | isNull (column : ColumnRef)
  | between (column : ColumnRef) (low high : Value)
  | valueBetween (value : Value) (low high : ColumnRef)
  | touches (column : ColumnRef) (box : BoundingBox)
  | inList (column : ColumnRef) (values : List Value)
  | inSelect (column : ColumnRef) (query : Subselect)
  /-- A row of a table under an alias exists that meets all conditions. -/
  | linked (table aliasName : String) (conditions : Chain)
  /-- The column holds a number written into the text. -/
  | hasId (column : ColumnRef) (id : Int64)
  /-- The column holds one of the texts written as literals. -/
  | hasStatus (column : ColumnRef) (statuses : List String)
  | raw (sql : String) (values : List Value)
  | group (members : Chain)
  | not (members : Chain)

/-- One or more conditions with a connective between neighbours. -/
inductive Chain
  | last (condition : Expr)
  | more (condition : Expr) (connective : Connective) (rest : Chain)

/-- The select behind `IN`. -/
inductive Subselect
  | mk (columns : Columns) (source : TableRef) (filter : Option Expr)

end

/-- The condition between one pair of parentheses. -/
def Expr.enclosed : Expr → Expr
  | .group members => .group members
  | condition => .group (.last condition)

/-- The negated condition. -/
def Expr.negated : Expr → Expr
  | .group members => .not members
  | condition => .not (.last condition)

/-- The chain of conditions that must all hold. -/
def Chain.conjunction (first : Expr) : List Expr → Chain
  | [] => .last first
  | next :: rest => .more first .and (conjunction next rest)

/-- The chain of conditions with the connective of each behind it, the last one's dropped;
none for no conditions. -/
def Chain.ofParts? : List (Expr × Connective) → Option Chain
  | [] => none
  | (condition, connective) :: rest =>
    match ofParts? rest with
    | none => some (.last condition)
    | some chain => some (.more condition connective chain)

/-- A labelled item of a select list: a column, or a geometry column read through the
database. -/
inductive SelectItem
  | column (source : ColumnRef) (label : String)
  | geometry (source : ColumnRef) (label : String)
  deriving DecidableEq, Repr

/-- A select of its own in the list of tables: a node, possibly behind its link row, with the
conditions that stay inside. -/
structure DerivedTable where
  columns : Columns
  /-- The link row joined in front of the source, with its conditions. -/
  link : Option (TableRef × List Expr)
  linkItems : List SelectItem
  source : TableRef
  filters : List Expr

/-- A join to the tables in front of it. -/
inductive Join
  | plain (kind : JoinKind) (source : TableRef) (on : List Expr)
  /-- A left join of a derived table. -/
  | derived (table : DerivedTable) (aliasName : String) (on : List Expr)

/-- A column to order by. -/
structure OrderTerm where
  column : ColumnRef
  descending : Bool
  deriving DecidableEq, Repr

/-- A select statement. -/
structure Statement where
  items : List SelectItem
  root : TableRef
  joins : List Join
  filter : Option Chain
  order : List OrderTerm

/-! ### Bind values -/

/-- The bind values of a table reference. -/
def TableRef.values : TableRef → List Value
  | .named _ _ => []
  | .paired _ _ _ _ _ _ => []
  | .subQuery _ values _ => values

mutual

/-- The bind values of a condition, for the box values of a geometry. -/
def Expr.values (g : Geometry) : Expr → List Value
  | .compare _ _ value => [value]
  | .compareColumns _ _ _ => []
  | .isNull _ => []
  | .between _ low high => [low, high]
  | .valueBetween value _ _ => [value]
  | .touches _ box => g.boxValues box
  | .inList _ values => values
  | .inSelect _ query => query.values g
  | .linked _ _ conditions => conditions.values g
  | .hasId _ _ => []
  | .hasStatus _ _ => []
  | .raw _ values => values
  | .group members => members.values g
  | .not members => members.values g

/-- The bind values of a chain of conditions. -/
def Chain.values (g : Geometry) : Chain → List Value
  | .last condition => condition.values g
  | .more condition _ rest => condition.values g ++ rest.values g

/-- The bind values of a subselect. -/
def Subselect.values (g : Geometry) : Subselect → List Value
  | .mk _ source none => source.values
  | .mk _ source (some filter) => source.values ++ filter.values g

end

/-- The bind values of conditions in order. -/
def exprValues (g : Geometry) (conditions : List Expr) : List Value :=
  conditions.flatMap (Expr.values g)

/-- The bind values of the tables inside a derived table. -/
def DerivedTable.tableValues (g : Geometry) (t : DerivedTable) : List Value :=
  match t.link with
  | none => t.source.values
  | some (link, on) => link.values ++ t.source.values ++ exprValues g on

/-- The bind values of a derived table. -/
def DerivedTable.values (g : Geometry) (t : DerivedTable) : List Value :=
  t.tableValues g ++ exprValues g t.filters

/-- The bind values of a join. -/
def Join.values (g : Geometry) : Join → List Value
  | .plain _ source on => source.values ++ exprValues g on
  | .derived table _ on => table.values g ++ exprValues g on

/-- The bind values of the tables of a statement. -/
def Statement.tableValues (g : Geometry) (s : Statement) : List Value :=
  s.root.values ++ s.joins.flatMap (Join.values g)

/-- The bind values of the filter of a statement. -/
def Statement.filterValues (g : Geometry) (s : Statement) : List Value :=
  match s.filter with
  | none => []
  | some chain => chain.values g

/-- The bind values of a statement: those of its tables in front of those of its filter. -/
def Statement.values (g : Geometry) (s : Statement) : List Value :=
  s.tableValues g ++ s.filterValues g

end ObjectQuery.Sql
