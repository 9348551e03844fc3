import ObjectQuery.Catalog.Descriptor
import ObjectQuery.Query.Error
import ObjectQuery.Query.Scope

/-!
# Links between nodes

A link says how a node relates to the node in front of it.  Planning a link checks it and
gives the columns to compare, or the end of the link table that faces the node in front.

## Main Definitions

* `Link` — the relationships between two nodes
* `LinkTable` — the table that holds links between objects
* `JoinPlan`, `Link.plan` — a checked link
* `JoinPlan.conditions` — the conditions of a join that needs no link table
-/

namespace ObjectQuery.Query

open ObjectQuery.Sql (ColumnRef Expr)

/-- The two ends of a link row. -/
inductive LinkEnd
  | first
  | second
  deriving DecidableEq, Repr

/-- The relationship of a node to the node in front of it. -/
inductive Link
  /-- The next node is the parent that the previous one names. -/
  | child
  /-- The next node names the previous one as its parent. -/
  | parent
  /-- Columns of the previous node equal columns of the next, pair by pair. -/
  | custom (left right : List String)
  /-- A condition taken as it is. -/
  | freeText (sql : String)
  /-- A row of the link table whose near end holds the previous node. -/
  | linkRow (near : LinkEnd) (linkType : Option Int64)
  /-- A column of the next node holds the previous object. -/
  | denormalized (field : String)
  /-- A column of the previous node holds the next object. -/
  | denormalizedReverse (field : String)
  /-- A column of the previous node equals a column of the next. -/
  | denormalizedFull (left right : String)
  deriving DecidableEq

/-- Whether a link goes through the link table. -/
def Link.usesLinkTable : Link → Bool
  | .linkRow _ _ => true
  | _ => false

/-- Checks the column lists of a custom join. -/
def checkLists (left right : List String) : Except CompileError Unit :=
  if left.length ≠ right.length ∨ left.isEmpty then
    .error (.joinConfiguration (.unequalLists left.length right.length))
  else .ok ()

/-- The custom join of two column lists, if they are not empty and equally long. -/
def Link.ofLists (left right : List String) : Except CompileError Link := do
  checkLists left right
  return .custom left right

/-! ### The link table -/

/-- The names of the columns of the link table. -/
structure LinkColumns where
  linkType : String := "link_type_id"
  object1 : String := "link_obj_id_1"
  object2 : String := "link_obj_id_2"
  status : String := Catalog.status
  validFrom : String := Catalog.validFrom
  validTo : String := Catalog.validTo
  deriving DecidableEq, Repr

namespace LinkColumns

/-- All columns in the order in which they are selected. -/
def all (c : LinkColumns) : List String :=
  [c.linkType, c.object1, c.object2, c.status, c.validFrom, c.validTo]

/-- The column that holds the object at an end. -/
def endColumn (c : LinkColumns) : LinkEnd → String
  | .first => c.object1
  | .second => c.object2

theorem endColumn_mem (c : LinkColumns) (e : LinkEnd) : c.endColumn e ∈ c.all := by
  cases e <;> simp [endColumn, all]

end LinkColumns

/-- The other end of a link row. -/
def LinkEnd.opposite : LinkEnd → LinkEnd
  | .first => .second
  | .second => .first

/-- The table that holds links between objects. -/
structure LinkTable where
  schema : String
  table : String
  columns : LinkColumns := {}
  deriving DecidableEq, Repr

namespace LinkTable

/-- The name of the table behind its schema. -/
def qualifiedName (t : LinkTable) : String := t.schema ++ "." ++ t.table

/-- The alias of the link row that leads to a node. -/
def aliasTo (target : String) : String := "lnk" ++ target

/-- The condition that a link row has an accepted status; none if all are accepted. -/
def statusFilter (t : LinkTable) (aliasName : String) (statuses : List String) : Option Expr :=
  if statuses.isEmpty then none else some (.hasStatus ⟨aliasName, t.columns.status⟩ statuses)

end LinkTable

/-! ### Plans -/

/-- A checked link. -/
inductive JoinPlan
  /-- Columns of the previous node with the columns of the next that they equal, and whether
  the next node is written first. -/
  | columns (pairs : List (String × String)) (nextFirst : Bool)
  | freeText (sql : String)
  | linkTable (linkType : Int64) (near : LinkEnd)
  deriving DecidableEq

/-- Checks a link. -/
def Link.plan : Link → Except CompileError JoinPlan
  | .child => .ok (.columns [(Catalog.parentId, Catalog.objectId)] true)
  | .parent => .ok (.columns [(Catalog.objectId, Catalog.parentId)] true)
  | .custom left right => do
    checkLists left right
    return .columns (left.zip right) false
  | .freeText sql => .ok (.freeText sql)
  | .linkRow near (some linkType) => .ok (.linkTable linkType near)
  | .linkRow near none => .error (.unresolvedLink (.noLinkType (near == .second)))
  | .denormalized field => .ok (.columns [(Catalog.objectId, field)] false)
  | .denormalizedReverse field => .ok (.columns [(field, Catalog.objectId)] false)
  | .denormalizedFull left right => .ok (.columns [(left, right)] false)

/-- The equality of two columns. -/
def equality (left right : ColumnRef) : Expr := .compareColumns left .equal right

/-- The conditions of a join without a link table. -/
def JoinPlan.conditions (previous next : Scope) : JoinPlan → List Expr
  | .columns pairs nextFirst =>
    pairs.map fun (p, n) =>
      if nextFirst then equality (next.column n) (previous.column p)
      else equality (previous.column p) (next.column n)
  | .freeText sql => [.raw sql []]
  | .linkTable _ _ => []

end ObjectQuery.Query
