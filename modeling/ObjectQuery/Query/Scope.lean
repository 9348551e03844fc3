import ObjectQuery.Sql.Statement

/-!
# Scopes

How the columns of one node are reached.  A view, a sub-query and a derived table show every
column under one alias; a repository table joined with a type table shows the system columns
under an alias of their own.

## Main Definitions

* `Scope` — the alias of a node, and the alias of its repository table if it has one
* `Scope.column` — a column under the alias that shows it
-/

namespace ObjectQuery.Query

open ObjectQuery.Sql (ColumnRef)

/-- A repository table beside a type table. -/
structure RepositorySide where
  aliasName : String
  columns : List String
  deriving DecidableEq, Repr

/-- How the columns of one node are reached. -/
structure Scope where
  aliasName : String
  repository : Option RepositorySide := none
  deriving DecidableEq, Repr

namespace Scope

/-- The scope that shows every column under one alias. -/
def uniform (aliasName : String) : Scope := ⟨aliasName, none⟩

/-- The alias that shows a column. -/
def aliasOf (s : Scope) (column : String) : String :=
  match s.repository with
  | some side => if side.columns.contains column then side.aliasName else s.aliasName
  | none => s.aliasName

/-- A column under the alias that shows it. -/
def column (s : Scope) (name : String) : ColumnRef := ⟨s.aliasOf name, name⟩

end Scope

end ObjectQuery.Query
