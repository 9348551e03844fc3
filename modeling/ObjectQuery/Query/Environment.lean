import ObjectQuery.Calendar.DateTime
import ObjectQuery.Query.Link
import ObjectQuery.Sql.Rendering

/-!
# Compile environments

## Main Definitions

* `Environment` — the dialect, the end of time and the geometry expressions of a database
* `Shared` — a value under a handle that tells it from other values
* `Mode` — what a single compilation asks for
-/

namespace ObjectQuery.Query

open ObjectQuery.Sql ObjectQuery.Calendar

/-- What a database expects. -/
structure Environment where
  dialect : Dialect
  /-- The end of validity of the rows that were never deleted. -/
  maxDate : DateTime
  geometry : Geometry

/-- Standard SQL with the expressions of the simple features standard. -/
def Environment.standard : Environment :=
  ⟨.standard, .endOfTime, .simpleFeatures none⟩

/-- A value under a handle; two shared values are one if their handles agree. -/
structure Shared (α : Type) where
  handle : Nat
  value : α

/-- Whether two optional shared values are one. -/
def Shared.same {α : Type} : Option (Shared α) → Option (Shared α) → Bool
  | none, none => true
  | some a, some b => a.handle == b.handle
  | _, _ => false

/-- What a single compilation asks for. -/
structure Mode where
  /-- Repository and type tables in place of views. -/
  physical : Bool := false
  /-- Geometry columns in the select list. -/
  geometry : Bool := false
  deriving DecidableEq, Repr

end ObjectQuery.Query
