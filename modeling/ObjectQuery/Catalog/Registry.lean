import ObjectQuery.Catalog.Descriptor

/-!
# Registries of object types

A registry holds the object types and link types of a database.  Tables are told apart by
their object type and by their name, link types by their identifier.

## Main Definitions

* `CatalogError` — why a look-up or a registration fails
* `Catalog` — the look-ups that building a query needs
* `Registry` — tables by object type, object types by name, and link types
* `Registry.enterTable`, `Registry.enterLinkType` — registration
* `Registry.addTable`, `Registry.addLinkType`, `Registry.ofEntries` — accepted registrations
* `Registry.toCatalog` — the look-ups of a registry

## Design Notes

A table is stored once, under its object type; its name leads to the object type.  A
registration answers with the registry that it leaves behind, also when it is refused, so that
nothing is assumed about what a refused registration has done.
-/

namespace ObjectQuery.Catalog

/-- What two registrations collide on. -/
inductive DuplicateEntry
  | objectType (id : Int64)
  | table (name : String)
  | linkType (id : Int64)
  deriving DecidableEq

/-- Why a look-up or a registration fails. -/
inductive CatalogError
  | unknownObjectType (id : Int64)
  | unknownTable (name : String)
  | unknownLinkType (name : String) (typeA typeB : Int64)
  | duplicate (entry : DuplicateEntry)
  | unreadable
  | malformed
  deriving DecidableEq

/-- The wording of a collision. -/
def DuplicateEntry.message : DuplicateEntry → String
  | .objectType id => "object type " ++ toString id.toInt
  | .table name => "table `" ++ name ++ "`"
  | .linkType id => "link type " ++ toString id.toInt

namespace CatalogError

/-- The wording of each cause. -/
def message : CatalogError → String
  | unknownObjectType id => "No table descriptor registered for object type " ++ toString id.toInt
  | unknownTable name => "No table descriptor registered under the name `" ++ name ++ "`"
  | unknownLinkType name typeA typeB =>
    "No link type `" ++ name ++ "` between object types " ++ toString typeA.toInt ++ " and " ++
      toString typeB.toInt
  | duplicate entry => "Duplicate catalog entry: " ++ entry.message
  | unreadable => "Failed to read catalog file"
  | malformed => "Failed to parse catalog"

/-- An unknown table, with the place that asked for it. -/
def unknownTableIn (name context : String) : CatalogError :=
  unknownTable (name ++ "\n  Context: " ++ context)

end CatalogError

end ObjectQuery.Catalog

namespace ObjectQuery

open Catalog in
/-- The look-ups that building a query needs. -/
structure Catalog where
  table : Int64 → Except CatalogError Table
  tableNamed : String → Except CatalogError Table
  fields : Int64 → Except CatalogError (List Field)
  linkType : String → Int64 → Int64 → Except CatalogError LinkType

end ObjectQuery

namespace ObjectQuery.Catalog

/-- Tables by object type, object types by name, and link types in the order of their
registration. -/
structure Registry where
  tables : List (Int64 × Table) := []
  objectTypes : List (String × Int64) := []
  linkTypes : List LinkType := []

namespace Registry

/-! ### Look-ups -/

/-- The table of an object type. -/
def table (r : Registry) (id : Int64) : Except CatalogError Table :=
  match r.tables.lookup id with
  | some t => .ok t
  | none => .error (.unknownObjectType id)

/-- The table of the object type that a name leads to. -/
def tableNamed (r : Registry) (name : String) : Except CatalogError Table :=
  match r.objectTypes.lookup name with
  | some id => r.table id
  | none => .error (.unknownTable name)

/-- The columns of the table of an object type. -/
def fields (r : Registry) (id : Int64) : Except CatalogError (List Field) :=
  (r.table id).map (·.fields)

/-- The first link type with a name between two object types, in either order. -/
def linkType (r : Registry) (name : String) (a b : Int64) : Except CatalogError LinkType :=
  match r.linkTypes.find? fun l => l.connects name a b with
  | some l => .ok l
  | none => .error (.unknownLinkType name a b)

/-- The look-ups of a registry. -/
def toCatalog (r : Registry) : Catalog where
  table := r.table
  tableNamed := r.tableNamed
  fields := r.fields
  linkType := r.linkType

/-! ### Registration -/

/-- Registers a table whose object type and name are new. -/
def enterTable (r : Registry) (t : Table) : Registry × Except CatalogError Unit :=
  if (r.tables.lookup t.objectType).isSome then
    (r, .error (.duplicate (.objectType t.objectType)))
  else if (r.objectTypes.lookup t.name).isSome then (r, .error (.duplicate (.table t.name)))
  else
    let named := { r with objectTypes := (t.name, t.objectType) :: r.objectTypes }
    ({ named with tables := (t.objectType, t) :: named.tables }, .ok ())

/-- Registers a link type whose identifier is new. -/
def enterLinkType (r : Registry) (l : LinkType) : Registry × Except CatalogError Unit :=
  if r.linkTypes.any fun m => m.id == l.id then (r, .error (.duplicate (.linkType l.id)))
  else ({ r with linkTypes := r.linkTypes ++ [l] }, .ok ())

/-- The registry behind a registration, unless it is refused. -/
def unlessRefused (answer : Registry × Except CatalogError Unit) :
    Except CatalogError Registry :=
  answer.2.map fun _ => answer.1

/-- The registry with one more table. -/
def addTable (r : Registry) (t : Table) : Except CatalogError Registry :=
  unlessRefused (r.enterTable t)

/-- The registry with one more link type. -/
def addLinkType (r : Registry) (l : LinkType) : Except CatalogError Registry :=
  unlessRefused (r.enterLinkType l)

/-- The registry with the given entries, tables first. -/
def ofEntries (tables : List Table) (linkTypes : List LinkType) :
    Except CatalogError Registry := do
  let r ← tables.foldlM addTable {}
  linkTypes.foldlM addLinkType r

end Registry

end ObjectQuery.Catalog
