/-!
# Descriptors of object types

Every object type is stored in two tables: a repository table with the system columns and a
type table with its own columns, joined on the row identifier of the type table.  A view shows
the joined rows.

## Main Definitions

* `FieldType`, `Field` — columns
* `Table` — the storage of an object type
* `LinkType` — a relationship between two object types kept in the link table
-/

namespace ObjectQuery.Catalog

/-! ### System columns -/

/-- The identifier of an object. -/
def objectId : String := "object_id"

/-- The identifier of a row. -/
def rowKey : String := "pkid"

/-- The identifier of the object that contains an object. -/
def parentId : String := "parent_id"

/-- The time at which a row became valid. -/
def validFrom : String := "dt_insert"

/-- The time at which a row ceased to be valid. -/
def validTo : String := "dt_delete"

/-- The status of a row. -/
def status : String := "status"

/-- The user who wrote a row. -/
def userId : String := "user_id"

/-! ### Tables -/

/-- The type of a column. -/
inductive FieldType
  | integer
  | float
  | text
  | date
  | bool
  | geometry
  deriving DecidableEq, Repr

namespace FieldType

/-- All types of columns. -/
def all : List FieldType := [integer, float, text, date, bool, geometry]

/-- The written name of a type. -/
def name : FieldType → String
  | integer => "integer"
  | float => "float"
  | text => "text"
  | date => "date"
  | bool => "bool"
  | geometry => "geometry"

end FieldType

/-- A column of a table. -/
structure Field where
  name : String
  type : FieldType := .text
  deriving DecidableEq, Repr

/-- Whether a column holds geometry. -/
def Field.isGeometry (f : Field) : Bool := f.type == .geometry

/-- The system columns in the order in which they are selected. -/
def systemFields : List Field :=
  [⟨objectId, .integer⟩, ⟨rowKey, .integer⟩, ⟨parentId, .integer⟩, ⟨validFrom, .date⟩,
    ⟨validTo, .date⟩, ⟨status, .text⟩, ⟨userId, .integer⟩]

/-- The storage of an object type. -/
structure Table where
  objectType : Int64
  name : String
  schema : String
  tableName : String
  repository : String := "repository"
  /-- The column of the type table that holds the row identifier. -/
  rowColumn : String := rowKey
  repositoryFields : List Field := systemFields
  typeFields : List Field := []
  deriving DecidableEq

namespace Table

/-- The table with the standard repository and, in front of its own columns, a row
identifier. -/
def ofFields (objectType : Int64) (name schema tableName : String) (fields : List Field) :
    Table :=
  { objectType, name, schema, tableName, typeFields := ⟨rowKey, .integer⟩ :: fields }

/-- The name of the view. -/
def viewName (t : Table) : String := t.schema ++ ".v_" ++ t.tableName

/-- The name of the type table. -/
def typeTableName (t : Table) : String := t.schema ++ "." ++ t.tableName

/-- The name of the repository table. -/
def repositoryName (t : Table) : String := t.schema ++ "." ++ t.repository

/-- All columns, the system columns first. -/
def fields (t : Table) : List Field := t.repositoryFields ++ t.typeFields

/-- Whether a name is that of a system column. -/
def isRepositoryField (t : Table) (name : String) : Bool :=
  t.repositoryFields.any fun f => f.name == name

/-- Whether a name is that of a geometry column. -/
def isGeometryField (t : Table) (name : String) : Bool :=
  t.fields.any fun f => f.name == name && f.isGeometry

/-- The columns of the type table without the row identifier. -/
def ownFields (t : Table) : List Field := t.typeFields.filter fun f => f.name != t.rowColumn

/-- The columns that are selected unless a node lists its own. -/
def selectedFields (t : Table) : List Field := t.repositoryFields ++ t.ownFields

end Table

/-- A relationship between two object types kept in the link table. -/
structure LinkType where
  id : Int64
  name : String
  typeA : Int64
  typeB : Int64
  deriving DecidableEq

/-- Whether a link type has a name and connects two object types, in either order. -/
def LinkType.connects (l : LinkType) (name : String) (a b : Int64) : Bool :=
  l.name == name && ((l.typeA == a && l.typeB == b) || (l.typeA == b && l.typeB == a))

end ObjectQuery.Catalog
