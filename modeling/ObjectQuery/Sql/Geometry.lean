import ObjectQuery.Sql.Value

/-!
# Geometry columns

A geometry column is only read through an expression of the database, and boxes are tested
by another one.

## Main Definitions

* `BoundingBox` — an axis-parallel rectangle
* `Geometry` — the expressions of a database for geometry columns
* `Geometry.simpleFeatures` — the expressions of the simple features standard
-/

namespace ObjectQuery.Sql

/-- An axis-parallel rectangle. -/
structure BoundingBox where
  minX : Float
  minY : Float
  maxX : Float
  maxY : Float

namespace BoundingBox

/-- The four coordinates as bind values. -/
def values (b : BoundingBox) : List Value :=
  [.float b.minX, .float b.minY, .float b.maxX, .float b.maxY]

/-- Whether two boxes have equal coordinates. -/
def same (a b : BoundingBox) : Bool :=
  a.minX == b.minX && a.minY == b.minY && a.maxX == b.maxX && a.maxY == b.maxY

end BoundingBox

/-- The expressions of a database for geometry columns.  The test against a box has one
placeholder for each of its bind values. -/
structure Geometry where
  /-- Reads a qualified column. -/
  read : String → String
  /-- Tests a qualified column against a box. -/
  touches : String → String
  /-- The bind values of the test. -/
  boxValues : BoundingBox → List Value := BoundingBox.values

/-- The expressions of the simple features standard, with an optional reference system. -/
def Geometry.simpleFeatures (srid : Option Int32) : Geometry where
  read column := "ST_AsText(" ++ column ++ ")"
  touches column :=
    match srid with
    | some id =>
      "ST_Intersects(" ++ column ++ ", ST_MakeEnvelope(?, ?, ?, ?, " ++ toString id.toInt ++ "))"
    | none => "ST_Intersects(" ++ column ++ ", ST_MakeEnvelope(?, ?, ?, ?))"

end ObjectQuery.Sql
