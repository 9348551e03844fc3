import ObjectQuery.Calendar.Reading
import ObjectQuery.Query.Compile

/-!
# Compiler configuration

## Main Definitions

* `Config` — dates, words, link table and reference system as they are configured
* `Violation`, `Config.violations` — what a configuration has to meet
* `ConfigError` — why a configuration cannot be used
* `Config.environment` — the compile environment of a configuration
* `Config.configure` — a graph with the configured link table
-/

namespace ObjectQuery.Config

open ObjectQuery.Calendar ObjectQuery.Number ObjectQuery.Query ObjectQuery.Sql

/-- The format of configured dates, as messages show it. -/
def dateFormat : String := "%Y-%m-%d %H:%M:%S"

end ObjectQuery.Config

namespace ObjectQuery

open Query in
/-- The settings of the compiler as they are written down. -/
structure Config where
  maxDate : String := "9999-12-31 23:59:59"
  /-- Words in place of those of standard SQL. -/
  keywords : List (String × String) := []
  linkTable : Option LinkTable := none
  /-- The accepted statuses of link rows; all if there are none. -/
  statuses : List String := []
  /-- The spatial reference system of boxes. -/
  srid : Option Int32 := none

end ObjectQuery

namespace ObjectQuery.Config

open ObjectQuery.Calendar ObjectQuery.Number ObjectQuery.Query ObjectQuery.Sql

/-- What is wrong with a configuration, in the order in which it is reported. -/
inductive Violation
  | negativeSrid
  | linkSchema
  | linkTable
  | maxDate
  deriving DecidableEq, Repr

/-- The path and the wording of a violation. -/
def Violation.message : Violation → String
  | .negativeSrid => "geometry_srid: Geometry SRID cannot be negative"
  | .linkSchema => "link_table.schema: link table schema must be a plain SQL identifier"
  | .linkTable => "link_table.table: link table name must be a plain SQL identifier"
  | .maxDate => "max_date: max_date must match " ++ dateFormat

/-- Why a configuration cannot be used. -/
inductive ConfigError
  /-- A variable that must be text is not valid UTF-8. -/
  | undecodable (name : String)
  /-- A variable that must be a number is none. -/
  | badNumber (name value : String) (cause : IntegerError)
  /-- A document is not a configuration. -/
  | malformed
  | badMaxDate
  | invalid (violations : List Violation)
  deriving DecidableEq, Repr

/-- The wording of the causes that have one. -/
def ConfigError.message? : ConfigError → Option String
  | .badNumber name value cause =>
    some ("Parse error for " ++ name ++ ": " ++ value ++ " - " ++ cause.message)
  | .invalid violations => some (Text.joinWith "; " (violations.map Violation.message))
  | .undecodable _ | .malformed | .badMaxDate => none

/-- Whether a character may start a plain identifier. -/
def isIdentifierStart (c : Char) : Bool :=
  ('A' ≤ c && c ≤ 'Z') || ('a' ≤ c && c ≤ 'z') || c = '_'

/-- Whether a text is a plain SQL identifier: letters, digits and underscores of ASCII, not
starting with a digit. -/
def isIdentifier (text : String) : Bool :=
  match text.toList with
  | [] => false
  | c :: rest => isIdentifierStart c && rest.all fun c => isIdentifierStart c || isDigit c

/-- What is wrong with a configuration. -/
def violations (c : Config) : List Violation :=
  (if c.srid.any fun id => id.toInt < 0 then [.negativeSrid] else []) ++
    (if c.linkTable.any fun t => !isIdentifier t.schema then [.linkSchema] else []) ++
    (if c.linkTable.any fun t => !isIdentifier t.table then [.linkTable] else []) ++
    (if (DateTime.ofConfigured? c.maxDate).isNone then [.maxDate] else [])

/-- The configuration if nothing is wrong with it. -/
def validate (c : Config) : Except ConfigError Config :=
  match c.violations with
  | [] => .ok c
  | violations => .error (.invalid violations)

/-- The configured end of time. -/
def parsedMaxDate (c : Config) : Except ConfigError DateTime :=
  match DateTime.ofConfigured? c.maxDate with
  | some date => .ok date
  | none => .error .badMaxDate

/-- The compile environment of a valid configuration. -/
def environment (c : Config) : Except ConfigError Environment := do
  let c ← c.validate
  let maxDate ← c.parsedMaxDate
  return ⟨.withOverrides c.keywords, maxDate, .simpleFeatures c.srid⟩

/-- A graph with the configured link table and statuses. -/
def configure (c : Config) (g : Graph) : Graph :=
  { g with linkTable := c.linkTable, statuses := c.statuses }

/-! ### Variables -/

/-- The value of an environment variable. -/
inductive Setting
  | unset
  | text (value : String)
  /-- The value is not valid UTF-8. -/
  | undecodable
  deriving DecidableEq, Repr

/-- The text of a variable that may be missing or undecodable. -/
def Setting.text? : Setting → Option String
  | .text value => some value
  | _ => none

/-- The variable that names the link table. -/
def linkTableVariable : String := "REPOQUERY_LINK_TABLE"

/-- The variable that names the schema of the link table. -/
def linkSchemaVariable : String := "REPOQUERY_LINK_SCHEMA"

/-- The variable that holds the end of time. -/
def maxDateVariable : String := "REPOQUERY_MAX_DATE"

/-- The variable that lists the accepted statuses. -/
def statusesVariable : String := "REPOQUERY_LINK_STATUSES"

/-- The variable that holds the spatial reference system. -/
def sridVariable : String := "REPOQUERY_GEOMETRY_SRID"

/-- The configuration that variables give: the link table counts only if it is set, and the
schema, the date and the statuses fall back to their defaults. -/
def ofVariables (setting : String → Setting) : Except ConfigError Config := do
  let linkTable : Option LinkTable ← match setting linkTableVariable with
    | .unset => pure none
    | .text table =>
      pure (some ⟨((setting linkSchemaVariable).text?).getD "core", table, {}⟩)
    | .undecodable => throw (.undecodable linkTableVariable)
  let srid : Option Int32 ← match setting sridVariable with
    | .unset => pure none
    | .text value =>
      match readInt32 value with
      | .ok id => pure (some id)
      | .error cause => throw (.badNumber sridVariable value cause)
    | .undecodable => throw (.undecodable sridVariable)
  let default : Config := {}
  validate {
    maxDate := ((setting maxDateVariable).text?).getD default.maxDate
    linkTable
    statuses := ((setting statusesVariable).text?).elim [] Text.commaItems
    srid }

end ObjectQuery.Config
