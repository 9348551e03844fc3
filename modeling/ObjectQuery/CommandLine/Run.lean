import ObjectQuery.Catalog.Document
import ObjectQuery.CommandLine.Options
import ObjectQuery.CommandLine.VariableFile
import ObjectQuery.Config.Document
import ObjectQuery.Definition.Build
import ObjectQuery.Definition.Reading
import ObjectQuery.Definition.Writing

/-!
# Running a command

What a command prints and how it ends follows from the words of the command line, the files and
the variables.

## Main Definitions

* `System` — the files and the variables
* `Failure` — what a command was doing when it failed, and why
* `compileQuery` — the statement that the options ask for
* `Outcome`, `run` — what a command line leads to
-/

namespace ObjectQuery.CommandLine

open ObjectQuery.Catalog (CatalogError Registry)
open ObjectQuery.Config (ConfigError Setting)
open ObjectQuery.Definition ObjectQuery.Query ObjectQuery.Sql

/-- The files by their paths, and the variables. -/
structure System where
  file? : String → Option String
  environment : Variables

/-- The path of the file of variables. -/
def variableFile : String := ".env"

/-- The variables with those of the file of variables. -/
def System.settings (s : System) : Variables :=
  match s.file? variableFile with
  | some text => s.environment.load text
  | none => s.environment

/-! ### Failures -/

/-- What a command was doing when it failed, and why; a file that cannot be read gives no
further cause. -/
inductive Failure
  | loadingConfig (path : String) (error : Option ConfigError)
  | readingVariables (error : ConfigError)
  | invalidConfig (error : ConfigError)
  | loadingCatalog (path : String) (error : CatalogError)
  | loadingQuery (path : String) (error : DefinitionError)
  | buildingGraph (error : DefinitionError)
  | compilingQuery (error : CompileError)

/-- What the command was doing. -/
def Failure.context : Failure → String
  | .loadingConfig path _ => "loading config " ++ path
  | .readingVariables _ => "reading REPOQUERY_* environment"
  | .invalidConfig _ => "invalid compiler config"
  | .loadingCatalog path _ => "loading catalog " ++ path
  | .loadingQuery path _ => "loading query " ++ path
  | .buildingGraph _ => "building query graph"
  | .compilingQuery _ => "compiling query"

/-- The wording of why it failed. -/
def Failure.cause : Failure → String
  | .loadingConfig _ none => "the file cannot be read"
  | .loadingConfig _ (some e) | .readingVariables e | .invalidConfig e =>
    e.message?.getD "the configuration cannot be read"
  | .loadingCatalog _ e => e.message
  | .loadingQuery _ e | .buildingGraph e => e.message
  | .compilingQuery e => e.message

/-! ### Compiling -/

/-- The configuration of a file or of the variables. -/
def loadConfig (s : System) (path : Option String) : Except Failure Config :=
  match path with
  | none => (Config.ofVariables s.settings).mapError .readingVariables
  | some path =>
    match s.file? path with
    | none => .error (.loadingConfig path none)
    | some text => (Config.ofText text).mapError fun e => .loadingConfig path (some e)

/-- A configuration with the settings that options put in place of its own. -/
def override (o : Options) (c : Config) : Config :=
  { c with
    maxDate := o.maxDate.getD c.maxDate
    statuses := if o.statuses.isEmpty then c.statuses else o.statuses }

/-- The catalog of a file. -/
def loadCatalog (s : System) (path : String) : Except Failure Registry :=
  let result := match s.file? path with
    | some text => Registry.ofText text
    | none => .error .unreadable
  result.mapError (.loadingCatalog path)

/-- The query definition of a file. -/
def loadQuery (s : System) (path : String) : Except Failure QueryDefinition :=
  match s.file? path with
  | none => .error (.loadingQuery path .unreadable)
  | some text =>
    match QueryDefinition.ofText? text with
    | some query => .ok query
    | none => .error (.loadingQuery path .malformed)

/-- The statement of a configuration, with the catalog and the query that options name. -/
def compileWith (s : System) (o : Options) (c : Config) : Except Failure Fragment := do
  let environment ← c.environment.mapError .invalidConfig
  let registry ← loadCatalog s o.catalog
  let query ← loadQuery s o.query
  let g ← (query.build registry.toCatalog c environment).mapError .buildingGraph
  (g.compile ⟨o.physical, o.geometry⟩).mapError .compilingQuery

/-- The statement that options ask for. -/
def compileQuery (s : System) (o : Options) : Except Failure Fragment := do
  let c ← loadConfig s o.config
  compileWith s o (override o c)

/-! ### Printing -/

/-- The lines that list bind values by their places, from a place on. -/
def valueLines (place : Nat) : List Value → String
  | [] => ""
  | value :: values =>
    "-- $" ++ toString place ++ " = " ++ value.display ++ "\n" ++ valueLines (place + 1) values

/-- A statement as it is printed: its text, and its values below a blank line. -/
def statementText (f : Fragment) : String :=
  f.sql ++ "\n" ++ if f.values.isEmpty then "" else "\n" ++ valueLines 1 f.values

/-- A statement as JSON. -/
def statementJson (f : Fragment) : Document.Json :=
  .ofPairs [("sql", .text f.sql), ("params", writeValues f.values)]

/-- What a statement prints. -/
def printed (o : Options) (f : Fragment) : String :=
  if o.json then (statementJson f).pretty ++ "\n" else statementText f

/-- What the version prints. -/
def versionText : String := "repoquery 0.3.0-dev\n"

/-- What help prints. -/
def helpText : String :=
  "Compiles declarative query definitions to SQL.\n\n" ++
  "Usage: repoquery compile --catalog FILE --query FILE [options]\n\n" ++
  "Options:\n" ++
  "  --catalog FILE         the catalog (YAML)\n" ++
  "  --query FILE           the query definition (YAML)\n" ++
  "  --config FILE          the configuration (YAML) in place of the REPOQUERY_* variables\n" ++
  "  --max-date DATE        the end of time\n" ++
  "  --link-status STATUS   an accepted status of link rows; may be repeated\n" ++
  "  --physical             join the tables instead of the views\n" ++
  "  --geometry             project geometry columns\n" ++
  "  --json                 print JSON\n"

/-! ### Outcomes -/

/-- What a command line leads to. -/
inductive Outcome
  | printed (text : String)
  | failed (failure : Failure)
  | refused (cause : UsageError)

namespace Outcome

/-- The exit code. -/
def exitCode : Outcome → Nat
  | .printed _ => 0
  | .failed _ => 1
  | .refused _ => 2

/-- The text on standard output. -/
def output : Outcome → String
  | .printed text => text
  | .failed _ | .refused _ => ""

/-- What the command was doing when it failed. -/
def context? : Outcome → Option String
  | .failed failure => some failure.context
  | .printed _ | .refused _ => none

/-- The text on standard error. -/
def report : Outcome → String
  | .printed _ => ""
  | .failed failure =>
    "Error: " ++ failure.context ++ "\n\nCaused by:\n    " ++ failure.cause ++ "\n"
  | .refused cause => "error: " ++ cause.message ++ "\n"

end Outcome

/-- What a command leads to. -/
def Command.run (s : System) : Command → Outcome
  | .help => .printed helpText
  | .version => .printed versionText
  | .compile options =>
    match compileQuery s options with
    | .ok f => .printed (CommandLine.printed options f)
    | .error failure => .failed failure

/-- What a command line leads to. -/
def run (s : System) (words : List String) : Outcome :=
  match Command.ofWords words with
  | .ok command => command.run s
  | .error cause => .refused cause

/-- The files that a command reads. -/
def Command.paths : Command → List String
  | .compile o => variableFile :: o.catalog :: o.query :: o.config.toList
  | .help | .version => []

/-- The variables that a configuration is read from. -/
def variableNames : List String :=
  [Config.linkTableVariable, Config.linkSchemaVariable, Config.maxDateVariable,
    Config.statusesVariable, Config.sridVariable]

end ObjectQuery.CommandLine
