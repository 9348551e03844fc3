import ObjectQuery.Text.Blank

/-!
# Commands and options

The words of a command line are read from left to right; the first word that cannot be used, or
that asks for help, decides.

## Main Definitions

* `Options` — what the command that compiles a query is given
* `Command` — what a command line asks for
* `UsageError` — why a command line cannot be used
* `Command.ofWords` — the command of a command line
-/

namespace ObjectQuery.CommandLine

/-- What the command that compiles a query is given. -/
structure Options where
  /-- The path of the catalog. -/
  catalog : String
  /-- The path of the query definition. -/
  query : String
  /-- The path of the configuration; the variables count if there is none. -/
  config : Option String := none
  /-- The end of time, in place of the configured one. -/
  maxDate : Option String := none
  /-- The accepted statuses of link rows, in place of the configured ones. -/
  statuses : List String := []
  /-- Whether the tables are joined instead of the views. -/
  physical : Bool := false
  /-- Whether geometry columns are projected. -/
  geometry : Bool := false
  /-- Whether the result is printed as JSON. -/
  json : Bool := false
  deriving DecidableEq, Repr

/-- What a command line asks for. -/
inductive Command
  | compile (options : Options)
  | help
  | version
  deriving DecidableEq, Repr

/-- Why a command line cannot be used. -/
inductive UsageError
  | missingCommand
  | unknownCommand (word : String)
  | unexpected (word : String)
  | missingValue (option : String)
  | emptyValue (option : String)
  | unusedValue (option : String)
  | repeated (option : String)
  | missingOption (option : String)
  deriving DecidableEq, Repr

/-- The wording of each cause. -/
def UsageError.message : UsageError → String
  | .missingCommand => "a command is needed"
  | .unknownCommand word => "unknown command '" ++ word ++ "'"
  | .unexpected word => "unexpected argument '" ++ word ++ "'"
  | .missingValue option => "a value is needed for '--" ++ option ++ "'"
  | .emptyValue option => "the value of '--" ++ option ++ "' is empty"
  | .unusedValue option => "'--" ++ option ++ "' takes no value"
  | .repeated option => "'--" ++ option ++ "' is given more than once"
  | .missingOption option => "'--" ++ option ++ "' is needed"

/-- Why reading the options of a command stops before the last word. -/
inductive Stop
  | help
  | error (cause : UsageError)
  deriving DecidableEq, Repr

/-! ### Options -/

/-- The options with a value. -/
inductive ValueOption
  | catalog
  | query
  | config
  | maxDate
  | linkStatus
  deriving DecidableEq, Repr

/-- The options without a value. -/
inductive FlagOption
  | physical
  | geometry
  | json
  deriving DecidableEq, Repr

/-- The name of an option with a value. -/
def ValueOption.name : ValueOption → String
  | .catalog => "catalog"
  | .query => "query"
  | .config => "config"
  | .maxDate => "max-date"
  | .linkStatus => "link-status"

/-- The name of an option without a value. -/
def FlagOption.name : FlagOption → String
  | .physical => "physical"
  | .geometry => "geometry"
  | .json => "json"

/-- The option with a value that has a name. -/
def ValueOption.ofName? (name : String) : Option ValueOption :=
  [.catalog, .query, .config, .maxDate, .linkStatus].find? fun (o : ValueOption) => o.name == name

/-- The option without a value that has a name. -/
def FlagOption.ofName? (name : String) : Option FlagOption :=
  [.physical, .geometry, .json].find? fun (o : FlagOption) => o.name == name

/-- Whether the value of an option is a path, which cannot be empty. -/
def ValueOption.isPath : ValueOption → Bool
  | .catalog | .query | .config => true
  | .maxDate | .linkStatus => false

/-- The options read so far. -/
structure Draft where
  catalog : Option String := none
  query : Option String := none
  config : Option String := none
  maxDate : Option String := none
  statuses : List String := []
  physical : Bool := false
  geometry : Bool := false
  json : Bool := false
  deriving DecidableEq, Repr

namespace Draft

/-- Whether an option with a value was given and cannot be given again. -/
def taken (d : Draft) : ValueOption → Bool
  | .catalog => d.catalog.isSome
  | .query => d.query.isSome
  | .config => d.config.isSome
  | .maxDate => d.maxDate.isSome
  | .linkStatus => false

/-- Puts the value of an option. -/
def put (d : Draft) (value : String) : ValueOption → Draft
  | .catalog => { d with catalog := some value }
  | .query => { d with query := some value }
  | .config => { d with config := some value }
  | .maxDate => { d with maxDate := some value }
  | .linkStatus => { d with statuses := d.statuses ++ [value] }

/-- The value of an option, if it may be given. -/
def give (d : Draft) (option : ValueOption) (value : String) : Except Stop Draft :=
  if option.isPath && value.isEmpty then .error (.error (.emptyValue option.name))
  else if d.taken option then .error (.error (.repeated option.name))
  else .ok (d.put value option)

/-- Whether an option without a value was given. -/
def isSet (d : Draft) : FlagOption → Bool
  | .physical => d.physical
  | .geometry => d.geometry
  | .json => d.json

/-- Sets an option without a value, if it is not set yet. -/
def set (d : Draft) (option : FlagOption) : Except Stop Draft :=
  if d.isSet option then .error (.error (.repeated option.name))
  else match option with
    | .physical => .ok { d with physical := true }
    | .geometry => .ok { d with geometry := true }
    | .json => .ok { d with json := true }

/-- The options of a command, if those that are needed are given. -/
def finish (d : Draft) : Except Stop Options :=
  match d.catalog, d.query with
  | some catalog, some query =>
    .ok ⟨catalog, query, d.config, d.maxDate, d.statuses, d.physical, d.geometry, d.json⟩
  | none, _ => .error (.error (.missingOption ValueOption.catalog.name))
  | _, none => .error (.error (.missingOption ValueOption.query.name))

end Draft

/-! ### Words -/

/-- The form of a word. -/
inductive Word
  /-- Two dashes, which end the options. -/
  | endOfOptions
  /-- Two dashes with a name, and a value behind an equals sign. -/
  | long (name : String) (value : Option String)
  /-- A dash with letters. -/
  | short (letters : List Char)
  | bare (text : String)
  deriving DecidableEq, Repr

/-- The form of a word; a dash alone is an ordinary word. -/
def Word.ofText (text : String) : Word :=
  match text.toList with
  | ['-', '-'] => .endOfOptions
  | '-' :: '-' :: rest =>
    let value := (rest.dropWhile (· != '=')).drop 1
    .long (String.ofList (rest.takeWhile (· != '=')))
      (if rest.contains '=' then some (String.ofList value) else none)
  | '-' :: c :: rest => .short (c :: rest)
  | _ => .bare text

/-- The options of the command that compiles a query, behind those read so far. -/
def readOptions (d : Draft) : List String → Except Stop Draft
  | [] => .ok d
  | text :: rest =>
    match Word.ofText text with
    | .endOfOptions =>
      match rest with
      | [] => .ok d
      | word :: _ => .error (.error (.unexpected word))
    | .short letters =>
      if letters.head? == some 'h' then .error .help else .error (.error (.unexpected text))
    | .bare _ => .error (.error (.unexpected text))
    | .long name value? =>
      match ValueOption.ofName? name, FlagOption.ofName? name, value? with
      | some option, _, some value => do readOptions (← d.give option value) rest
      | some option, _, none =>
        match rest with
        | [] => .error (.error (.missingValue name))
        | next :: rest =>
          match Word.ofText next with
          | .bare value => do readOptions (← d.give option value) rest
          | _ => .error (.error (.missingValue name))
      | none, some option, none => do readOptions (← d.set option) rest
      | none, some _, some _ => .error (.error (.unusedValue name))
      | none, none, none => .error (if name == "help" then .help else .error (.unexpected text))
      | none, none, some _ =>
        .error (.error (if name == "help" then .unusedValue name else .unexpected text))

/-! ### Commands -/

/-- The name of the command that compiles a query. -/
def compileName : String := "compile"

/-- The name of the command that explains the others. -/
def helpName : String := "help"

/-- The command that compiles a query with the options that follow its name. -/
def Command.ofOptions (words : List String) : Except UsageError Command :=
  match (readOptions {} words).bind Draft.finish with
  | .ok options => .ok (.compile options)
  | .error .help => .ok .help
  | .error (.error cause) => .error cause

/-- The command that explains the one that follows its name; no command has commands of its
own. -/
def Command.ofHelp : List String → Except UsageError Command
  | [] => .ok .help
  | [name] => if name == compileName || name == helpName then .ok .help
    else .error (.unknownCommand name)
  | name :: next :: _ =>
    .error (.unknownCommand (if name == compileName || name == helpName then next else name))

/-- The command of a command line. -/
def Command.ofWords : List String → Except UsageError Command
  | [] => .error .missingCommand
  | text :: rest =>
    match Word.ofText text with
    | .bare _ =>
      if text == compileName then Command.ofOptions rest
      else if text == helpName then Command.ofHelp rest
      else .error (.unknownCommand text)
    | .short ('h' :: _) => .ok .help
    | .short ('V' :: _) => .ok .version
    | .long "help" none => .ok .help
    | .long "version" none => .ok .version
    | .endOfOptions => .error .missingCommand
    | _ => .error (.unexpected text)

end ObjectQuery.CommandLine
