import ObjectQuery.Config.Basic
import ObjectQuery.Text.Alphanumeric

/-!
# Files of variables

A file of variables holds one assignment a line.  A value may be quoted, go on over several
lines inside quotes, and refer to variables; comments follow a blank.  The variables that are
set already keep their values, and reading ends at the first line that cannot be read.

## Main Definitions

* `Variables` — the variables that are set
* `statements` — the lines of a file, with quoted ones joined
* `assignment?` — the variable that a line sets
* `Variables.load` — the variables after reading a file
* `mentioned` — the names that a file may refer to
-/

namespace ObjectQuery.CommandLine

open ObjectQuery.Config (Setting)

/-- The variables that are set. -/
abbrev Variables := String → Setting

/-- The variables with one more. -/
def Variables.set (vs : Variables) (name value : String) : Variables :=
  fun n => if n == name then .text value else vs n

/-- The text of a variable; empty if it has none. -/
def Variables.textOf (vs : Variables) (name : String) : String := ((vs name).text?).getD ""

/-! ### Lines -/

/-- Where a line stands between quotes, blanks and escapes. -/
inductive Quoting
  | outside
  /-- Behind a blank. -/
  | blank
  /-- Behind a backslash. -/
  | escape
  | single
  | singleEscape
  | double
  | doubleEscape
  deriving DecidableEq, Repr

/-- Where a line stands behind one more character; none if a comment starts there. -/
def Quoting.next (c : Char) : Quoting → Option Quoting
  | .outside =>
    if c == '\\' then some .escape
    else if c == '"' then some .double
    else if c == '\'' then some .single
    else if Text.isBlank c && c != '\n' && c != '\r' then some .blank
    else some .outside
  | .blank =>
    if c == '#' then none
    else if c == '\\' then some .escape
    else if c == '"' then some .double
    else if c == '\'' then some .single
    else some .outside
  | .escape => some .outside
  | .single =>
    some (if c == '\\' then .singleEscape else if c == '\'' then .outside else .single)
  | .singleEscape => some .single
  | .double => some (if c == '\\' then .doubleEscape else if c == '"' then .outside else .double)
  | .doubleEscape => some .double

/-- The part of a line in front of a comment, where the line ends there, or where it stands at
its end. -/
def Quoting.scan (read : List Char) (q : Quoting) : List Char → Except (List Char) Quoting
  | [] => .ok q
  | c :: rest =>
    match q.next c with
    | some q => q.scan (read ++ [c]) rest
    | none => .error read

/-- The lines of a text, each with its line feed. -/
def lines : List Char → List (List Char)
  | [] => []
  | c :: rest =>
    if c == '\n' then [c] :: lines rest
    else match lines rest with
      | [] => [[c]]
      | line :: more => (c :: line) :: more

/-- A line without the break at its end. -/
def withoutBreak (line : List Char) : List Char :=
  match line.reverse with
  | '\n' :: '\r' :: rest => rest.reverse
  | '\n' :: rest => rest.reverse
  | _ => line

/-- The statements of lines: a line that ends inside quotes or behind a blank goes on in the
next one, and a line that starts with a number sign counts for nothing.  None stands for a
statement that does not end. -/
def statements (read : List Char) (q : Quoting) : List (List Char) → List (Option (List Char))
  | [] => if q == .outside then [] else [none]
  | line :: rest =>
    if (Text.trimStart (read ++ line)).head? == some '#' then
      some [] :: statements [] .outside rest
    else match q.scan [] line with
      | .error part => some (read ++ part) :: statements [] .outside rest
      | .ok .outside => some (withoutBreak (read ++ line)) :: statements [] .outside rest
      | .ok q => statements (read ++ line) q rest

/-! ### Values -/

/-- The quotes around a place in a value. -/
inductive Quote
  | unquoted
  | single
  | double
  deriving DecidableEq, Repr

/-- What a value stands in at a place. -/
inductive ValueMode
  | text
  /-- Behind a backslash. -/
  | escape
  /-- Behind a blank, where only a comment may follow. -/
  | ended
  /-- In the name of a variable behind a dollar sign, which holds letters and numbers. -/
  | name (read : List Char)
  /-- In the name of a variable in braces. -/
  | braced (read : List Char)
  deriving DecidableEq, Repr

/-- The text of a value, with the variables it refers to; none if it cannot be read. -/
def valueText (vs : Variables) (mode : ValueMode) (quote : Quote) : List Char →
    Option (List Char)
  | [] =>
    match mode with
    | .braced _ => none
    | .name read => if quote == .unquoted then some (reference read) else none
    | _ => if quote == .unquoted then some [] else none
  | c :: rest =>
    let put (out : List Char) (quote : Quote) : Option (List Char) :=
      (valueText vs .text quote rest).map (out ++ ·)
    match mode with
    | .ended =>
      if c == ' ' || c == '\t' then valueText vs .ended quote rest
      else if c == '#' then if quote == .unquoted then some [] else none
      else none
    | .escape =>
      if c == 'n' then put ['\n'] quote
      else if c == '\\' || c == '\'' || c == '"' || c == '$' || c == ' ' then put [c] quote
      else none
    | .name read =>
      if Text.isAlphanumeric c then valueText vs (.name (read ++ [c])) quote rest
      else if c == '\x7b' && read.isEmpty then valueText vs (.braced []) quote rest
      else if c == '$' then (valueText vs (.name []) quote rest).map (reference read ++ ·)
      else put (reference read ++ [c]) quote
    | .braced read =>
      if c == '\x7d' then put (reference read) quote
      else valueText vs (.braced (read ++ [c])) quote rest
    | .text =>
      match quote with
      | .single => if c == '\'' then put [] .unquoted else put [c] .single
      | .double =>
        if c == '$' then valueText vs (.name []) .double rest
        else if c == '"' then put [] .unquoted
        else if c == '\\' then valueText vs .escape .double rest
        else put [c] .double
      | .unquoted =>
        if c == '$' then valueText vs (.name []) .unquoted rest
        else if c == '\'' then put [] .single
        else if c == '"' then put [] .double
        else if c == '\\' then valueText vs .escape .unquoted rest
        else if c == ' ' || c == '\t' then valueText vs .ended .unquoted rest
        else put [c] .unquoted
where
  /-- The characters of the variable with a name. -/
  reference (name : List Char) : List Char := (vs.textOf (String.ofList name)).toList

/-! ### Assignments -/

/-- Whether a character may start the name of a variable that a line sets. -/
def startsName (c : Char) : Bool := c.isAlpha || c == '_'

/-- Whether a character may stand in the name of a variable that a line sets. -/
def isNameChar (c : Char) : Bool := c.isAlphanum || c == '_' || c == '.'

/-- The name at the start of a line, and what follows behind blanks. -/
def takeName? (cs : List Char) : Option (List Char × List Char) :=
  if cs.head?.any startsName then
    some (cs.takeWhile isNameChar, Text.trimStart (cs.dropWhile isNameChar))
  else none

/-- What stands behind an equals sign. -/
def behindEquals? : List Char → Option (List Char)
  | '=' :: rest => some (Text.trimStart rest)
  | _ => none

/-- The name that a line sets and what stands for its value; the word `export` may stand in
front of the name. -/
def target? (cs : List Char) : Option (List Char × List Char) :=
  (takeName? cs).bind fun (name, rest) =>
    match behindEquals? rest with
    | some value => some (name, value)
    | none =>
      if name == "export".toList then
        (takeName? rest).bind fun (name, rest) =>
          (behindEquals? rest).map fun value => (name, value)
      else none

/-- The name and the text of the variable that a line sets. -/
def assignment? (vs : Variables) (line : List Char) : Option (String × String) :=
  (target? line).bind fun (name, value) =>
    if value.isEmpty || value.head? == some '#' then some (String.ofList name, "")
    else (valueText vs .text .unquoted value).map fun text =>
      (String.ofList name, String.ofList text)

/-- The variables after some statements; reading ends at the first that cannot be read. -/
def Variables.run (vs : Variables) : List (Option (List Char)) → Variables
  | [] => vs
  | none :: _ => vs
  | some line :: rest =>
    let line := Text.trim line
    if line.isEmpty || line.head? == some '#' then vs.run rest
    else match assignment? vs line with
      | none => vs
      | some (name, value) =>
        if ((vs name).text?).isSome then vs.run rest else (vs.set name value).run rest

/-- The variables after reading a file; a byte order mark in front counts for nothing. -/
def Variables.load (vs : Variables) (text : String) : Variables :=
  let cs := match text.toList with
    | '\ufeff' :: rest => rest
    | cs => cs
  vs.run (statements [] .outside (lines cs))

/-- The texts behind opening braces, each up to a closing one. -/
def braced : List Char → List (List Char)
  | [] => []
  | c :: rest =>
    if c == '\x7b' then rest.takeWhile (· != '\x7d') :: braced rest else braced rest

/-- The names that a file may set or refer to. -/
def mentioned (text : String) : List String :=
  let cs := text.toList
  let runs (isPart : Char → Bool) : List (List Char) :=
    Text.splitOn ' ' (cs.map fun c => if isPart c then c else ' ')
  (runs isNameChar ++ runs Text.isAlphanumeric ++ braced cs).map String.ofList

end ObjectQuery.CommandLine
