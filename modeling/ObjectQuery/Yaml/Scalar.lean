import ObjectQuery.Number.Digits
import ObjectQuery.Yaml.Glyph

/-!
# Scalars

A scalar is written plainly, between quotes, or as an indented block.  In the first two forms,
and in a folded block, a line break is folded: a single one counts as a blank, and of several
the first is dropped.

## Main Definitions

* `fold`, `foldGap` — the text of the breaks between two lines, and of a gap between words
* `plain?` — a scalar without quotes
* `quoted?` — a scalar between single or double quotes
* `block?` — a literal or folded block
-/

namespace ObjectQuery.Yaml

open ObjectQuery.Number

/-! ### Folding -/

/-- The text of a run of line breaks between two lines. -/
def fold : List Char → List Char
  | ['\n'] => [' ']
  | '\n' :: more => more
  | breaks => breaks

/-- The text of a gap between two words: blanks are kept within a line, and dropped around
breaks. -/
def foldGap (gap : List Char) : List Char :=
  match gap.filter isBreak with
  | [] => gap
  | breaks => fold breaks

/-! ### Plain scalars -/

/-- Whether a glyph is one of the marks of flow collections. -/
def isFlowMark (g : Glyph) : Bool :=
  g.char == ',' || g.char == '[' || g.char == ']' || g.char == '\x7b' || g.char == '\x7d'

/-- Whether a colon is followed by a mark that makes its meaning unclear in a flow
collection. -/
def atUnclearColon : List Glyph → Bool
  | g :: next :: _ => g.char == ':' && (isFlowMark next || next.char == '?')
  | _ => false

/-- Whether a plain scalar ends in front of a glyph that is no gap. -/
def endsPlain (flow : Bool) : List Glyph → Bool
  | [] => true
  | g :: rest => (g.char == ':' && atGap rest) || (flow && isFlowMark g)

/-- What is known of a scalar that has been read. -/
structure Read where
  /-- The text of the scalar. -/
  text : List Char
  /-- Whether a line ended behind its last word. -/
  ended : Bool
  /-- What follows. -/
  rest : List Glyph

/-- A scalar with a text in front of its own. -/
def Read.after (start : List Char) (r : Read) : Read := { r with text := start ++ r.text }

/-- A plain scalar from a place inside it, behind a gap.  Lines that continue it outside of
flow collections stand at column `floor` or later.  None if a tab stands in the indentation of
such a line or a colon is unclear. -/
def plain? (flow : Bool) (floor : Nat) (gap : List Char) : List Glyph → Option Read
  | [] => some ⟨[], gap.any isBreak, []⟩
  | g :: rest =>
    if g.isGap then
      if g.char == '\t' && gap.any isBreak && g.column < floor then none
      else plain? flow floor (gap ++ [g.char]) rest
    else
      let ends := ⟨[], gap.any isBreak, g :: rest⟩
      if !gap.isEmpty && ((!flow && g.column < floor) || g.char == '#' || atMarker (g :: rest))
      then some ends
      else if flow && atUnclearColon (g :: rest) then none
      else if endsPlain flow (g :: rest) then some ends
      else (plain? flow floor [] rest).map (Read.after (foldGap gap ++ [g.char]))

/-! ### Quoted scalars -/

/-- The character that a letter behind a backslash stands for. -/
def escaped? (c : Char) : Option Char :=
  match c with
  | '0' => some '\x00'
  | 'a' => some '\x07'
  | 'b' => some '\x08'
  | 't' => some '\t'
  | '\t' => some '\t'
  | 'n' => some '\n'
  | 'v' => some '\x0b'
  | 'f' => some '\x0c'
  | 'r' => some '\r'
  | 'e' => some '\x1b'
  | ' ' => some ' '
  | '"' => some '"'
  | '/' => some '/'
  | '\\' => some '\\'
  | 'N' => some '\u0085'
  | '_' => some '\u00a0'
  | 'L' => some '\u2028'
  | 'P' => some '\u2029'
  | _ => none

/-- The number of hexadecimal digits behind a letter behind a backslash. -/
def codeLength? (c : Char) : Option Nat :=
  match c with
  | 'x' => some 2
  | 'u' => some 4
  | 'U' => some 8
  | _ => none

/-- The character with a code point, if there is one. -/
def charOfCode? (n : Nat) : Option Char := if n.isValidChar then some (Char.ofNat n) else none

/-- The character of an escape from behind its backslash, and its length there. -/
def escape? : List Glyph → Option (Char × Nat)
  | [] => none
  | g :: rest =>
    match codeLength? g.char with
    | some length =>
      if rest.length < length then none
      else (natOfDigits? 16 (chars (rest.take length))).bind fun code =>
        (charOfCode? code).map fun c => (c, length + 1)
    | none => (escaped? g.char).map fun c => (c, 1)

/-- A scalar between single quotes from a place inside it, behind a gap; a quote inside is
written twice. -/
def singleQuoted? (gap : List Char) : List Glyph → Option Read
  | [] => none
  | [g] => if g.char == '\'' then some ⟨foldGap gap, false, []⟩ else none
  | g :: next :: rest =>
    if g.isGap then singleQuoted? (gap ++ [g.char]) (next :: rest)
    else if atMarker (g :: next :: rest) then none
    else if g.char == '\'' then
      if next.char == '\'' then
        (singleQuoted? [] rest).map (Read.after (foldGap gap ++ ['\'']))
      else some ⟨foldGap gap, false, next :: rest⟩
    else (singleQuoted? [] (next :: rest)).map (Read.after (foldGap gap ++ [g.char]))

/-- The gap behind the words of a scalar between double quotes. -/
structure Gap where
  chars : List Char
  /-- Whether the gap starts with an escaped line break, which does not count. -/
  joined : Bool

/-- A gap with one more character. -/
def Gap.push (gap : Gap) (c : Char) : Gap := { gap with chars := gap.chars ++ [c] }

/-- The text of a gap: behind an escaped line break every further break counts. -/
def Gap.text (gap : Gap) : List Char :=
  if gap.joined then gap.chars.filter isBreak else foldGap gap.chars

/-- A scalar between double quotes from a place inside it, behind a gap. -/
def doubleQuoted? (gap : Gap) (gs : List Glyph) : Option Read :=
  match gs with
  | [] => none
  | [g] => if g.char == '"' then some ⟨gap.text, false, []⟩ else none
  | g :: next :: rest =>
    if g.isGap then doubleQuoted? (gap.push g.char) (next :: rest)
    else if atMarker (g :: next :: rest) then none
    else if g.char == '"' then some ⟨gap.text, false, next :: rest⟩
    else if g.char == '\\' then
      if next.isBreak then (doubleQuoted? ⟨[], true⟩ rest).map (Read.after gap.text)
      else (escape? (next :: rest)).bind fun (c, length) =>
        (doubleQuoted? ⟨[], false⟩ ((next :: rest).drop length)).map
          (Read.after (gap.text ++ [c]))
    else (doubleQuoted? ⟨[], false⟩ (next :: rest)).map (Read.after (gap.text ++ [g.char]))
termination_by gs.length
decreasing_by all_goals simp only [List.length_cons, List.length_drop]; omega

/-! ### Blocks -/

/-- What becomes of the line breaks behind the last line of a block. -/
inductive Chomping
  | strip
  | clip
  | keep
  deriving DecidableEq, Repr

/-- The start of a block: its mode of chomping, its indentation if given, and what follows the
line. -/
structure BlockHeader where
  chomping : Chomping
  increment : Option Nat
  rest : List Glyph

/-- The mode of chomping that a block starts with. -/
def takeChomping : List Glyph → Option Chomping × List Glyph
  | g :: rest =>
    if g.char == '-' then (some .strip, rest)
    else if g.char == '+' then (some .keep, rest)
    else (none, g :: rest)
  | [] => (none, [])

/-- The indentation that a block starts with; none if it is zero. -/
def takeIncrement? : List Glyph → Option (Option Nat × List Glyph)
  | g :: rest =>
    match digitValue? 10 g.char with
    | some 0 => none
    | some n => some (some n, rest)
    | none => some (none, g :: rest)
  | [] => some (none, [])

/-- A line that holds no more than blanks and a comment, and the lines behind it. -/
def endOfLine? (gs : List Glyph) : Option (List Glyph) :=
  match gs.dropWhile (·.isBlank) with
  | [] => some []
  | g :: rest =>
    if g.char == '#' then some ((rest.dropWhile (!·.isBreak)).drop 1)
    else if g.isBreak then some rest
    else none

/-- The start of a block from behind its mark; the two indicators stand in either order. -/
def blockHeader? (gs : List Glyph) : Option BlockHeader :=
  let (first, rest) := takeChomping gs
  (takeIncrement? rest).bind fun (increment, rest) =>
    let (last, rest) := if first.isNone && increment.isSome then takeChomping rest else (none, rest)
    (endOfLine? rest).map fun rest =>
      ⟨((first.orElse fun _ => last).getD .clip), increment, rest⟩

/-- The indentation of the first line of a block that is not blank, or a greater one of the
lines before it; none if a tab stands there. -/
def indentation? (greatest : Nat) : List Glyph → Option Nat
  | [] => some greatest
  | g :: rest =>
    if g.char == ' ' then indentation? (max greatest (g.column + 1)) rest
    else if g.char == '\t' then none
    else if g.isBreak then indentation? greatest rest
    else some greatest

/-- The lines of a block at an indentation, without it, and what follows them; none if a tab
stands in the indentation. -/
def blockLines? (indent : Nat) (inside : Bool) : List Glyph → Option (List Char × List Glyph)
  | [] => some ([], [])
  | g :: rest =>
    let keep (inside : Bool) : Option (List Char × List Glyph) :=
      (blockLines? indent inside rest).map fun (text, rest) => (g.char :: text, rest)
    if g.isBreak then keep false
    else if inside then keep true
    else if g.column < indent then
      if g.char == ' ' then blockLines? indent false rest
      else if g.char == '\t' then none
      else some ([], g :: rest)
    else if g.column == indent then keep true
    else some ([], g :: rest)

/-- The lines of a folded block from inside a line: breaks are folded between two lines that do
not start with a blank. -/
def foldLines (spaced : Bool) (breaks : List Char) : List Char → List Char
  | [] => breaks
  | c :: rest =>
    if isBreak c then foldLines spaced (breaks ++ [c]) rest
    else if breaks.isEmpty then c :: foldLines spaced [] rest
    else (if spaced || isBlank c then breaks else fold breaks) ++
      c :: foldLines (isBlank c) [] rest

/-- The text of a folded block: the breaks in front of its first line are kept. -/
def foldBlock (lines : List Char) : List Char :=
  lines.takeWhile isBreak ++
    match lines.dropWhile isBreak with
    | [] => []
    | c :: rest => c :: foldLines (isBlank c) [] rest

/-- The text of a block: its lines up to the last, and the breaks behind them as the mode of
chomping has it. -/
def blockText (folded : Bool) (chomping : Chomping) (lines : List Char) : List Char :=
  let trailing := (lines.reverse.takeWhile isBreak).reverse
  let body := lines.take (lines.length - trailing.length)
  let text := if folded then foldBlock body else body
  match chomping with
  | .strip => text
  | .clip => if body.isEmpty then [] else text ++ trailing.take 1
  | .keep => text ++ trailing

/-- A block from behind its mark, inside a collection at an indentation. -/
def block? (folded : Bool) (around : Option Nat) (gs : List Glyph) : Option Read :=
  (blockHeader? gs).bind fun header =>
    let indent? := match header.increment with
      | some n => some (around.getD 0 + n)
      | none => (indentation? 0 header.rest).map fun n =>
        max (max n 1) (around.elim 0 (· + 1))
    indent?.bind fun indent =>
      (blockLines? indent false header.rest).map fun (lines, rest) =>
        ⟨blockText folded header.chomping lines, true, rest⟩

end ObjectQuery.Yaml
