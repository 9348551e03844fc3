import ObjectQuery.Yaml.Token

/-!
# Layout

Lists and records that are shown by indentation begin at a dash, a question mark or the first
key, and end in front of a line that stands further to the left.  That a word is a key shows
only at the colon behind it, so that the places where a key may have started are remembered.

## Main Definitions

* `Layout` — the tokens read so far, with the open indentations and possible keys
* `Layout.step` — reads one token
* `tokens?` — the tokens of a text

## Design Notes

A possible key ends with its line, and after 1024 characters.  In a record shown by
indentation a word at the column of the record must be a key; if the colon does not follow, the
text is not read.
-/

namespace ObjectQuery.Yaml

open Document (Form)

/-- A place where a key may have started. -/
structure KeyStart where
  /-- The number of tokens in front of it. -/
  index : Nat
  line : Nat
  column : Nat
  /-- Whether it can be nothing but a key. -/
  required : Bool

/-- The state of reading tokens. -/
structure Layout where
  tokens : Array Token
  /-- The columns of the lists and records shown by indentation, innermost first. -/
  indents : List Nat
  /-- Whether a key may start at the next token. -/
  keyAllowed : Bool
  /-- The place where a key may have started, in the innermost collection. -/
  keyStart : Option KeyStart
  /-- The same for the collections around the one in brackets that is open. -/
  outer : List (Option KeyStart)
  /-- The names of anchors with the numbers of the last anchors that had them. -/
  anchors : List (String × Nat)

namespace Layout

/-- The state in front of a text. -/
def start : Layout := ⟨#[], [], true, none, [], []⟩

/-- Whether a collection in brackets is open. -/
def flow (s : Layout) : Bool := !s.outer.isEmpty

/-- The least column of a line that continues the innermost collection. -/
def floor (s : Layout) : Nat := s.indents.head?.elim 0 (· + 1)

/-- One more token. -/
def emit (s : Layout) (t : Token) : Layout := { s with tokens := s.tokens.push t }

/-- Tokens at an earlier place. -/
def emitAt (s : Layout) (index : Nat) (ts : List Token) : Layout :=
  { s with tokens :=
      s.tokens.extract 0 index ++ ts.toArray ++ s.tokens.extract index s.tokens.size }

/-! ### Indentation -/

/-- Ends the lists and records that stand further to the right than a column. -/
def dedentTo (s : Layout) (column : Nat) : Layout :=
  if s.flow then s
  else
    let ended := (s.indents.takeWhile (column < ·)).length
    { s with
      tokens := s.tokens ++ Array.replicate ended Token.dedent
      indents := s.indents.drop ended }

/-- Ends all lists and records that are shown by indentation. -/
def dedentAll (s : Layout) : Layout :=
  if s.flow then s
  else
    { s with
      tokens := s.tokens ++ Array.replicate s.indents.length Token.dedent
      indents := [] }

/-- Begins a list or record at a column, unless one is open there; `ts` are the tokens from its
beginning on, which stand at an earlier place. -/
def indentAt (s : Layout) (column index : Nat) (begins : Token) (ts : List Token) : Layout :=
  if !s.flow && s.floor ≤ column then
    { s.emitAt index (begins :: ts) with indents := column :: s.indents }
  else s.emitAt index ts

/-! ### Possible keys -/

/-- Gives up the place where a key may have started; none if it had to be one. -/
def forgetKey (s : Layout) : Option Layout :=
  if s.keyStart.any (·.required) then none else some { s with keyStart := none }

/-- A possible key at a place, if a key is allowed. -/
def markKey (s : Layout) (g : Glyph) : Option Layout :=
  if s.keyAllowed then
    s.forgetKey.map fun s =>
      { s with
        keyStart := some
          ⟨s.tokens.size, g.line, g.column, !s.flow && s.indents.head? == some g.column⟩ }
  else some s

/-- A possible key as seen from a later place: none if its line has ended or it is too long.
The outer none says that it had to be a key. -/
def expire (g : Glyph) : Option KeyStart → Option (Option KeyStart)
  | none => some none
  | some k =>
    if k.line < g.line || k.column + 1024 < g.column then
      if k.required then none else some none
    else some (some k)

/-- The state at a place, with the possible keys that still are. -/
def expireKeys (s : Layout) (g : Glyph) : Option Layout :=
  (expire g s.keyStart).bind fun keyStart =>
    (s.outer.mapM (expire g)).map fun outer => { s with keyStart := keyStart, outer := outer }

/-! ### Tokens -/

/-- A token that may start a key. -/
def emitKey (s : Layout) (g : Glyph) (t : Token) : Option Layout :=
  (s.markKey g).map fun s => { s.emit t with keyAllowed := false }

/-- The opening bracket of a collection. -/
def openFlow (s : Layout) (g : Glyph) (t : Token) : Option Layout :=
  (s.markKey g).map fun s =>
    { s.emit t with keyAllowed := true, keyStart := none, outer := s.keyStart :: s.outer }

/-- The closing bracket of a collection; outside of one it changes nothing but the tokens. -/
def closeFlow (s : Layout) (t : Token) : Option Layout :=
  s.forgetKey.map fun s =>
    match s.outer with
    | [] => { s.emit t with keyAllowed := false }
    | keyStart :: outer =>
      { s.emit t with keyAllowed := false, keyStart := keyStart, outer := outer }

/-- The mark of an item of a list. -/
def dash (s : Layout) (g : Glyph) : Option Layout :=
  if !s.flow && !s.keyAllowed then none
  else
    (s.indentAt g.column s.tokens.size .listBegin []).forgetKey.map fun s =>
      { s.emit .dash with keyAllowed := true }

/-- The mark of a key. -/
def questionMark (s : Layout) (g : Glyph) : Option Layout :=
  if !s.flow && !s.keyAllowed then none
  else
    (s.indentAt g.column s.tokens.size .recordBegin []).forgetKey.map fun s =>
      { s.emit .key with keyAllowed := !s.flow }

/-- The mark of a value: what stands at the possible key is the key. -/
def colon (s : Layout) (g : Glyph) : Option Layout :=
  match s.keyStart with
  | some k =>
    let s := s.indentAt k.column k.index .recordBegin [.key]
    some { s.emit .colon with keyStart := none, keyAllowed := false }
  | none =>
    if !s.flow && !s.keyAllowed then none
    else
      let s := s.indentAt g.column s.tokens.size .recordBegin []
      some { s.emit .colon with keyAllowed := !s.flow }

/-- The mark of a new document or of the end of one. -/
def marker (s : Layout) (t : Token) : Option Layout :=
  s.dedentAll.forgetKey.map fun s => { s.emit t with keyAllowed := false }

/-- An anchor; it gets the number of names known before it. -/
def anchor (s : Layout) (g : Glyph) (name : String) : Option Layout :=
  let id := s.anchors.length
  (s.emitKey g (.anchor id)).map fun s =>
    { s with anchors := (name, id) :: s.anchors.filter fun (known, _) => known != name }

/-- A reference to an anchor; none if no anchor has the name. -/
def reference (s : Layout) (g : Glyph) (name : String) : Option Layout :=
  (s.anchors.lookup name).bind fun id => s.emitKey g (.reference id)

/-- A scalar that is no block. -/
def scalar (s : Layout) (g : Glyph) (form : Form) (r : Read) : Option Layout :=
  (s.emitKey g (.scalar (String.ofList r.text) form)).map fun s =>
    { s with keyAllowed := s.keyAllowed || r.ended }

/-- A scalar that is a block. -/
def blockScalar (s : Layout) (form : Form) (r : Read) : Option Layout :=
  s.forgetKey.map fun s =>
    { s.emit (.scalar (String.ofList r.text) form) with keyAllowed := true }

/-- Whether a plain scalar may start at a place. -/
def startsPlain (s : Layout) (g : Glyph) (rest : List Glyph) : Bool :=
  if g.char == '-' then !(rest.head?.any (·.isBlank))
  else if g.char == '?' || g.char == ':' then !s.flow && !atGap rest
  else !g.isGap && !isFlowMark g && !("#&*!|>'\"%@`".toList.contains g.char)

/-- Reads the token at a place, behind the blanks and comments in front of it. -/
def step (s : Layout) (g : Glyph) (rest : List Glyph) : Option (Layout × List Glyph) := do
  let at? (c : Char) := g.char == c
  let word (s : Option Layout) : Option (Layout × List Glyph) := s.map fun s => (s, rest)
  if g.column == 0 && at? '%' then
    let (token, rest) ← directive? rest
    return (← s.marker token, rest)
  if atMarkerOf '-' (g :: rest) then
    return (← s.marker .documentStart, rest.drop 2)
  if atMarkerOf '.' (g :: rest) then
    return (← s.marker .documentEnd, rest.drop 2)
  if at? '[' then word (s.openFlow g .listOpen)
  else if at? '\x7b' then word (s.openFlow g .recordOpen)
  else if at? ']' then word (s.closeFlow .listClose)
  else if at? '\x7d' then word (s.closeFlow .recordClose)
  else if at? ',' then word (s.forgetKey.map fun s => { s.emit .comma with keyAllowed := true })
  else if at? '-' && atGap rest then word (s.dash g)
  else if at? '?' && (s.flow || atGap rest) then word (s.questionMark g)
  else if at? ':' && (s.flow || atGap rest) then word (s.colon g)
  else if at? '*' then
    let (name, rest) ← anchorName? rest
    return (← s.reference g name, rest)
  else if at? '&' then
    let (name, rest) ← anchorName? rest
    return (← s.anchor g name, rest)
  else if at? '!' then
    let (token, rest) ← tag? s.flow rest
    return (← s.emitKey g token, rest)
  else if (at? '|' || at? '>') && !s.flow then
    let r ← block? (at? '>') s.indents.head? rest
    return (← s.blockScalar (if at? '>' then .other else .literal) r, r.rest)
  else if at? '\'' then
    let r ← singleQuoted? [] rest
    return (← s.scalar g .other r, r.rest)
  else if at? '"' then
    let r ← doubleQuoted? ⟨[], false⟩ rest
    return (← s.scalar g .other r, r.rest)
  else if s.startsPlain g rest then
    let r ← plain? s.flow s.floor [] (g :: rest)
    return (← s.scalar g .plain r, r.rest)
  else none

/-- Whether a key is allowed at the next token, and the text from that token on: blanks,
comments and line breaks are passed over, and outside of brackets a key may start on a new line.
A tab counts as a blank only where no key may start. -/
def skip (flow keyAllowed comment : Bool) : List Glyph → Bool × List Glyph
  | [] => (keyAllowed, [])
  | g :: rest =>
    if g.isBreak then skip flow (keyAllowed || !flow) false rest
    else if comment then skip flow keyAllowed true rest
    else if g.char == '\ufeff' && g.column == 0 then skip flow keyAllowed false rest
    else if g.char == ' ' || (g.char == '\t' && (flow || !keyAllowed)) then
      skip flow keyAllowed false rest
    else if g.char == '#' then skip flow keyAllowed true rest
    else (keyAllowed, g :: rest)

/-- Reads tokens up to the end of the text, at most `fuel` many. -/
def run : (fuel : Nat) → Layout → List Glyph → Option Layout
  | 0, _, _ => none
  | fuel + 1, s, gs =>
    match skip s.flow s.keyAllowed false gs with
    | (_, []) => s.dedentAll.forgetKey
    | (keyAllowed, g :: rest) =>
      ({ s with keyAllowed := keyAllowed }.expireKeys g).bind fun s =>
        ((s.dedentTo g.column).step g rest).bind fun (s, rest) => run fuel s rest

end Layout

/-- The tokens of a text. -/
def tokens? (text : String) : Option (List Token) :=
  (glyphs? text).bind fun gs =>
    (Layout.start.run (gs.length + 1) gs).map fun s => s.tokens.toList

end ObjectQuery.Yaml
