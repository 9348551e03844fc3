/-!
# Characters at their places

YAML gives meaning to the line and the column of a character.  A text is read as a list of
characters that carry both, so that no reader has to count.

## Main Definitions

* `Glyph` — a character with its line and column
* `glyphs?` — a text as such a list
* `isBlank`, `isBreak`, `atGap`, `atMarker` — what stands at a place
-/

namespace ObjectQuery.Yaml

/-- A character at its place in a text. -/
structure Glyph where
  char : Char
  line : Nat
  column : Nat

/-- Whether a character may stand in a text at all. -/
def isPrintable (c : Char) : Bool :=
  let n := c.toNat
  n == 0x09 || n == 0x0A || n == 0x0D || (0x20 ≤ n && n ≤ 0x7E) || n == 0x85 ||
    (0xA0 ≤ n && n ≤ 0xD7FF) || (0xE000 ≤ n && n ≤ 0xFFFD) || 0x10000 ≤ n

/-- Whether a character separates words of a line. -/
def isBlank (c : Char) : Bool := c == ' ' || c == '\t'

/-- Whether a character ends a line. -/
def isBreak (c : Char) : Bool :=
  c == '\n' || c == '\r' || c == '\u0085' || c == '\u2028' || c == '\u2029'

/-- A line break as it is kept: the line and paragraph separators as themselves, every other
break as a line feed. -/
def keptBreak (c : Char) : Char := if c == '\u2028' || c == '\u2029' then c else '\n'

/-- Characters from a place on; a carriage return and a line feed make one break. -/
def place (line column : Nat) : List Char → List Glyph
  | '\r' :: '\n' :: rest => ⟨'\n', line, column⟩ :: place (line + 1) 0 rest
  | c :: rest =>
    if isBreak c then ⟨keptBreak c, line, column⟩ :: place (line + 1) 0 rest
    else ⟨c, line, column⟩ :: place line (column + 1) rest
  | [] => []

/-- A text with the places of its characters; none if a character may not stand in it. -/
def glyphs? (text : String) : Option (List Glyph) :=
  let cs := text.toList
  if cs.all isPrintable then some (place 0 0 cs) else none

namespace Glyph

/-- Whether a glyph separates words of a line. -/
def isBlank (g : Glyph) : Bool := Yaml.isBlank g.char

/-- Whether a glyph ends a line. -/
def isBreak (g : Glyph) : Bool := Yaml.isBreak g.char

/-- Whether a glyph stands between words. -/
def isGap (g : Glyph) : Bool := g.isBlank || g.isBreak

/-- Whether a glyph may stand in the name of an anchor, a directive or a tag handle. -/
def isName (g : Glyph) : Bool := g.char.isAlphanum || g.char == '_' || g.char == '-'

end Glyph

/-- The characters of a run of glyphs. -/
def chars (gs : List Glyph) : List Char := gs.map (·.char)

/-- Whether a word has ended: at a blank, a break or the end of the text. -/
def atGap : List Glyph → Bool
  | [] => true
  | g :: _ => g.isGap

/-- Whether a line has ended. -/
def atBreak : List Glyph → Bool
  | [] => true
  | g :: _ => g.isBreak

/-- Whether a line starts with three times the character `c` as a word of its own. -/
def atMarkerOf (c : Char) : List Glyph → Bool
  | g :: g' :: g'' :: rest =>
    g.column == 0 && g.char == c && g'.char == c && g''.char == c && atGap rest
  | _ => false

/-- Whether a line starts with the marker of the start or the end of a document. -/
def atMarker (gs : List Glyph) : Bool := atMarkerOf '-' gs || atMarkerOf '.' gs

end ObjectQuery.Yaml
