import ObjectQuery.Document.Tree
import ObjectQuery.Yaml.Scalar

/-!
# Tokens

The tokens of a text, with the nesting that it shows by indentation made explicit, and the
readers of those tokens that are words: anchors, tags and directives.

## Main Definitions

* `TagText` — the text of a tag
* `Token` — a token
* `anchorName?`, `tag?`, `directive?` — readers of words
-/

namespace ObjectQuery.Yaml

open ObjectQuery.Number
open Document (Form)

/-- The text of a tag.  Octets in it may stand for no character; a tag with such octets is a tag,
but names nothing. -/
structure TagText where
  text : String
  /-- Whether all octets stand for characters. -/
  legible : Bool
  deriving DecidableEq, Repr

namespace TagText

/-- A text that can be read. -/
def ofText (text : String) : TagText := ⟨text, true⟩

/-- One text behind another. -/
def append (s t : TagText) : TagText := ⟨s.text ++ t.text, s.legible && t.legible⟩

end TagText

/-- A token.  An anchor carries a number by which later parts refer to it. -/
inductive Token
  | version (major minor : Nat)
  | handle (name : String) (start : TagText)
  | documentStart
  | documentEnd
  | listBegin
  | recordBegin
  /-- The end of a list or record that was shown by indentation. -/
  | dedent
  | dash
  | key
  | colon
  | comma
  | listOpen
  | listClose
  | recordOpen
  | recordClose
  | anchor (id : Nat)
  | reference (id : Nat)
  | tag (handle : String) (suffix : TagText)
  | scalar (text : String) (form : Form)
  deriving DecidableEq, Repr

/-- The characters of glyphs as a text. -/
def textOf (gs : List Glyph) : String := String.ofList (chars gs)

/-- The name that stands at a place, which may be empty, and what follows. -/
def takeName (gs : List Glyph) : String × List Glyph :=
  (textOf (gs.takeWhile (·.isName)), gs.dropWhile (·.isName))

/-- Whether an anchor may end in front of a place. -/
def endsAnchor : List Glyph → Bool
  | [] => true
  | g :: _ => g.isGap || "?:,]\x7d%@`".toList.contains g.char

/-- The name of an anchor, from behind its mark. -/
def anchorName? (gs : List Glyph) : Option (String × List Glyph) :=
  let (name, rest) := takeName gs
  if name.isEmpty || !endsAnchor rest then none else some (name, rest)

/-! ### Tags -/

/-- An octet that is written as a percent sign and two hexadecimal digits. -/
def octet? : List Glyph → Option (Nat × List Glyph)
  | mark :: high :: low :: rest =>
    if mark.char == '%' then (natOfDigits? 16 [high.char, low.char]).map fun n => (n, rest)
    else none
  | _ => none

/-- The code point that starts with the bits `code` and has `count` more octets. -/
def trailing? : (count code : Nat) → List Glyph → Option Nat
  | 0, code, _ => some code
  | count + 1, code, gs =>
    (octet? gs).bind fun (n, rest) =>
      if n / 64 == 2 then trailing? count (code * 64 + n % 64) rest else none

/-- The least code point that is written as a number of octets. -/
def leastCode (count : Nat) : Nat :=
  if count == 4 then 0x10000 else if count == 3 then 0x800 else if count == 2 then 0x80 else 0

/-- What is written as octets at a place: a character, or none if they stand for no character;
and the number of octets. -/
def octetChar? (gs : List Glyph) : Option (Option Char × Nat) :=
  (octet? gs).bind fun (n, rest) =>
    let char (count start : Nat) : Option (Option Char × Nat) :=
      (trailing? (count - 1) start rest).map fun code =>
        ((charOfCode? code).filter fun _ => leastCode count ≤ code, count)
    if n < 0x80 then char 1 n
    else if n / 32 == 6 then char 2 (n % 32)
    else if n / 16 == 14 then char 3 (n % 16)
    else if n / 8 == 30 then char 4 (n % 8)
    else none

/-- The text of the characters of a tag.  It ends in front of a character with the code zero. -/
def tagText (cs : List (Option Char)) : TagText :=
  let kept := cs.takeWhile (· != some '\x00')
  ⟨String.ofList (kept.filterMap id), kept.all Option.isSome⟩

/-- Whether a glyph may stand in a tag; in some tags marks of lists may. -/
def isTagGlyph (marks : Bool) (g : Glyph) : Bool :=
  g.isName || ";/?:@&=+$.!~*'()".toList.contains g.char ||
    (marks && ",[]".toList.contains g.char)

/-- The longest run of characters of a tag, and what follows. -/
def takeTag? (marks : Bool) (gs : List Glyph) : Option (List (Option Char) × List Glyph) :=
  match gs with
  | [] => some ([], [])
  | g :: rest =>
    if isTagGlyph marks g then
      (takeTag? marks rest).map fun (text, rest) => (some g.char :: text, rest)
    else if g.char == '%' then
      (octetChar? (g :: rest)).bind fun (c, octets) =>
        (takeTag? marks (rest.drop (3 * octets - 1))).map fun (text, rest) => (c :: text, rest)
    else some ([], g :: rest)
termination_by gs.length
decreasing_by all_goals simp only [List.length_cons, List.length_drop]; omega

/-- A tag in brackets, from behind the opening one. -/
def verbatimTag? (gs : List Glyph) : Option (Token × List Glyph) :=
  (takeTag? true gs).bind fun (text, rest) =>
    match rest with
    | close :: rest =>
      if close.char == '>' && !text.isEmpty then some (.tag "" (tagText text), rest)
      else none
    | [] => none

/-- A tag behind the handle that its mark and the next one make, or behind the mark alone. -/
def shorthandTag? (gs : List Glyph) : Option (Token × List Glyph) :=
  let (name, rest) := takeName gs
  match rest with
  | g :: more =>
    if g.char == '!' then
      (takeTag? false more).bind fun (text, rest) =>
        if text.isEmpty then none
        else some (.tag ("!" ++ name ++ "!") (tagText text), rest)
    else local? gs
  | [] => local? gs
where
  /-- A tag behind its mark alone. -/
  local? (gs : List Glyph) : Option (Token × List Glyph) :=
    (takeTag? false gs).map fun (text, rest) =>
      let suffix := tagText text
      if suffix == .ofText "" then (.tag "" (.ofText "!"), rest) else (.tag "!" suffix, rest)

/-- A tag from behind its mark; it is a word of its own. -/
def tag? (flow : Bool) (gs : List Glyph) : Option (Token × List Glyph) :=
  let read? := match gs with
    | g :: rest => if g.char == '<' then verbatimTag? rest else shorthandTag? gs
    | [] => shorthandTag? []
  read?.filter fun (_, rest) =>
    atGap rest || (flow && rest.head?.any (·.char == ','))

/-! ### Directives -/

/-- A number of a version, of at most nine digits. -/
def versionNumber? (gs : List Glyph) : Option (Nat × List Glyph) :=
  let digits := gs.takeWhile fun g => isDigit g.char
  if digits.isEmpty || digits.length > 9 then none
  else some (natOfDecimal (chars digits), gs.drop digits.length)

/-- The version that a directive names. -/
def version? (gs : List Glyph) : Option (Token × List Glyph) :=
  (versionNumber? gs).bind fun (major, rest) =>
    match rest with
    | dot :: rest =>
      if dot.char == '.' then
        (versionNumber? rest).map fun (minor, rest) => (.version major minor, rest)
      else none
    | [] => none

/-- The handle of a tag with its mark or marks. -/
def handleName? : List Glyph → Option (String × List Glyph)
  | [] => none
  | mark :: rest =>
    if mark.char == '!' then
      let (name, rest) := takeName rest
      match rest with
      | close :: more =>
        if close.char == '!' then some ("!" ++ name ++ "!", more)
        else if name.isEmpty then some ("!", rest)
        else none
      | [] => if name.isEmpty then some ("!", []) else none
    else none

/-- The handle that a directive declares and what it stands for. -/
def handle? (gs : List Glyph) : Option (Token × List Glyph) :=
  (handleName? gs).bind fun (name, rest) =>
    if rest.head?.any (·.isBlank) then
      (takeTag? true (rest.dropWhile (·.isBlank))).bind fun (start, rest) =>
        if start.isEmpty || !atGap rest then none
        else some (.handle name (tagText start), rest)
    else none

/-- A directive from behind its mark, and the lines behind it. -/
def directive? (gs : List Glyph) : Option (Token × List Glyph) :=
  let (name, rest) := takeName gs
  let rest := rest.dropWhile (·.isBlank)
  let read? :=
    if !atGap (gs.drop name.length) then none
    else if name == "YAML" then version? rest
    else if name == "TAG" then handle? rest
    else none
  read?.bind fun (token, rest) => (endOfLine? rest).map fun rest => (token, rest)

end ObjectQuery.Yaml
