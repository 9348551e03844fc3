/-!
# Blank characters and trimmed lists

The blanks are the characters with the Unicode property White_Space.  They are dropped in
front of the numbers of a date and around the items of a comma-separated list.

## Main Definitions

* `isBlank` — membership in White_Space
* `trimStart`, `trimEnd`, `trim` — a text without the blanks at its ends
* `splitOn` — the maximal pieces of a text between separators
* `commaItems` — the non-empty trimmed pieces of a comma-separated text
-/

namespace ObjectQuery.Text

/-- The characters with the Unicode property White_Space. -/
def isBlank (c : Char) : Bool :=
  let n := c.toNat
  (9 ≤ n && n ≤ 13) || n == 0x20 || n == 0x85 || n == 0xA0 || n == 0x1680 ||
    (0x2000 ≤ n && n ≤ 0x200A) || n == 0x2028 || n == 0x2029 || n == 0x202F || n == 0x205F ||
    n == 0x3000

/-- The text from its first character that is not blank. -/
def trimStart (cs : List Char) : List Char := cs.dropWhile isBlank

/-- The text up to its last character that is not blank. -/
def trimEnd (cs : List Char) : List Char := (cs.reverse.dropWhile isBlank).reverse

/-- The text without the blanks at its two ends. -/
def trim (cs : List Char) : List Char := trimEnd (trimStart cs)

/-- The pieces of a text between the occurrences of a separator, one more than there are
separators. -/
def splitOn (separator : Char) : List Char → List (List Char)
  | [] => [[]]
  | c :: rest =>
    if c = separator then [] :: splitOn separator rest
    else match splitOn separator rest with
      | [] => [[c]]
      | piece :: pieces => (c :: piece) :: pieces

/-- The items of a comma-separated list: the pieces between commas, trimmed, without the
empty ones. -/
def commaItems (text : String) : List String :=
  ((splitOn ',' text.toList).map trim).filterMap fun piece =>
    if piece.isEmpty then none else some (String.ofList piece)

/-- The text with `separator` between its parts. -/
def joinWith (separator : String) : List String → String
  | [] => ""
  | [part] => part
  | part :: parts => part ++ separator ++ joinWith separator parts

/-- Whether one text starts with another; the part after it if so. -/
def after? : (start text : List Char) → Option (List Char)
  | [], rest => some rest
  | c :: start, d :: rest => if c = d then after? start rest else none
  | _ :: _, [] => none

end ObjectQuery.Text
