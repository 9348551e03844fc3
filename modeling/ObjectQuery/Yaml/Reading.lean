import ObjectQuery.Document.Reading
import ObjectQuery.Document.Shape
import ObjectQuery.Yaml.Node

/-!
# YAML documents

The document that a YAML text writes.  References to anchors are replaced by what they refer
to; the tags of a document's own stay with their parts, and those of the common types decide
the values of scalars.

## Main Definitions

* `scalarDocument` — a scalar with its value
* `Node.toDocument` — a tree with the references in those parts followed that are read
* `ofText?` — the document of a text

## Design Notes

References can make a small text stand for a large document, or for an endless one.  So the
references that are followed are counted, and the lists and records around a part that is read;
what is passed over counts for neither.
-/

namespace ObjectQuery.Yaml

open Document (Datum Form Shape TypeTag Written)

/-! ### Scalars -/

/-- The name of a tag of a document's own. -/
def TagText.own? (tag : TagText) : Option String :=
  match tag.legible, tag.text.toList with
  | true, ['!'] => some "!"
  | true, '!' :: name => some (String.ofList name)
  | _, _ => none

/-- What a tag names. -/
def TagText.type (tag : TagText) : TypeTag :=
  if tag == .ofText "tag:yaml.org,2002:bool" then .bool
  else if tag == .ofText "tag:yaml.org,2002:int" then .integer
  else if tag == .ofText "tag:yaml.org,2002:float" then .float
  else if tag == .ofText "tag:yaml.org,2002:null" then .null
  else .other

/-- The value of a scalar without a tag. -/
def untaggedDatum (text : String) (form : Form) : Datum :=
  if form == .plain then Document.plainDatum text else .text text

/-- The value of a scalar under a tag; a tag that is not known makes a text, but one of a
document's own leaves the value as it is. -/
def taggedDatum? (tag : TagText) (text : String) (form : Form) : Option Datum :=
  let cs := text.toList
  match tag.type with
  | .bool => (Document.boolOf? cs).map .bool
  | .integer => (Document.integerOf? cs).map .integer
  | .float => (Document.floatOf? cs).map .float
  | .null => if !cs.isEmpty && Document.isNull cs then some .null else none
  | .other =>
    some (if tag.text.toList.head? == some '!' then untaggedDatum text form else .text text)

/-- A document under the tag of a node. -/
def underTag (tag : Option TagText) (d : Document) : Document :=
  match tag.bind TagText.own? with
  | some name => .tagged name d
  | none => d

/-- A scalar with its value. -/
def scalarDocument (tag : Option TagText) (text : String) (form : Form) : Document :=
  let value? := match tag with
    | some tag => taggedDatum? tag text form
    | none => some (untaggedDatum text form)
  underTag tag (.scalar value? (some ⟨text, form, tag.map TagText.type⟩))

/-! ### References -/

/-- What the numbers of anchors refer to. -/
abbrev AnchorTable := List (Nat × Node)

/-- The number of a node's anchor, with the node. -/
def anchorOf (properties : Properties) (node : Node) : AnchorTable :=
  (properties.anchor.map fun id => (id, node)).toList

mutual

/-- The anchored nodes of a tree, from the last to the first. -/
def Node.anchored : Node → AnchorTable
  | .reference _ => []
  | .scalar properties text form => anchorOf properties (.scalar properties text form)
  | .list properties items =>
    anchoredItems items ++ anchorOf properties (.list properties items)
  | .record properties pairs =>
    anchoredPairs pairs ++ anchorOf properties (.record properties pairs)

/-- The anchored nodes of a list of trees. -/
def anchoredItems : List Node → AnchorTable
  | [] => []
  | item :: items => anchoredItems items ++ item.anchored

/-- The anchored nodes of a list of pairs. -/
def anchoredPairs : List Pair → AnchorTable
  | [] => []
  | ⟨key, value⟩ :: pairs => anchoredPairs pairs ++ (value.anchored ++ key.anchored)

end

/-- Reading with a number of references that may still be followed. -/
abbrev Following := StateT Nat Option

/-- The node that a reference refers to, and any other node itself. -/
def followed (anchors : AnchorTable) : Node → Following Node
  | .reference id => fun left =>
    if left = 0 then none else (anchors.lookup id).map fun node => (node, left - 1)
  | node => pure node

/-! ### Documents -/

/-- The parts of a tree that are read as a document, inside at most `levels` lists and records
of each other. -/
def Node.toDocument (anchors : AnchorTable) : (levels : Nat) → Shape → Node → Following Document
  | 0, _, node => do
    match ← followed anchors node with
    | .scalar properties text form => return scalarDocument properties.tag text form
    | _ => failure
  | levels + 1, shape, node => do
    match ← followed anchors node with
    | .reference _ => failure
    | .scalar properties text form => return scalarDocument properties.tag text form
    | .list properties items =>
      let items ← items.mapM (Node.toDocument anchors levels shape)
      return underTag properties.tag (.list items)
    | .record properties pairs =>
      let entries ← pairs.mapM fun pair => do
        let key ← Node.toDocument anchors levels .whole pair.key
        match shape.field? (key.text? .direct) with
        | some shape => return ⟨key, ← Node.toDocument anchors levels shape pair.value⟩
        | none => return ⟨key, .unread⟩
      return underTag properties.tag (.record entries)

/-- The greatest number of lists and records inside each other that is read. -/
def nestingLimit : Nat := 128

/-- The greatest number of references that are followed for each mark of a text. -/
def followingLimit : Nat := 100

/-- The parts of the document of a text that are read; none if the text is not YAML of one
document at most, is nested too deeply, or refers to too much. -/
def ofText? (shape : Shape) (text : String) : Option Document :=
  (root? text).bind fun node =>
    ((node.toDocument node.anchored nestingLimit shape).run (followingLimit * node.marks)).map
      (·.1)

end ObjectQuery.Yaml
