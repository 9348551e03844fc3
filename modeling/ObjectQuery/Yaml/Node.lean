import ObjectQuery.Yaml.Layout

/-!
# Nodes

The tree that the tokens of a text spell: scalars, lists and records with their anchors and
tags, and references to anchored nodes.

## Main Definitions

* `Properties`, `Node`, `Pair` — the tree
* `Node.marks` — the size of a tree
* `node?`, `items?`, `pairs?` — readers of its parts
* `root?` — the tree of a text that holds one document at most
-/

namespace ObjectQuery.Yaml

open Document (Form)

/-- The anchor and the tag of a node. -/
structure Properties where
  anchor : Option Nat
  tag : Option TagText
  deriving DecidableEq, Repr

namespace Properties

/-- A node without anchor and tag. -/
def none : Properties := ⟨Option.none, Option.none⟩

/-- Whether a node has no anchor and no tag. -/
def isNone (p : Properties) : Bool := p.anchor.isNone && p.tag.isNone

end Properties

mutual

/-- A tree of scalars, lists and records. -/
inductive Node
  /-- The node with an anchor of this number. -/
  | reference (id : Nat)
  | scalar (properties : Properties) (text : String) (form : Form)
  | list (properties : Properties) (items : List Node)
  | record (properties : Properties) (pairs : List Pair)

/-- A key with its value. -/
structure Pair where
  key : Node
  value : Node

end

mutual

/-- The number of starts, ends, scalars and references that spell a tree. -/
def Node.marks : Node → Nat
  | .reference _ => 1
  | .scalar _ _ _ => 1
  | .list _ items => marksOfItems items + 2
  | .record _ pairs => marksOfPairs pairs + 2

/-- The number of marks that spell a list of trees. -/
def marksOfItems : List Node → Nat
  | [] => 0
  | item :: items => item.marks + marksOfItems items

/-- The number of marks that spell a list of pairs. -/
def marksOfPairs : List Pair → Nat
  | [] => 0
  | ⟨key, value⟩ :: pairs => key.marks + value.marks + marksOfPairs pairs

end

/-- The node where nothing is written. -/
def Node.empty : Node := .scalar .none "" .plain

/-! ### Tags -/

/-- The handles of tags with what they stand for. -/
abbrev Handles := List (String × TagText)

/-- The handles that need no directive. -/
def Handles.standard : Handles := [("!", .ofText "!"), ("!!", .ofText "tag:yaml.org,2002:")]

/-- The tag that a handle and a suffix name; none if the handle is unknown. -/
def Handles.tag? (handles : Handles) (handle : String) (suffix : TagText) : Option TagText :=
  if handle.isEmpty then some suffix else (handles.lookup handle).map (·.append suffix)

/-- The anchor and the tag in front of a node, in either order, and what follows. -/
def properties? (handles : Handles) : List Token → Option (Properties × List Token)
  | .anchor id :: .tag handle suffix :: rest =>
    (handles.tag? handle suffix).map fun tag => (⟨some id, some tag⟩, rest)
  | .tag handle suffix :: .anchor id :: rest =>
    (handles.tag? handle suffix).map fun tag => (⟨some id, some tag⟩, rest)
  | .anchor id :: rest => some (⟨some id, none⟩, rest)
  | .tag handle suffix :: rest =>
    (handles.tag? handle suffix).map fun tag => (⟨none, some tag⟩, rest)
  | rest => some (.none, rest)

/-! ### Readers -/

/-- Where a node stands. -/
inductive Place
  /-- In a collection in brackets. -/
  | flow
  /-- In a list or at the top. -/
  | block
  /-- In a record, where the dashes of a list need no indentation. -/
  | member
  deriving DecidableEq, Repr

/-- Whether nothing is written in a list or record in front of these tokens. -/
def endsMember : List Token → Bool
  | .key :: _ | .colon :: _ | .dedent :: _ => true
  | _ => false

/-- Whether nothing is written in a list in front of these tokens. -/
def endsItem : List Token → Bool
  | .dash :: _ | .dedent :: _ => true
  | _ => false

/-- Whether nothing is written in a list in brackets in front of these tokens. -/
def endsFlowItem : List Token → Bool
  | .comma :: _ | .listClose :: _ => true
  | _ => false

/-- Whether nothing is written in a record in brackets in front of these tokens. -/
def endsFlowMember : List Token → Bool
  | .comma :: _ | .recordClose :: _ => true
  | _ => false

/-- What follows the comma in front of an item that is not the first. -/
def behindComma? (first : Bool) : List Token → Option (List Token)
  | .comma :: rest => some (if first then .comma :: rest else rest)
  | rest => if first then some rest else none

mutual

/-- A node. -/
def node? (handles : Handles) : (fuel : Nat) → Place → List Token → Option (Node × List Token)
  | 0, _, _ => none
  | _, _, .reference id :: rest => some (.reference id, rest)
  | fuel + 1, place, tokens =>
    (properties? handles tokens).bind fun (properties, tokens) =>
      let list (rest : Option (List Node × List Token)) : Option (Node × List Token) :=
        rest.map fun (items, rest) => (.list properties items, rest)
      let record (rest : Option (List Pair × List Token)) : Option (Node × List Token) :=
        rest.map fun (pairs, rest) => (.record properties pairs, rest)
      match place, tokens with
      | .member, .dash :: _ => list (flatItems? handles fuel tokens)
      | _, .scalar text form :: rest => some (.scalar properties text form, rest)
      | _, .listOpen :: rest => list (flowItems? handles fuel true rest)
      | _, .recordOpen :: rest => record (flowPairs? handles fuel true rest)
      | .block, .listBegin :: rest | .member, .listBegin :: rest =>
        list (items? handles fuel rest)
      | .block, .recordBegin :: rest | .member, .recordBegin :: rest =>
        record (pairs? handles fuel rest)
      | _, rest => if properties.isNone then none else some (.scalar properties "" .plain, rest)

/-- The items of an indented list. -/
def items? (handles : Handles) : (fuel : Nat) → List Token → Option (List Node × List Token)
  | 0, _ => none
  | fuel + 1, .dash :: rest =>
    let item? := if endsItem rest then some (Node.empty, rest) else node? handles fuel .block rest
    item?.bind fun (item, rest) =>
      (items? handles fuel rest).map fun (items, rest) => (item :: items, rest)
  | _, .dedent :: rest => some ([], rest)
  | _, _ => none

/-- The items of a list whose dashes stand at the column of the record around it. -/
def flatItems? (handles : Handles) : (fuel : Nat) → List Token → Option (List Node × List Token)
  | 0, _ => none
  | fuel + 1, .dash :: rest =>
    let item? :=
      if endsItem rest || endsMember rest then some (Node.empty, rest)
      else node? handles fuel .block rest
    item?.bind fun (item, rest) =>
      (flatItems? handles fuel rest).map fun (items, rest) => (item :: items, rest)
  | _, rest => some ([], rest)

/-- The members of an indented record. -/
def pairs? (handles : Handles) : (fuel : Nat) → List Token → Option (List Pair × List Token)
  | 0, _ => none
  | fuel + 1, .key :: rest =>
    let key? :=
      if endsMember rest then some (Node.empty, rest) else node? handles fuel .member rest
    key?.bind fun (key, rest) =>
      let value? := match rest with
        | .colon :: rest =>
          if endsMember rest then some (Node.empty, rest) else node? handles fuel .member rest
        | _ => some (Node.empty, rest)
      value?.bind fun (value, rest) =>
        (pairs? handles fuel rest).map fun (pairs, rest) => (⟨key, value⟩ :: pairs, rest)
  | _, .dedent :: rest => some ([], rest)
  | _, _ => none

/-- The items of a list in brackets; behind the first one each follows a comma, and an item may
be a record of one member. -/
def flowItems? (handles : Handles) : (fuel : Nat) → (first : Bool) → List Token →
    Option (List Node × List Token)
  | 0, _, _ => none
  | _, _, .listClose :: rest => some ([], rest)
  | fuel + 1, first, tokens =>
    (behindComma? first tokens).bind fun rest =>
      match rest with
      | .listClose :: rest => some ([], rest)
      | .key :: rest =>
        (flowMember? handles fuel rest).bind fun (pair, rest) =>
          (flowItems? handles fuel false rest).map fun (items, rest) =>
            (.record .none [pair] :: items, rest)
      | rest =>
        (node? handles fuel .flow rest).bind fun (item, rest) =>
          (flowItems? handles fuel false rest).map fun (items, rest) => (item :: items, rest)

/-- The only member of a record in a list in brackets, from behind the mark of its key.  Where
no key is written, the token that shows it is passed over. -/
def flowMember? (handles : Handles) : (fuel : Nat) → List Token → Option (Pair × List Token)
  | 0, _ => none
  | fuel + 1, tokens =>
    let key? := match tokens with
      | .colon :: rest | .comma :: rest | .listClose :: rest => some (Node.empty, rest)
      | _ => node? handles fuel .flow tokens
    key?.bind fun (key, rest) => flowValue? handles fuel endsFlowItem key rest

/-- The members of a record in brackets; behind the first one each follows a comma, and a
member may be a key alone. -/
def flowPairs? (handles : Handles) : (fuel : Nat) → (first : Bool) → List Token →
    Option (List Pair × List Token)
  | 0, _, _ => none
  | _, _, .recordClose :: rest => some ([], rest)
  | fuel + 1, first, tokens =>
    (behindComma? first tokens).bind fun rest =>
      match rest with
      | .recordClose :: rest => some ([], rest)
      | .key :: rest =>
        let key? :=
          if endsFlowMember rest || rest.head? == some .colon then some (Node.empty, rest)
          else node? handles fuel .flow rest
        key?.bind fun (key, rest) =>
          (flowValue? handles fuel endsFlowMember key rest).bind fun (pair, rest) =>
            (flowPairs? handles fuel false rest).map fun (pairs, rest) => (pair :: pairs, rest)
      | rest =>
        (node? handles fuel .flow rest).bind fun (key, rest) =>
          (flowPairs? handles fuel false rest).map fun (pairs, rest) =>
            (⟨key, .empty⟩ :: pairs, rest)

/-- A key of a collection in brackets with the value behind it, if there is one. -/
def flowValue? (handles : Handles) : (fuel : Nat) → (ends : List Token → Bool) → (key : Node) →
    List Token → Option (Pair × List Token)
  | 0, _, _, _ => none
  | fuel + 1, ends, key, .colon :: rest =>
    if ends rest then some (⟨key, .empty⟩, rest)
    else (node? handles fuel .flow rest).map fun (value, rest) => (⟨key, value⟩, rest)
  | _, _, key, rest => some (⟨key, .empty⟩, rest)

end

/-! ### Documents -/

/-- The handles that directives declare in front of a document, and what follows its start.
A version may be named once and must be 1.1 or 1.2; a handle may be declared once. -/
def prolog? (versioned : Bool) (declared : Handles) : List Token → Option (Handles × List Token)
  | .version major minor :: rest =>
    if versioned || major != 1 || (minor != 1 && minor != 2) then none
    else prolog? true declared rest
  | .handle name start :: rest =>
    if (declared.lookup name).isSome then none
    else prolog? versioned ((name, start) :: declared) rest
  | .documentStart :: rest => some (declared ++ Handles.standard, rest)
  | _ => none

/-- Whether nothing is written in a document in front of these tokens. -/
def endsDocument : List Token → Bool
  | [] | .version _ _ :: _ | .handle _ _ :: _ | .documentStart :: _ | .documentEnd :: _ => true
  | _ => false

/-- The first document of some tokens, and what follows. -/
def firstDocument? (tokens : List Token) : Option (Node × List Token) :=
  let fuel := 3 * tokens.length + 3
  match tokens with
  | [] => some (.empty, [])
  | .version _ _ :: _ | .handle _ _ :: _ | .documentStart :: _ =>
    (prolog? false [] tokens).bind fun (handles, rest) =>
      if endsDocument rest then some (.empty, rest) else node? handles fuel .block rest
  | _ => node? Handles.standard fuel .block tokens

/-- The tree of a text; none if it is no text of one document at most. -/
def root? (text : String) : Option Node :=
  (tokens? text).bind fun tokens =>
    (firstDocument? tokens).bind fun (node, rest) =>
      if rest.all (· == .documentEnd) then some node else none

end ObjectQuery.Yaml
