import ObjectQuery.Query.Node

/-!
# Query graphs

The nodes of a query with the join partner of each.  A forward graph is a chain, a reverse
graph is a tree grown from its root.  Nodes are numbered in the order in which they were
added, and the partner of a node always has a smaller number.

## Main Definitions

* `Direction` — chains and trees
* `Graph` — nodes with partners, and the settings of their compilation
* `Graph.addItem`, `Graph.addChild` — growing a chain or a tree
* `Graph.walk` — every node in front of the nodes joined to it
* `Graph.projected` — the nodes that contribute select items
-/

namespace ObjectQuery.Query

/-- Whether a graph is a chain or a tree. -/
inductive Direction
  /-- A chain; the link between two neighbours is kept by the first. -/
  | forward
  /-- A tree; the link between a node and its parent is kept by the node. -/
  | reverse
  deriving DecidableEq, Repr

namespace Direction

/-- The partners that the node with a number may have: none for the first node, its
predecessor in a chain, any earlier node in a tree. -/
def Admits (d : Direction) : (id : Nat) → (partner : Option Nat) → Prop
  | 0, partner => partner = none
  | id + 1, some partner =>
    match d with
    | .forward => partner = id
    | .reverse => partner ≤ id
  | _ + 1, none => False

/-- The first node has no partner. -/
theorem admits_first (d : Direction) : d.Admits 0 none := rfl

/-- Which of two joined nodes keeps the link between them. -/
def linkHolder (d : Direction) (id partner : Nat) : Nat :=
  match d with
  | .forward => partner
  | .reverse => id

end Direction

/-- A node with the number of the node it is joined to. -/
structure Slot where
  node : Node
  partner : Option Nat

/-- The nodes of a query with their partners. -/
structure Graph where
  environment : Environment
  direction : Direction
  slots : List Slot := []
  linkTable : Option LinkTable := none
  /-- The accepted statuses of link rows; all if there are none. -/
  statuses : List String := []
  /-- The object type whose first node is returned when no node is marked. -/
  returnType : Option Int64 := none
  lastMode : Mode := {}
  admitted : ∀ id s, slots[id]? = some s → direction.Admits id s.partner

namespace Graph

/-- The chain without nodes. -/
def forward (environment : Environment) : Graph where
  environment
  direction := .forward
  admitted := by simp

/-- The number of nodes. -/
def size (g : Graph) : Nat := g.slots.length

/-- The node with a number. -/
def node? (g : Graph) (id : Nat) : Option Node := g.slots[id]?.map (·.node)

/-- The node with a number, or the error that there is none. -/
def node (g : Graph) (id : Nat) : Except CompileError Node :=
  match g.node? id with
  | some n => .ok n
  | none => .error (.unknownNode id)

/-- The number of the node that a node is joined to. -/
def partner? (g : Graph) (id : Nat) : Option Nat := g.slots[id]?.bind (·.partner)

/-- The numbers of the nodes joined to a node, in the order in which they were added. -/
def children (g : Graph) (id : Nat) : List Nat :=
  (List.range g.size).filter fun child => g.partner? child == some id

theorem admits_concat {d : Direction} {slots : List Slot} (new : Slot)
    (old : ∀ id s, slots[id]? = some s → d.Admits id s.partner)
    (h : d.Admits slots.length new.partner) :
    ∀ id s, (slots ++ [new])[id]? = some s → d.Admits id s.partner := by
  intro id s hs
  rcases Nat.lt_trichotomy id slots.length with hlt | heq | hgt
  · rw [List.getElem?_append_left hlt] at hs
    exact old id s hs
  · subst heq
    simp at hs
    exact hs ▸ h
  · have : (slots ++ [new])[id]? = none := by
      rw [List.getElem?_eq_none_iff]
      simp
      omega
    rw [this] at hs
    cases hs

/-- Adds a node behind the others. -/
def push (g : Graph) (n : Node) (partner : Option Nat) (h : g.direction.Admits g.size partner) :
    Graph :=
  let new : Slot := ⟨{ n with position := g.size }, partner⟩
  { g with slots := g.slots ++ [new], admitted := admits_concat new g.admitted h }

/-- The tree of a single node. -/
def reverse (environment : Environment) (root : Node) : Graph :=
  push { environment, direction := .reverse, admitted := by simp } root none
    (Direction.admits_first .reverse)

/-- The partner of the next node of a chain. -/
def lastId? (g : Graph) : Option Nat :=
  match g.size with
  | 0 => none
  | last + 1 => some last

theorem admits_lastId? {g : Graph} (h : g.direction = .forward) :
    g.direction.Admits g.size g.lastId? := by
  unfold lastId?
  rw [h]
  cases g.size <;> simp [Direction.Admits]

/-- Adds a node to the end of a chain; a tree is refused. -/
def addItem (g : Graph) (n : Node) : Except CompileError (Graph × Nat) :=
  if h : g.direction = .forward then .ok (g.push n g.lastId? (admits_lastId? h), g.size)
  else .error (.invalidGraph .itemOnTree)

theorem admits_of_lt {g : Graph} {parent : Nat} (h : g.direction = .reverse)
    (hp : parent < g.size) : g.direction.Admits g.size (some parent) := by
  rw [h]
  cases hs : g.size with
  | zero => omega
  | succ n =>
    simp only [Direction.Admits]
    omega

/-- Adds a node below a node of a tree; a chain is refused. -/
def addChild (g : Graph) (parent : Nat) (n : Node) : Except CompileError (Graph × Nat) :=
  if h : g.direction = .reverse then
    if hp : parent < g.size then .ok (g.push n (some parent) (admits_of_lt h hp), g.size)
    else .error (.unknownNode parent)
  else .error (.invalidGraph .childOnChain)

theorem admits_modify {d : Direction} {slots : List Slot} (f : Node → Node) (target : Nat)
    (old : ∀ id s, slots[id]? = some s → d.Admits id s.partner) :
    ∀ id s, (slots.modify target fun slot => { slot with node := f slot.node })[id]? = some s →
      d.Admits id s.partner := by
  intro id s hs
  rw [List.getElem?_modify] at hs
  cases h : slots[id]? with
  | none => simp [h] at hs
  | some slot =>
    have := old id slot h
    by_cases ht : target = id
    · simp [h, ht] at hs
      subst hs
      exact this
    · simp [h, ht] at hs
      subst hs
      exact this

/-- Changes the node with a number. -/
def modifyNode (g : Graph) (id : Nat) (f : Node → Node) : Except CompileError Graph :=
  if id < g.size then
    .ok { g with
      slots := g.slots.modify id fun slot => { slot with node := f slot.node }
      admitted := admits_modify f id g.admitted }
  else .error (.unknownNode id)

/-! ### Walking -/

/-- Visits nodes from a stack, each followed by the nodes joined to it. -/
def walkFrom (g : Graph) : (fuel : Nat) → (stack : List Nat) → List Nat
  | 0, _ => []
  | _ + 1, [] => []
  | fuel + 1, id :: stack => id :: g.walkFrom fuel (g.children id ++ stack)

/-- The numbers of all nodes, every node in front of the nodes joined to it and the nodes
joined to one node in the order in which they were added. -/
def walk (g : Graph) : List Nat := if g.size = 0 then [] else g.walkFrom g.size [0]

/-! ### Projection -/

/-- Whether any node is marked as returned. -/
def anyReturned (g : Graph) : Bool := g.slots.any fun s => s.node.returned

/-- The first node of the return type, if the graph is a chain with a return type. -/
def pinned? (g : Graph) : Option Nat :=
  match g.direction, g.returnType with
  | .forward, some type => g.slots.findIdx? fun s => s.node.objectType? == some type
  | _, _ => none

/-- Whether a node contributes select items: if any node is marked, the marked ones; else the
first node of the return type; else all. -/
def projected (g : Graph) (id : Nat) : Bool :=
  if g.anyReturned then (g.node? id).any fun n => n.returned
  else match g.pinned? with
    | some pinned => id == pinned
    | none => true

/-- The tables of the nodes that contribute select items, in the order of the walk. -/
def returnTypes (g : Graph) : List Catalog.Table :=
  (g.walk.filter g.projected).filterMap fun id => (g.node? id).bind fun n => n.table?

end Graph

end ObjectQuery.Query
