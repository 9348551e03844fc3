import ObjectQuery.Proofs.Faults
import ObjectQuery.Proofs.Preorder

/-!
# Growing a graph

A graph grows by calls that add one node each, or are refused.  What a call does can be read
off three rows of equal length: the nodes, the partner of each, and the nodes joined to each.
A graph grown by any calls is orderly: it is walked in pre-order, and no compilation misses a
node.

## Main Definitions

* `Arena` — the three rows, and what calls do to them
* `Graph.answer`, `Graph.afterCalls` — a call, and a run of calls
* `Graph.partsAmong` — the parts of nodes whose partners have been visited before
* `Graph.Orderly` — what holds for every graph that has been grown

## Main Statements

* `Graph.arena_push` — a new node in the three rows
* `Graph.arena_answer`, `Graph.arena_afterCalls` — one call and a run, in the three rows
* `Graph.partsAmong_walk` — in the order of the walk, partners have been visited before
* `Graph.orderly_afterCalls` — a graph grown by any calls is orderly
-/

namespace ObjectQuery.Query

/-- A request to add a node: to the end of a chain, or below a node of a tree. -/
inductive Call
  | item (n : Node)
  | child (parent : Nat) (n : Node)

/-- The nodes of a graph, the partner of each, and the nodes joined to each. -/
@[ext]
structure Arena where
  nodes : List Node
  parents : List (Option Nat)
  children : List (List Nat)

namespace Arena

/-- Adds a node behind the others, and to the nodes joined to its partner. -/
def push (a : Arena) (n : Node) (parent : Option Nat) : Arena where
  nodes := a.nodes ++ [{ n with position := a.nodes.length }]
  parents := a.parents ++ [parent]
  children :=
    match parent with
    | none => a.children ++ [[]]
    | some p => (a.children ++ [[]]).modify p (· ++ [a.nodes.length])

/-- The last node, if there is one. -/
def last? (a : Arena) : Option Nat :=
  match a.nodes.length with
  | 0 => none
  | last + 1 => some last

/-- What a call does to an arena: it adds one node, or is refused and changes nothing. -/
def answer (d : Direction) (a : Arena) : Call → Arena × Except CompileError Nat
  | .item n =>
    match d with
    | .forward => (a.push n a.last?, .ok a.nodes.length)
    | .reverse => (a, .error (.invalidGraph .itemOnTree))
  | .child parent n =>
    match d with
    | .forward => (a, .error (.invalidGraph .childOnChain))
    | .reverse =>
      if parent < a.nodes.length then (a.push n (some parent), .ok a.nodes.length)
      else (a, .error (.unknownNode parent))

/-- What a run of calls does to an arena. -/
def afterCalls (d : Direction) (a : Arena) (calls : List Call) : Arena :=
  calls.foldl (fun a call => (a.answer d call).1) a

/-- The arena of a new chain, or of a new tree with its root. -/
def start : Option Node → Arena
  | none => ⟨[], [], []⟩
  | some root => push ⟨[], [], []⟩ root none

end Arena

namespace Graph

/-- A new chain, or a new tree with its root. -/
def start (environment : Environment) : Option Node → Graph
  | none => forward environment
  | some root => reverse environment root

/-- The graph behind a call with its answer; a graph that refuses a call stays as it is. -/
def answered (g : Graph) : Except CompileError (Graph × Nat) → Graph × Except CompileError Nat
  | .ok (grown, id) => (grown, .ok id)
  | .error e => (g, .error e)

/-- What a call does to a graph. -/
def answer (g : Graph) : Call → Graph × Except CompileError Nat
  | .item n => g.answered (g.addItem n)
  | .child parent n => g.answered (g.addChild parent n)

/-- What a run of calls does to a graph, refused ones included. -/
def afterCalls (g : Graph) (calls : List Call) : Graph :=
  calls.foldl (fun g call => (g.answer call).1) g

/-- The rows of a graph. -/
def arena (g : Graph) : Arena where
  nodes := g.slots.map (·.node)
  parents := g.slots.map (·.partner)
  children := (List.range g.size).map g.children

variable {g : Graph}

/-! ### The three rows -/

theorem length_nodes : g.arena.nodes.length = g.size := List.length_map _

theorem getElem?_parents (id : Nat) : (g.arena.parents[id]?).join = g.partner? id := by
  unfold arena partner?
  rw [List.getElem?_map]
  cases g.slots[id]? <;> rfl

/-- Only nodes of a graph have nodes joined to them. -/
theorem children_eq_nil {id : Nat} (h : g.size ≤ id) : g.children id = [] := by
  refine List.eq_nil_iff_forall_not_mem.mpr fun child hchild => ?_
  have hlt := partner?_lt (mem_children.mp hchild)
  omega

theorem getD_children (id : Nat) : g.arena.children.getD id [] = g.children id := by
  unfold arena
  rw [List.getD_eq_getElem?_getD, List.getElem?_map]
  by_cases hid : id < g.size
  · rw [List.getElem?_range hid]
    rfl
  · rw [List.getElem?_eq_none (by simpa using hid), children_eq_nil (Nat.le_of_not_lt hid)]
    rfl

section Push

variable {n : Node} {partner : Option Nat} (h : g.direction.Admits g.size partner)

theorem size_push : (g.push n partner h).size = g.size + 1 := by
  simp [push, size]

theorem size_lt_push : g.size < (g.push n partner h).size := by
  rw [size_push]
  exact Nat.lt_succ_self g.size

/-- The new node is the last one. -/
theorem node?_push : (g.push n partner h).node? g.size = some { n with position := g.size } := by
  show ((g.slots ++ [_])[g.slots.length]?).map _ = _
  rw [List.getElem?_concat_length]
  rfl

/-- The other nodes keep their partners. -/
theorem partner?_push (id : Nat) :
    (g.push n partner h).partner? id = if id = g.size then partner else g.partner? id := by
  show ((g.slots ++ [⟨{ n with position := g.size }, partner⟩])[id]?).bind (·.partner) =
    if id = g.slots.length then partner else g.slots[id]?.bind (·.partner)
  rcases Nat.lt_trichotomy id g.slots.length with hlt | rfl | hgt
  · rw [if_neg (Nat.ne_of_lt hlt), List.getElem?_append_left hlt]
  · rw [if_pos rfl, List.getElem?_concat_length]
    rfl
  · have hnone : (g.slots ++ [⟨{ n with position := g.size }, partner⟩])[id]? = none := by
      rw [List.getElem?_eq_none_iff, List.length_append, List.length_singleton]
      exact hgt
    rw [if_neg (Nat.ne_of_gt hgt), hnone, List.getElem?_eq_none (Nat.le_of_lt hgt)]

/-- The new node is the last one joined to its partner. -/
theorem children_push (id : Nat) :
    (g.push n partner h).children id =
      g.children id ++ if partner = some id then [g.size] else [] := by
  have hold : (List.range g.size).filter
      (fun child => (g.push n partner h).partner? child == some id) = g.children id := by
    refine List.filter_congr fun child hchild => ?_
    rw [partner?_push, if_neg (Nat.ne_of_lt (List.mem_range.mp hchild))]
  have hnew : [g.size].filter
      (fun child => (g.push n partner h).partner? child == some id) =
        if partner = some id then [g.size] else [] := by
    rw [List.filter_cons, partner?_push, if_pos rfl]
    simp only [beq_iff_eq, List.filter_nil]
  rw [children, size_push, List.range_succ, List.filter_append, hold, hnew]

/-- What is joined to each node, with nothing joined to a new one yet. -/
theorem getElem?_children_concat (i : Nat) :
    (g.arena.children ++ [[]])[i]? = if i ≤ g.size then some (g.children i) else none := by
  have hlength : g.arena.children.length = g.size := by
    rw [arena, List.length_map, List.length_range]
  rcases Nat.lt_trichotomy i g.size with hlt | heq | hgt
  · rw [if_pos (Nat.le_of_lt hlt), List.getElem?_append_left (hlength ▸ hlt), arena,
      List.getElem?_map, List.getElem?_range hlt]
    rfl
  · rw [if_pos (Nat.le_of_eq heq), children_eq_nil (Nat.le_of_eq heq.symm), heq, ← hlength]
    exact List.getElem?_concat_length
  · rw [if_neg (Nat.not_le_of_gt hgt), List.getElem?_eq_none_iff, List.length_append, hlength]
    exact hgt

/-- What a new node does to the rows of a graph. -/
theorem arena_push : (g.push n partner h).arena = g.arena.push n partner := by
  have hnodes : (g.push n partner h).arena.nodes = (g.arena.push n partner).nodes := by
    show (g.slots ++ [_]).map _ = g.slots.map _ ++ [{ n with position := g.arena.nodes.length }]
    rw [length_nodes, List.map_append]
    rfl
  have hparents : (g.push n partner h).arena.parents = (g.arena.push n partner).parents := by
    show (g.slots ++ [_]).map _ = g.slots.map _ ++ [partner]
    rw [List.map_append]
    rfl
  have hchildren : (g.push n partner h).arena.children = (g.arena.push n partner).children := by
    refine List.ext_getElem? fun i => ?_
    have hgrown : (g.push n partner h).arena.children[i]? =
        if i ≤ g.size then some (g.children i ++ if partner = some i then [g.size] else [])
        else none := by
      rw [arena, List.getElem?_map, size_push]
      by_cases hi : i ≤ g.size
      · rw [if_pos hi, List.getElem?_range (Nat.lt_succ_of_le hi), Option.map_some, children_push]
      · rw [if_neg hi, List.getElem?_eq_none (by rw [List.length_range]; omega)]
        rfl
    rw [hgrown]
    cases partner with
    | none =>
      show _ = (g.arena.children ++ [[]])[i]?
      rw [getElem?_children_concat]
      simp
    | some p =>
      show _ = ((g.arena.children ++ [[]]).modify p (· ++ [g.arena.nodes.length]))[i]?
      rw [List.getElem?_modify, getElem?_children_concat, length_nodes]
      by_cases hi : i ≤ g.size
      · by_cases hp : p = i
        · simp [hi, hp]
        · simp [hi, hp]
      · simp [hi]
  exact Arena.ext hnodes hparents hchildren

end Push

/-! ### Calls -/

/-- The rows of a new graph. -/
theorem arena_start (environment : Environment) (root : Option Node) :
    (start environment root).arena = Arena.start root := by
  cases root with
  | none => rfl
  | some root => exact arena_push (Direction.admits_first .reverse)

theorem last?_arena : g.arena.last? = g.lastId? := by
  cases hsize : g.size with
  | zero => simp only [Arena.last?, lastId?, length_nodes, hsize]
  | succ last => simp only [Arena.last?, lastId?, length_nodes, hsize]

theorem addItem_of_forward (hd : g.direction = .forward) (n : Node) :
    g.addItem n = .ok (g.push n g.lastId? (admits_lastId? hd), g.size) := dif_pos hd

theorem addItem_of_reverse (hd : g.direction = .reverse) (n : Node) :
    g.addItem n = .error (.invalidGraph .itemOnTree) := dif_neg (by rw [hd]; decide)

theorem addChild_of_forward (hd : g.direction = .forward) (parent : Nat) (n : Node) :
    g.addChild parent n = .error (.invalidGraph .childOnChain) := dif_neg (by rw [hd]; decide)

theorem addChild_of_lt (hd : g.direction = .reverse) {parent : Nat} (hp : parent < g.size)
    (n : Node) :
    g.addChild parent n = .ok (g.push n (some parent) (admits_of_lt hd hp), g.size) := by
  rw [addChild, dif_pos hd, dif_pos hp]

theorem addChild_of_le (hd : g.direction = .reverse) {parent : Nat} (hp : g.size ≤ parent)
    (n : Node) : g.addChild parent n = .error (.unknownNode parent) := by
  rw [addChild, dif_pos hd, dif_neg (Nat.not_lt_of_le hp)]

/-- A call does to the rows of a graph what it does to the graph. -/
theorem arena_answer (g : Graph) (call : Call) :
    (g.answer call).1.arena = (g.arena.answer g.direction call).1 ∧
      (g.answer call).2 = (g.arena.answer g.direction call).2 ∧
      (g.answer call).1.direction = g.direction := by
  cases call with
  | item n =>
    show (g.answered (g.addItem n)).1.arena = _ ∧ (g.answered (g.addItem n)).2 = _ ∧
      (g.answered (g.addItem n)).1.direction = _
    cases hd : g.direction with
    | forward =>
      rw [addItem_of_forward hd, Arena.answer, last?_arena, length_nodes]
      exact ⟨arena_push (admits_lastId? hd), rfl, hd⟩
    | reverse =>
      rw [addItem_of_reverse hd]
      exact ⟨rfl, rfl, hd⟩
  | child parent n =>
    show (g.answered (g.addChild parent n)).1.arena = _ ∧
      (g.answered (g.addChild parent n)).2 = _ ∧
      (g.answered (g.addChild parent n)).1.direction = _
    cases hd : g.direction with
    | forward =>
      rw [addChild_of_forward hd]
      exact ⟨rfl, rfl, hd⟩
    | reverse =>
      rw [Arena.answer, length_nodes]
      by_cases hp : parent < g.size
      · rw [addChild_of_lt hd hp, if_pos hp]
        exact ⟨arena_push (admits_of_lt hd hp), rfl, hd⟩
      · rw [addChild_of_le hd (Nat.le_of_not_lt hp), if_neg hp]
        exact ⟨rfl, rfl, hd⟩

/-- A run of calls does to the rows of a graph what it does to the graph. -/
theorem arena_afterCalls (g : Graph) (calls : List Call) :
    (g.afterCalls calls).arena = g.arena.afterCalls g.direction calls ∧
      (g.afterCalls calls).direction = g.direction := by
  induction calls generalizing g with
  | nil => exact ⟨rfl, rfl⟩
  | cons call calls ih =>
    obtain ⟨harena, -, hdirection⟩ := g.arena_answer call
    obtain ⟨hrest, hkept⟩ := ih (g.answer call).1
    rw [hdirection] at hrest hkept
    rw [harena] at hrest
    exact ⟨hrest, hkept⟩

/-- A refused call changes nothing: a tree refuses items, a chain refuses children, and a tree
refuses a child below a node that it does not have. -/
theorem answer_eq_error {call : Call} {e : CompileError} (h : (g.answer call).2 = .error e) :
    (g.answer call).1 = g ∧
      ((∃ n, call = .item n) ∧ g.direction = .reverse ∧ e = .invalidGraph .itemOnTree ∨
        (∃ parent n, call = .child parent n) ∧ g.direction = .forward ∧
          e = .invalidGraph .childOnChain ∨
        ∃ parent n, call = .child parent n ∧ g.direction = .reverse ∧ g.size ≤ parent ∧
          e = .unknownNode parent) := by
  cases call with
  | item n =>
    change (g.answered (g.addItem n)).2 = _ at h
    show (g.answered (g.addItem n)).1 = _ ∧ _
    cases hd : g.direction with
    | forward =>
      rw [addItem_of_forward hd] at h
      cases h
    | reverse =>
      rw [addItem_of_reverse hd] at h ⊢
      cases h
      exact ⟨rfl, Or.inl ⟨⟨n, rfl⟩, rfl, rfl⟩⟩
  | child parent n =>
    change (g.answered (g.addChild parent n)).2 = _ at h
    show (g.answered (g.addChild parent n)).1 = _ ∧ _
    cases hd : g.direction with
    | forward =>
      rw [addChild_of_forward hd] at h ⊢
      cases h
      exact ⟨rfl, Or.inr (Or.inl ⟨⟨parent, n, rfl⟩, rfl, rfl⟩)⟩
    | reverse =>
      by_cases hp : parent < g.size
      · rw [addChild_of_lt hd hp] at h
        cases h
      · have hle := Nat.le_of_not_lt hp
        rw [addChild_of_le hd hle] at h ⊢
        cases h
        exact ⟨rfl, Or.inr (Or.inr ⟨parent, n, rfl, rfl, hle, rfl⟩)⟩

/-! ### Visited partners -/

/-- The parts of nodes, one after the other; a node whose partner has not been visited is
refused. -/
def partsAmong (g : Graph) (mode : Mode) (visited : List Nat) :
    List Nat → Except CompileError (List Part)
  | [] => .ok []
  | id :: rest =>
    match g.partner? id with
    | some partner =>
      if partner ∈ visited then do
        let part ← g.part mode id
        let parts ← g.partsAmong mode (visited ++ [id]) rest
        return part :: parts
      else .error (.unknownNode partner)
    | none => do
      let part ← g.part mode id
      let parts ← g.partsAmong mode (visited ++ [id]) rest
      return part :: parts

/-- Behind a part of the walk, no partner is missing: it is in that part. -/
theorem partsAmong_of_walk_eq {mode : Mode} {visited rest : List Nat}
    (h : g.walk = visited ++ rest) :
    g.partsAmong mode visited rest = rest.mapM (g.part mode) := by
  induction rest generalizing visited with
  | nil => rfl
  | cons id rest ih =>
    have hrest := ih (h.trans (List.append_cons visited id rest))
    rw [partsAmong, List.mapM_cons, hrest]
    cases hp : g.partner? id with
    | none => rfl
    | some partner => exact if_pos (partner_before_walk h hp)

/-- In the order of the walk, no partner is missing: it has been visited before. -/
theorem partsAmong_walk (mode : Mode) :
    g.partsAmong mode [] g.walk = g.walk.mapM (g.part mode) :=
  partsAmong_of_walk_eq rfl

/-! ### Orderly graphs -/

/-- What holds for a graph that has been grown. -/
structure Orderly (g : Graph) : Prop where
  /-- A refused call changes nothing. -/
  refused : ∀ call e, (g.answer call).2 = .error e → (g.answer call).1 = g ∧
    ((∃ n, call = .item n) ∧ g.direction = .reverse ∧ e = .invalidGraph .itemOnTree ∨
      (∃ parent n, call = .child parent n) ∧ g.direction = .forward ∧
        e = .invalidGraph .childOnChain ∨
      ∃ parent n, call = .child parent n ∧ g.direction = .reverse ∧ g.size ≤ parent ∧
        e = .unknownNode parent)
  /-- The three rows are equally long, and tell the partner of a node and what is joined to
  it. -/
  rows : g.arena.parents.length = g.arena.nodes.length ∧
    g.arena.children.length = g.arena.nodes.length ∧
    ∀ id, (g.arena.parents[id]?).join = g.partner? id ∧
      g.arena.children.getD id [] = g.children id
  /-- A node is joined to its partner, and to no other node. -/
  agree : ∀ id child, child ∈ g.children id ↔ g.partner? child = some id
  /-- Nodes are joined to a node in the order in which they were added. -/
  increasing : ∀ id, (g.children id).Pairwise (· < ·)
  /-- Every node but the first has one partner, which has a smaller number. -/
  partner : g.partner? 0 = none ∧
    ∀ id, 0 < id → id < g.size → ∃ partner < id, g.partner? id = some partner
  /-- In a chain the partner is the predecessor. -/
  chain : g.direction = .forward →
    (∀ id, id + 1 < g.size → g.partner? (id + 1) = some id) ∧ g.walk = List.range g.size
  /-- The loop over the stack ends, with the walk. -/
  loop : ∀ order, Loop g (if g.size = 0 then [] else [0]) order ↔ order = g.walk
  /-- The walk is the recursive pre-order. -/
  preorder : (0 < g.size → g.walk = g.preorder 0) ∧
    ∀ id, g.preorder id = id :: (g.children id).flatMap g.preorder
  /-- Every node is walked once. -/
  perm : g.walk.Perm (List.range g.size)
  /-- A node is walked behind its partner. -/
  partner_first : ∀ before id after partner, g.walk = before ++ id :: after →
    g.partner? id = some partner → partner ∈ before
  /-- What is below a node is walked in one go. -/
  subtree : ∀ id < g.size, g.preorder id <:+: g.walk ∧
    ∀ k, k ∈ g.preorder id ↔ g.Descends id k
  /-- A compilation finds the partner of every node among those visited before. -/
  visited : ∀ mode, g.partsAmong mode [] g.walk = g.walk.mapM (g.part mode)
  /-- No compilation misses a node. -/
  compiles : ∀ mode id, g.compile mode ≠ .error (.unknownNode id)

/-- Every graph is orderly: it carries the proof that partners have smaller numbers. -/
theorem orderly (g : Graph) : g.Orderly where
  refused := fun _ _ h => answer_eq_error h
  rows := by
    refine ⟨by simp [arena], by simp [arena, size], fun id => ?_⟩
    exact ⟨getElem?_parents id, getD_children id⟩
  agree := fun _ _ => mem_children
  increasing := fun id => List.pairwise_lt_range.filter _
  partner := by
    refine ⟨partner?_zero, fun id hpos hid => ?_⟩
    obtain ⟨partner, hpartner⟩ := exists_partner? hpos hid
    exact ⟨partner, (partner?_lt hpartner).1, hpartner⟩
  chain := fun hd => ⟨fun _ hid => partner?_succ_of_forward hd hid, walk_eq_range hd⟩
  loop := fun _ => loop_iff
  preorder := ⟨walk_eq_preorder, preorder_eq⟩
  perm := walk_perm
  partner_first := fun _ _ _ _ hwalk hp => partner_before_walk hwalk hp
  subtree := fun _ hid => ⟨preorder_infix_walk hid, fun _ => mem_preorder⟩
  visited := partsAmong_walk
  compiles := compile_ne_unknownNode

/-- A graph grown by any run of calls, refused ones included, is what the run makes of the
three rows, and is orderly. -/
theorem orderly_afterCalls (environment : Environment) (root : Option Node)
    (calls : List Call) :
    ((start environment root).afterCalls calls).arena =
        (Arena.start root).afterCalls (start environment root).direction calls ∧
      (∀ call, ((((start environment root).afterCalls calls).answer call).2 =
        (((Arena.start root).afterCalls (start environment root).direction calls).answer
          (start environment root).direction call).2)) ∧
      ((start environment root).afterCalls calls).Orderly := by
  obtain ⟨harena, hdirection⟩ := (start environment root).arena_afterCalls calls
  rw [arena_start] at harena
  refine ⟨harena, fun call => ?_, orderly _⟩
  obtain ⟨-, hanswer, -⟩ := ((start environment root).afterCalls calls).arena_answer call
  rw [hanswer, harena, hdirection]

end Graph

end ObjectQuery.Query
