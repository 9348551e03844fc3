import ObjectQuery.Proofs.Compilable

/-!
# Chains and paths

A chain keeps the link between two neighbours at the first of them, a tree at the second.  So
the nodes of a chain also make a path in a tree, once every link is handed on to the next
node.  Unless a join goes through the link table or is a left join, chain and path compile to
the same text and values.

## Main Definitions

* `relinked` — nodes that carry the links of the nodes in front of them
* `Graph.addItems`, `Graph.addPath` — growing a chain or a path by several nodes
* `Graph.Lined` — a graph of nodes in a line
* `Graph.PathOf` — the path of a chain

## Main Statements

* `Graph.exists_addItems`, `Graph.exists_addPath` — growing succeeds and gives a line
* `Graph.PathOf.exists_visits`, `Graph.PathOf.part_eq_ok` — chain and path node by node
* `Graph.compile_path_iff` — they compile alike
-/

namespace ObjectQuery.Query

open ObjectQuery.Sql ObjectQuery.Calendar ObjectQuery.Outcome

/-! ### Nodes with other links -/

/-- The node with another link. -/
def Node.withLink (n : Node) (link : Option Link) : Node := { n with link }

/-- The criterion of a node does not depend on its link. -/
theorem Node.resolvePredicate_withLink (cx : Context) (scope : Scope) (n : Node)
    (link : Option Link) :
    (n.withLink link).resolvePredicate cx scope = n.resolvePredicate cx scope := by
  unfold Node.resolvePredicate
  cases n with
  | mk settings predicate => cases predicate <;> rfl

/-- What stands inside the criterion of a node does not depend on its link. -/
theorem Node.nestedNodes_withLink (n : Node) (link : Option Link) :
    (n.withLink link).nestedNodes = n.nestedNodes := by
  cases n
  rfl

theorem Node.linkFilters_withLink (n : Node) (link : Option Link) :
    (n.withLink link).linkFilters = n.linkFilters := by
  cases n
  rfl

/-- The visit of a node with another link. -/
def Visit.withLink (v : Visit) (link : Option Link) : Visit :=
  { v with node := v.node.withLink link }

theorem Visit.filters_withLink (v : Visit) (link : Option Link) (maxDate : DateTime) :
    (v.withLink link).filters maxDate = v.filters maxDate := rfl

/-! ### Nodes in a line -/

/-- The number in front of a number. -/
def predecessor : Nat → Option Nat
  | 0 => none
  | id + 1 => some id

/-- The nodes with other links: the first gets the given one, every other the link of the node
in front of it. -/
def relinked (link : Option Link) : List Node → List Node
  | [] => []
  | n :: rest => n.withLink link :: relinked n.link rest

theorem length_relinked (link : Option Link) (nodes : List Node) :
    (relinked link nodes).length = nodes.length := by
  induction nodes generalizing link with
  | nil => rfl
  | cons n rest ih => rw [relinked, List.length_cons, List.length_cons, ih]

/-- Behind a node stands the next one with its link. -/
theorem getElem?_relinked {m n : Node} {rest : List Node} {k : Nat}
    (hm : (m :: rest)[k]? = some n) {next : Node} (hnext : (m :: rest)[k + 1]? = some next) :
    (relinked m.link rest)[k]? = some (next.withLink n.link) := by
  induction rest generalizing m k with
  | nil => cases hnext
  | cons second rest ih =>
    cases k with
    | zero =>
      cases hm
      cases hnext
      rfl
    | succ k => exact ih hm hnext

namespace Graph

/-- A link that does not go through the link table has no link row. -/
theorem linkRow_of_direct {link : Link} {plan : JoinPlan} (hplan : link.plan = .ok plan)
    (hdirect : link.usesLinkTable = false) (g : Graph) (target : NodeSettings)
    (previous : String) : g.linkRow plan target previous = .ok none := by
  have hno : ¬∃ linkType near, plan = .linkTable linkType near := by
    rw [Link.exists_linkTable_iff hplan, hdirect]
    exact Bool.false_ne_true
  cases plan with
  | linkTable linkType near => exact absurd ⟨linkType, near, rfl⟩ hno
  | columns | freeText => rfl

/-- Adds nodes to the end of a chain, in order. -/
def addItems (g : Graph) : List Node → Except CompileError Graph
  | [] => .ok g
  | n :: rest => do
    let (longer, _) ← g.addItem n
    longer.addItems rest

/-- Adds nodes to a tree, each below the node in front of it. -/
def addPath (g : Graph) (parent : Nat) : List Node → Except CompileError Graph
  | [] => .ok g
  | n :: rest => do
    let (longer, id) ← g.addChild parent n
    longer.addPath id rest

/-- A graph of nodes in a line, each joined to its predecessor, without further settings. -/
structure Lined (g : Graph) (d : Direction) (environment : Environment) (nodes : List Node) :
    Prop where
  environment : g.environment = environment
  direction : g.direction = d
  returnType : g.returnType = none
  slots : g.slots = nodes.mapIdx fun id n => ⟨{ n with position := id }, predecessor id⟩

namespace Lined

variable {g : Graph} {d : Direction} {environment : Environment} {nodes : List Node}

theorem size_eq (h : g.Lined d environment nodes) : g.size = nodes.length := by
  rw [size, h.slots, List.length_mapIdx]

/-- Another node at the end of the line. -/
theorem push (h : g.Lined d environment nodes) (n : Node) {partner : Option Nat}
    (hpartner : partner = predecessor g.size) (hadmits : g.direction.Admits g.size partner) :
    (g.push n partner hadmits).Lined d environment (nodes ++ [n]) := by
  refine ⟨h.environment, h.direction, h.returnType, ?_⟩
  show g.slots ++ [_] = _
  rw [List.mapIdx_append, h.slots, hpartner, h.size_eq]
  simp

theorem node?_eq (h : g.Lined d environment nodes) (id : Nat) :
    g.node? id = nodes[id]?.map fun n => { n with position := id } := by
  rw [node?, h.slots, List.getElem?_mapIdx, Option.map_map]
  rfl

theorem partner?_eq (h : g.Lined d environment nodes) (id : Nat) :
    g.partner? id = if id < nodes.length then predecessor id else none := by
  rw [partner?, h.slots, List.getElem?_mapIdx]
  by_cases hid : id < nodes.length
  · rw [List.getElem?_eq_getElem hid, if_pos hid]
    rfl
  · rw [List.getElem?_eq_none (Nat.le_of_not_lt hid), if_neg hid]
    rfl

end Lined

/-- Nodes can always be added to a chain. -/
theorem exists_addItems {g : Graph} {environment : Environment} {nodes : List Node}
    (h : g.Lined .forward environment nodes) (more : List Node) :
    ∃ chain, g.addItems more = .ok chain ∧
      chain.Lined .forward environment (nodes ++ more) := by
  induction more generalizing g nodes with
  | nil => exact ⟨g, rfl, by rwa [List.append_nil]⟩
  | cons n rest ih =>
    have hlast : g.lastId? = predecessor g.size := by
      unfold lastId?
      cases g.size <;> rfl
    obtain ⟨chain, hchain, hlined⟩ := ih (h.push n hlast (admits_lastId? h.direction))
    refine ⟨chain, ?_, by rwa [← List.append_cons] at hlined⟩
    rw [addItems, addItem, dif_pos h.direction]
    exact hchain

/-- Nodes can always be added to the end of a path. -/
theorem exists_addPath {g : Graph} {environment : Environment} {nodes : List Node} {parent : Nat}
    (h : g.Lined .reverse environment nodes) (hparent : nodes.length = parent + 1)
    (more : List Node) :
    ∃ path, g.addPath parent more = .ok path ∧
      path.Lined .reverse environment (nodes ++ more) := by
  induction more generalizing g nodes parent with
  | nil => exact ⟨g, rfl, by rwa [List.append_nil]⟩
  | cons n rest ih =>
    have hsize : g.size = parent + 1 := h.size_eq.trans hparent
    have hlt : parent < g.size := by omega
    have hlast : some parent = predecessor g.size := by rw [hsize, predecessor]
    have hlonger := h.push n hlast (admits_of_lt h.direction hlt)
    have hlength : (nodes ++ [n]).length = g.size + 1 := by
      rw [List.length_append, List.length_singleton, h.size_eq]
    obtain ⟨path, hpath, hlined⟩ := ih hlonger hlength
    refine ⟨path, ?_, by rwa [← List.append_cons] at hlined⟩
    rw [addPath, addChild, dif_pos h.direction, dif_pos hlt]
    exact hpath

/-! ### The path of a chain -/

/-- A chain, and the path of the same nodes in which each carries the link of the node in front
of it.  No join goes through the link table, and none but the first node, which is not joined,
is left-joined. -/
structure PathOf (chain path : Graph) : Prop where
  forward : chain.direction = .forward
  reverse : path.direction = .reverse
  environment : path.environment = chain.environment
  linkTable : path.linkTable = chain.linkTable
  statuses : path.statuses = chain.statuses
  returnType : chain.returnType = none
  size : path.size = chain.size
  partner : ∀ k, path.partner? k = chain.partner? k
  first : path.node? 0 = chain.node? 0
  node : ∀ k n next, chain.node? k = some n → chain.node? (k + 1) = some next →
    path.node? (k + 1) = some (next.withLink n.link)
  direct : ∀ k n link, k + 1 < chain.size → chain.node? k = some n → n.link = some link →
    link.usesLinkTable = false
  notLeft : ∀ k n, chain.node? (k + 1) = some n → n.join ≠ .left

namespace PathOf

variable {chain path : Graph} {mode : Mode}

theorem context_eq (h : PathOf chain path) : path.context mode = chain.context mode := by
  rw [context, context, h.environment, h.linkTable, h.statuses]

/-- A node of the path is the node of the chain up to its link. -/
theorem exists_node? (h : PathOf chain path) {k : Nat} {n : Node} (hn : chain.node? k = some n) :
    ∃ link, path.node? k = some (n.withLink link) := by
  cases k with
  | zero =>
    refine ⟨n.link, ?_⟩
    rw [h.first, hn]
    cases n
    rfl
  | succ k =>
    have hsize := exists_node?_iff.mp ⟨n, hn⟩
    obtain ⟨previous, hprevious⟩ := exists_node?_iff.mpr (Nat.lt_of_succ_lt hsize)
    exact ⟨previous.link, h.node k previous n hprevious hn⟩

/-- In a chain no node is isolated, and in this path none is either. -/
theorem isolated_eq_false (h : PathOf chain path) {k : Nat} {n : Node}
    (hn : chain.node? k = some n) (link : Option Link) :
    chain.isolated k n.toNodeSettings = false ∧
      path.isolated k (n.withLink link).toNodeSettings = false := by
  constructor
  · rw [isolated, h.forward]
    rfl
  · cases k with
    | zero =>
      rw [isolated, partner?_zero]
      simp
    | succ k =>
      have hjoin : ((n.withLink link).join == .left) = false :=
        beq_false_of_ne (h.notLeft k n hn)
      rw [isolated, hjoin, Bool.and_false]

theorem outerScope_eq (h : PathOf chain path) {k : Nat} {n : Node} (hn : chain.node? k = some n)
    (link : Option Link) :
    path.outerScope mode k (n.withLink link).toNodeSettings =
      chain.outerScope mode k n.toNodeSettings := by
  obtain ⟨hchain, hpath⟩ := h.isolated_eq_false hn link
  rw [outerScope, outerScope, hchain, hpath]
  rfl

/-- Whether a node is returned does not depend on its link. -/
theorem returned_eq (h : PathOf chain path) (k : Nat) :
    ((path.node? k).any fun n => n.returned) = (chain.node? k).any fun n => n.returned := by
  cases hn : chain.node? k with
  | some n =>
    obtain ⟨link, hlink⟩ := h.exists_node? hn
    rw [hlink]
    rfl
  | none =>
    have hnone : path.node? k = none := by
      rw [← Option.not_isSome_iff_eq_none, Option.isSome_iff_exists, exists_node?_iff, h.size,
        ← exists_node?_iff, hn]
      simp
    rw [hnone]

/-- So the same nodes contribute select items. -/
theorem projected_eq (h : PathOf chain path) (k : Nat) : path.projected k = chain.projected k := by
  have hanyReturned : path.anyReturned = chain.anyReturned := by
    rw [Bool.eq_iff_iff, anyReturned_iff, anyReturned_iff]
    simp only [h.returned_eq]
  have hpath : path.pinned? = none := by rw [pinned?, h.reverse]
  have hchain : chain.pinned? = none := by rw [pinned?, h.forward, h.returnType]
  rw [projected, projected, hanyReturned, h.returned_eq, hpath, hchain]

/-! ### One node of a chain and of its path -/

/-- The join of a node is planned alike, and without a link row. -/
theorem planJoin_eq (h : PathOf chain path) {k : Nat} {n : Node} (hn : chain.node? k = some n)
    {link : Option Link} (hlink : path.node? k = some (n.withLink link))
    {join : Option PlannedJoin} (hjoin : chain.planJoin mode k n.toNodeSettings = .ok join) :
    path.planJoin mode k (n.withLink link).toNodeSettings = .ok join ∧
      join.bind (·.row) = none := by
  cases hp : chain.partner? k with
  | none =>
    rw [planJoin_of_none hp] at hjoin
    cases hjoin
    exact ⟨planJoin_of_none ((h.partner k).trans hp) _, rfl⟩
  | some partner =>
    obtain ⟨previous, holder, kept, plan, row, hprevious, hholder, hkept, hplan, hrow, rfl⟩ :=
      (planJoin_eq_ok_iff hp).mp hjoin
    -- In a chain the partner is the predecessor, and it keeps the link.
    obtain rfl := eq_succ_of_partner? h.forward hp
    rw [h.forward] at hholder
    cases hprevious.symm.trans hholder
    rw [node_eq_ok_iff] at hprevious
    have hdirect := h.direct partner previous kept (partner?_lt hp).2 hprevious hkept
    have hnone : ∀ (g : Graph) (target : NodeSettings) (name : String),
        g.linkRow plan target name = .ok none :=
      fun g target name => linkRow_of_direct hplan hdirect g target name
    cases (hnone _ _ _).symm.trans hrow
    refine ⟨?_, rfl⟩
    -- In the path the node itself keeps the link.
    obtain ⟨other, hother⟩ := h.exists_node? hprevious
    have hcarried := h.node partner previous n hprevious hn
    refine (planJoin_eq_ok_iff ((h.partner _).trans hp)).mpr
      ⟨_, n.withLink previous.link, kept, plan, none, node_eq_ok_iff.mpr hother, ?_, hkept,
        hplan, hnone _ _ _, ?_⟩
    · rw [h.reverse]
      exact node_eq_ok_iff.mpr hcarried
    · rw [h.outerScope_eq hprevious other]

/-- A node of the chain answers for no link row. -/
theorem held_eq_none (h : PathOf chain path) {k : Nat} {v : Visit}
    (hv : chain.Visits mode k v) : v.held = none := by
  rw [← Option.not_isSome_iff_eq_none, heldRow_isSome_iff hv.node hv.join hv.held, holdsLinkRow,
    h.forward]
  intro hholds
  obtain ⟨huses, hlt⟩ := Bool.and_eq_true_iff.mp hholds
  obtain ⟨link, hlink, huses⟩ := Option.any_eq_true .. |>.mp huses
  rw [h.direct k v.node link (of_decide_eq_true hlt) hv.node hlink] at huses
  cases huses

/-- The visit of a node of the chain is one of the path, up to the link. -/
theorem exists_visits (h : PathOf chain path) {k : Nat} {v : Visit}
    (hv : chain.Visits mode k v) :
    ∃ link, path.Visits mode k (v.withLink link) := by
  obtain ⟨link, hlink⟩ := h.exists_node? hv.node
  obtain ⟨hjoin, hrow⟩ := h.planJoin_eq hv.node hlink hv.join
  refine ⟨link, hlink, hv.source, hjoin, ?_, ?_, ?_⟩
  -- A tree takes the link row from the join, a chain from the link behind; both have none.
  · show path.heldRow k _ v.join = .ok v.held
    rw [heldRow, h.reverse, h.held_eq_none hv]
    exact congrArg Except.ok hrow
  · show (v.node.withLink link).resolvePredicate (path.context mode) _ = .ok v.predicate
    rw [h.context_eq, Node.resolvePredicate_withLink]
    exact hv.predicate
  · show v.node.items (path.outerScope mode k (v.node.withLink link).toNodeSettings) _ = _
    rw [h.outerScope_eq hv.node link]
    exact hv.own

/-- A node is joined in line by both. -/
theorem joins_eq (h : PathOf chain path) {k : Nat} {v : Visit} (hv : chain.Visits mode k v)
    (link : Option Link) : (v.withLink link).joins path mode k = v.joins chain mode k := by
  obtain ⟨hchain, hpath⟩ := h.isolated_eq_false hv.node link
  cases hjoin : v.join with
  | none =>
    have hjoin' : (v.withLink link).join = none := hjoin
    rw [Visit.joins_of_none hjoin, Visit.joins_of_none hjoin']
  | some j =>
    have hjoin' : (v.withLink link).join = some j := hjoin
    rw [Visit.joins_of_inline hjoin hchain, Visit.joins_of_inline hjoin' hpath, h.context_eq]
    rfl

/-- A node shows no columns of a link row in either. -/
theorem linkItems_eq (h : PathOf chain path) {k : Nat} {v : Visit}
    (hv : chain.Visits mode k v) (link : Option Link) :
    path.linkItems k (v.withLink link).node.toNodeSettings v.join =
      chain.linkItems k v.node.toNodeSettings v.join := by
  obtain ⟨other, hother⟩ := h.exists_node? hv.node
  rw [linkItems, linkItems, (h.planJoin_eq hv.node hother hv.join).2]

/-- A visit contributes the same to both. -/
theorem visit_part_eq (h : PathOf chain path) {k : Nat} {v : Visit}
    (hv : chain.Visits mode k v) (link : Option Link) :
    (v.withLink link).part path mode k = v.part chain mode k := by
  obtain ⟨hchain, hpath⟩ := h.isolated_eq_false hv.node link
  have hisolated : path.isolated k (v.withLink link).node.toNodeSettings =
      chain.isolated k v.node.toNodeSettings := hpath.trans hchain.symm
  have houter : path.outerScope mode k (v.withLink link).node.toNodeSettings =
      chain.outerScope mode k v.node.toNodeSettings := h.outerScope_eq hv.node link
  have hlinkItems : path.linkItems k (v.withLink link).node.toNodeSettings
      (v.withLink link).join = chain.linkItems k v.node.toNodeSettings v.join :=
    h.linkItems_eq hv link
  rw [Visit.part, Visit.part, h.joins_eq hv, hisolated, houter, hlinkItems, h.environment,
    h.projected_eq, v.filters_withLink]
  rfl

/-- A node contributes to the path what it contributes to the chain. -/
theorem part_eq_ok (h : PathOf chain path) {k : Nat} {p : Part}
    (hp : chain.part mode k = .ok p) : path.part mode k = .ok p := by
  obtain ⟨v, hv, rfl⟩ := part_eq_ok_iff.mp hp
  obtain ⟨link, hpath⟩ := h.exists_visits hv
  exact part_eq_ok_iff.mpr ⟨_, hpath, (h.visit_part_eq hv link).symm⟩

/-! ### Whole graphs -/

/-- What a chain compiles to, its path compiles to. -/
theorem compile_eq_ok (h : PathOf chain path) {f : Fragment}
    (hf : chain.compile mode = .ok f) : path.compile mode = .ok f := by
  obtain ⟨hpos, words, q, hwords, hq, rfl⟩ := compile_eq_ok_iff.mp hf
  obtain ⟨root, source, parts, hroot, hsource, hparts, rfl⟩ := statement_eq_ok_iff.mp hq
  have hpathParts : path.walk.mapM (path.part mode) = .ok parts := by
    rw [walk_congr h.size h.partner]
    exact mapM_eq_ok_iff.mpr ((mapM_eq_ok_iff.mp hparts).imp fun _ _ => h.part_eq_ok)
  refine compile_eq_ok_iff.mpr ⟨h.size ▸ hpos, words, _, ?_, statement_eq_ok_iff.mpr
    ⟨root, source, parts, h.first.trans hroot, hsource, hpathParts, rfl⟩, ?_⟩
  · rw [h.environment]
    exact hwords
  · rw [h.environment]

/-- A chain is compilable if its path is. -/
theorem compilable (h : PathOf chain path) (hpath : path.Compilable) : chain.Compilable := by
  refine ⟨h.size ▸ hpath.nonempty, ?_, ?_, ?_, ?_, ?_⟩
  · rw [← h.environment]
    exact hpath.keywords
  · intro k n hn
    obtain ⟨link, hlink⟩ := h.exists_node? hn
    have hsource := hpath.sources k _ hlink
    exact hsource
  · intro k n hn
    obtain ⟨link, hlink⟩ := h.exists_node? hn
    have hnested := hpath.nestedSources k _ hlink
    rwa [Node.nestedNodes_withLink] at hnested
  · intro k partner hp
    obtain ⟨holder, link, hholder, hlink, hwell, htable⟩ :=
      hpath.joins k partner ((h.partner k).trans hp)
    rw [h.linkTable] at htable
    obtain rfl := eq_succ_of_partner? h.forward hp
    obtain ⟨hlt, hsize⟩ := partner?_lt hp
    obtain ⟨previous, hprevious⟩ := exists_node?_iff.mpr (hlt.trans hsize)
    obtain ⟨n, hn⟩ := exists_node?_iff.mpr hsize
    rw [h.reverse] at hholder
    cases (h.node partner previous n hprevious hn).symm.trans hholder
    refine ⟨previous, link, ?_, hlink, hwell, htable⟩
    rw [h.forward]
    exact hprevious
  · intro k n hn
    obtain ⟨link, hlink⟩ := h.exists_node? hn
    have hfilter := hpath.filterTable k _ hlink
    rwa [h.linkTable, Node.linkFilters_withLink] at hfilter

/-- A chain and its path compile to the same. -/
theorem compile_iff (h : PathOf chain path) (f : Fragment) :
    chain.compile mode = .ok f ↔ path.compile mode = .ok f := by
  constructor
  · exact h.compile_eq_ok
  · intro hf
    obtain ⟨f', hf'⟩ := (h.compilable (compilable_of_compile hf)).exists_compile mode
    cases (h.compile_eq_ok hf').symm.trans hf
    exact hf'

/-- The nodes of a chain in a line and its path, with the settings of both. -/
theorem of_lined {environment : Environment} {root : Node} {rest : List Node}
    (hchain : chain.Lined .forward environment (root :: rest))
    (hpath : path.Lined .reverse environment (root :: relinked root.link rest))
    (hlinks : ∀ n ∈ (root :: rest).dropLast, ∀ link, n.link = some link →
      link.usesLinkTable = false)
    (hjoins : ∀ n ∈ rest, n.join ≠ .left) (linkTable : Option LinkTable)
    (statuses : List String) :
    PathOf { chain with linkTable, statuses } { path with linkTable, statuses } := by
  have hlength : (root :: relinked root.link rest).length = (root :: rest).length := by
    rw [List.length_cons, List.length_cons, length_relinked]
  refine ⟨hchain.direction, hpath.direction, hpath.environment.trans hchain.environment.symm,
    rfl, rfl, hchain.returnType, ?_, ?_, ?_, ?_, ?_, ?_⟩
  · exact hpath.size_eq.trans (hlength.trans hchain.size_eq.symm)
  · intro k
    refine (hpath.partner?_eq k).trans (Eq.trans ?_ (hchain.partner?_eq k).symm)
    rw [hlength]
  · exact (hpath.node?_eq 0).trans (hchain.node?_eq 0).symm
  · intro k n next hn hnext
    obtain ⟨m, hm, rfl⟩ := Option.map_eq_some_iff.mp ((hchain.node?_eq k).symm.trans hn)
    obtain ⟨m', hm', rfl⟩ := Option.map_eq_some_iff.mp ((hchain.node?_eq (k + 1)).symm.trans hnext)
    refine (hpath.node?_eq (k + 1)).trans ?_
    rw [List.getElem?_cons_succ, getElem?_relinked hm hm']
    rfl
  · intro k n link hlt hn
    obtain ⟨m, hm, rfl⟩ := Option.map_eq_some_iff.mp ((hchain.node?_eq k).symm.trans hn)
    refine hlinks m (List.mem_iff_getElem?.mpr ⟨k, ?_⟩) link
    have hlt' : k + 1 < (root :: rest).length := hchain.size_eq ▸ hlt
    rw [List.getElem?_dropLast, if_pos (by omega), hm]
  · intro k n hn
    obtain ⟨m, hm, rfl⟩ := Option.map_eq_some_iff.mp ((hchain.node?_eq (k + 1)).symm.trans hn)
    exact hjoins m (List.mem_of_getElem? (List.getElem?_cons_succ.symm.trans hm))

end PathOf

/-- A chain of nodes, and the tree in which each of them hangs below the one in front of it
and carries its link, compile to the same text and values, or both not at all.  No join may go
through the link table, and only the first node may be left-joined. -/
theorem compile_path_iff (environment : Environment) (linkTable : Option LinkTable)
    (statuses : List String) (root : Node) (rest : List Node) (mode : Mode)
    (hlinks : ∀ n ∈ (root :: rest).dropLast, ∀ link, n.link = some link →
      link.usesLinkTable = false)
    (hjoins : ∀ n ∈ rest, n.join ≠ .left) :
    ∃ chain path, (forward environment).addItems (root :: rest) = .ok chain ∧
      (reverse environment root).addPath 0 (relinked root.link rest) = .ok path ∧
      ∀ f, { chain with linkTable, statuses }.compile mode = .ok f ↔
        { path with linkTable, statuses }.compile mode = .ok f := by
  have hempty : (forward environment).Lined .forward environment [] := ⟨rfl, rfl, rfl, rfl⟩
  have hroot : (reverse environment root).Lined .reverse environment [root] :=
    ⟨rfl, rfl, rfl, rfl⟩
  obtain ⟨chain, hchain, hline⟩ := exists_addItems hempty (root :: rest)
  obtain ⟨path, hpath, hline'⟩ := exists_addPath hroot rfl (relinked root.link rest)
  exact ⟨chain, path, hchain, hpath, fun f =>
    (PathOf.of_lined hline hline' hlinks hjoins linkTable statuses).compile_iff f⟩

end Graph

/-- The animals without a breed, which keep the link to their scores. -/
def Farm.keyed : Node where
  source := some (.table animals)
  link := some (.denormalized "object_id")
  predicate := some ⟨.isNull "breed", false, .and⟩
  history := true
  fields := some ["breed"]

/-- Animals with their scores as a chain and as a path, and what both compile to. -/
theorem Graph.compile_path_iff_farm :
    (∀ n ∈ [Farm.keyed, Farm.score].dropLast, ∀ link, n.link = some link →
      link.usesLinkTable = false) ∧
    (∀ n ∈ [Farm.score], n.join ≠ .left) ∧
    ∃ chain path f, (Graph.forward .standard).addItems [Farm.keyed, Farm.score] = .ok chain ∧
      (Graph.reverse .standard Farm.keyed).addPath 0 (relinked Farm.keyed.link [Farm.score]) =
        .ok path ∧
      { chain with linkTable := none, statuses := [] }.compile {} = .ok f ∧
      { path with linkTable := none, statuses := [] }.compile {} = .ok f ∧
      f.sql = "SELECT t0.\"breed\" AS \"t0_breed\", t1.\"object_id\" AS \"t1_object_id\"\n" ++
        "FROM farm.v_animal t0\n" ++
        "INNER JOIN (SELECT object_id FROM scores WHERE score > ?) t1 " ++
        "ON t0.\"object_id\" = t1.\"object_id\"\n" ++
        "WHERE (t0.\"breed\" IS NULL)" ∧
      f.values = [.integer 3] := by
  have hlinks : ∀ n ∈ [Farm.keyed, Farm.score].dropLast, ∀ link, n.link = some link →
      link.usesLinkTable = false := by
    intro n hn link hlink
    rw [List.mem_singleton.mp hn] at hlink
    cases hlink
    rfl
  have hjoins : ∀ n ∈ [Farm.score], n.join ≠ .left := by
    intro n hn
    rw [List.mem_singleton.mp hn]
    exact fun h => nomatch h
  obtain ⟨chain, path, hchain, hpath, hiff⟩ := Graph.compile_path_iff .standard none []
    Farm.keyed [Farm.score] {} hlinks hjoins
  have hcompiled : ∃ f, { chain with linkTable := none, statuses := [] }.compile {} = .ok f := by
    cases hchain
    exact ⟨_, rfl⟩
  obtain ⟨f, hf⟩ := hcompiled
  refine ⟨hlinks, hjoins, chain, path, f, hchain, hpath, hf, (hiff f).mp hf, ?_, ?_⟩
  · cases hchain
    cases hf
    decide +kernel
  · cases hchain
    cases hf
    rfl

end ObjectQuery.Query
