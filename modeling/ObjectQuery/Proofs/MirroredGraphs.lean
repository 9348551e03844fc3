import ObjectQuery.Proofs.Growth
import ObjectQuery.Proofs.MirroredNodes

/-!
# Graphs that mirror their definitions

A definition of a chain gives one node for each entry, in order, and a definition of a tree
gives one for each entry of the tree: the tree of the graph is that of the definition, with the
entries below one another in the order in which they are written down.  Since a node is added in
front of what is below it, nodes are numbered in the order of the walk, which is the order of
reading.

## Main Definitions

* `NodeDefinition.Linked` — the link of a node, to the next one or to the one above
* `NodeDefinition.Stands`, `NodeDefinition.Planted` — a node, and a tree of nodes, in a graph
* `NodeDefinition.Grows` — what adding nodes below a node does to a graph
* `QueryDefinition.MirroredBy` — a graph that mirrors a definition

## Main Statements

* `linkChain_cons`, `addItems_cons`, `NodeDefinition.addBelow_eq_ok` — what one step of building
  a chain or a tree does
* `NodeDefinition.Grows.below`, `NodeDefinition.Grows.trans` — one node with what is below it, and
  further nodes behind it
* `NodeDefinition.grows_addAllBelow`, `linkChain_resolves` — whole trees and chains
* `NodeDefinition.Planted.stands_preorder` — a planted tree in the order of the walk
* `QueryDefinition.mirrored_build` — the graph of a definition
-/

namespace ObjectQuery.Definition

open ObjectQuery.Query ObjectQuery.Sql ObjectQuery.Outcome

variable {c : Catalog} {g grown : Graph}

/-! ### The nodes of a definition -/

mutual

/-- The nodes below a node. -/
def NodeDefinition.lower : NodeDefinition → List NodeDefinition
  | ⟨_, _, children⟩ => NodeDefinition.lowerAll children

/-- Nodes, each with the nodes below it. -/
def NodeDefinition.lowerAll : List NodeDefinition → List NodeDefinition
  | [] => []
  | d :: rest => d :: d.lower ++ NodeDefinition.lowerAll rest

end

/-- The definitions of all nodes, in the order in which they are written down. -/
def QueryDefinition.all (q : QueryDefinition) : List NodeDefinition :=
  q.nodes ++ q.root.elim [] fun root => root :: root.lower

/-! ### Nodes in a graph -/

/-- The link of a node is that of its definition: in a chain to the next node, in a tree to the
node above.  Without such a node there is no link. -/
def NodeDefinition.Linked (c : Catalog) (g : Graph) (d : NodeDefinition) (id : Nat) (n : Node) :
    Prop :=
  match g.direction with
  | .forward =>
    match g.node? (id + 1) with
    | some next =>
      Option.Rel (LinkDefinition.Resolves c n.objectType? next.objectType?) d.link n.link
    | none => n.link = none
  | .reverse =>
    match (g.partner? id).bind g.node? with
    | some above =>
      Option.Rel (LinkDefinition.Resolves c above.objectType? n.objectType?) d.link n.link
    | none => n.link = none

/-- A node of a graph mirrors its definition, has its link, and is named by its place if the
definition does not name it. -/
structure NodeDefinition.Stands (c : Catalog) (g : Graph) (d : NodeDefinition) (id : Nat)
    (n : Node) : Prop where
  node : g.node? id = some n
  mirrors : d.Mirrors c n
  aliasName : n.aliasName = d.aliasName.getD ("t" ++ toString id)
  linked : d.Linked c g id n

/-- A node of a graph stands for a definition, and the nodes whose partner it is stand, in the
same order, for the definitions below that one. -/
inductive NodeDefinition.Planted (c : Catalog) (g : Graph) : NodeDefinition → Nat → Prop
  | mk {d : NodeDefinition} {id : Nat} (hstands : ∃ n, d.Stands c g id n)
      (hbelow : List.Forall₂ (NodeDefinition.Planted c g) d.children (g.children id)) :
      Planted c g d id

/-! ### What growing keeps -/

/-- A graph with more nodes behind the others. -/
structure Extends (g grown : Graph) (added : List Slot) : Prop where
  slots : grown.slots = g.slots ++ added
  direction : grown.direction = g.direction
  environment : grown.environment = g.environment
  linkTable : grown.linkTable = g.linkTable

namespace Extends

theorem refl (g : Graph) : Extends g g [] := ⟨(List.append_nil _).symm, rfl, rfl, rfl⟩

theorem trans {middle : Graph} {added more : List Slot} (h : Extends g middle added)
    (h' : Extends middle grown more) : Extends g grown (added ++ more) := by
  refine ⟨?_, h'.direction.trans h.direction, h'.environment.trans h.environment,
    h'.linkTable.trans h.linkTable⟩
  rw [h'.slots, h.slots, List.append_assoc]

theorem push (n : Node) (partner : Option Nat) (h : g.direction.Admits g.size partner) :
    Extends g (g.push n partner h) [⟨{ n with position := g.size }, partner⟩] :=
  ⟨rfl, rfl, rfl, rfl⟩

variable {added : List Slot}

theorem size_eq (h : Extends g grown added) : grown.size = g.size + added.length := by
  rw [Graph.size, h.slots, List.length_append]
  rfl

theorem node?_of_lt (h : Extends g grown added) {id : Nat} (hid : id < g.size) :
    grown.node? id = g.node? id := by
  rw [Graph.node?, h.slots, List.getElem?_append_left hid]
  rfl

theorem partner?_of_lt (h : Extends g grown added) {id : Nat} (hid : id < g.size) :
    grown.partner? id = g.partner? id := by
  rw [Graph.partner?, h.slots, List.getElem?_append_left hid]
  rfl

end Extends

theorem NodeDefinition.Stands.lt_size {d : NodeDefinition} {id : Nat} {n : Node}
    (h : d.Stands c g id n) : id < g.size :=
  Graph.exists_node?_iff.mp ⟨n, h.node⟩

/-- In a tree, a node keeps standing for its definition when others are added. -/
theorem NodeDefinition.Stands.grow {added : List Slot} (hextends : Extends g grown added)
    (hd : g.direction = .reverse) {d : NodeDefinition} {id : Nat} {n : Node}
    (h : d.Stands c g id n) : d.Stands c grown id n := by
  have hlinked := h.linked
  have habove : (grown.partner? id).bind grown.node? = (g.partner? id).bind g.node? := by
    rw [hextends.partner?_of_lt h.lt_size]
    cases hpartner : g.partner? id with
    | none => rfl
    | some partner =>
      have hlt := (Graph.partner?_lt hpartner).1
      exact hextends.node?_of_lt (hlt.trans h.lt_size)
  refine ⟨?_, h.mirrors, h.aliasName, ?_⟩
  · rw [hextends.node?_of_lt h.lt_size]
    exact h.node
  · rw [Linked, hd] at hlinked
    rw [Linked, hextends.direction, hd, habove]
    exact hlinked

/-- Nodes are added, but none is joined to a node behind `first` that was there. -/
structure Spares (first : Nat) (g grown : Graph) : Prop where
  added : ∃ added, Extends g grown added
  children : ∀ k, first ≤ k → k < g.size → grown.children k = g.children k

theorem Spares.preorder_eq {first : Nat} (h : Spares first g grown) {id : Nat}
    (hfirst : first ≤ id) (hid : id < g.size) : grown.preorder id = g.preorder id := by
  induction id using Graph.preorder.induct (g := g) with
  | case1 id ih =>
    rw [Graph.preorder_eq, Graph.preorder_eq, h.children id hfirst hid]
    refine congrArg (id :: ·) (List.flatMap_congr fun child hchild => ?_)
    have hlt := Graph.partner?_lt (Graph.mem_children.mp hchild)
    exact ih ⟨child, hchild⟩ (hfirst.trans (Nat.le_of_lt hlt.1)) hlt.2

mutual

/-- A planted tree is left alone when nothing is joined to its nodes.  By recursion on the
definition. -/
theorem Spares.planted {first : Nat} (h : Spares first g grown) (hd : g.direction = .reverse) :
    ∀ (d : NodeDefinition) {id : Nat}, first ≤ id → d.Planted c g id → d.Planted c grown id
  | ⟨source, criteria, children⟩, id, hfirst, .mk ⟨n, hn⟩ hbelow => by
    obtain ⟨added, hextends⟩ := h.added
    refine .mk ⟨n, hn.grow hextends hd⟩ ?_
    rw [h.children id hfirst hn.lt_size]
    refine h.plantedAll hd children (fun child hchild => ?_) hbelow
    have hlt := (Graph.partner?_lt (Graph.mem_children.mp hchild)).1
    exact hfirst.trans (Nat.le_of_lt hlt)

theorem Spares.plantedAll {first : Nat} (h : Spares first g grown)
    (hd : g.direction = .reverse) : ∀ (ds : List NodeDefinition) {ids : List Nat},
      (∀ id ∈ ids, first ≤ id) → List.Forall₂ (NodeDefinition.Planted c g) ds ids →
        List.Forall₂ (NodeDefinition.Planted c grown) ds ids
  | [], _, _, .nil => .nil
  | d :: rest, _, hfirst, .cons hplanted hrest => by
    rw [List.forall_mem_cons] at hfirst
    exact .cons (h.planted hd d hfirst.1 hplanted) (h.plantedAll hd rest hfirst.2 hrest)

end

/-! ### Growing trees -/

/-- What adding a node to a tree does: the node is built, linked to its partner and added as the
last one, and then what is below it is added. -/
theorem NodeDefinition.addBelow_eq_ok {source : NodeSource} {criteria : List CriterionDefinition}
    {children : List NodeDefinition} {parent : Nat} {g grown : Graph}
    (h : NodeDefinition.addBelow c parent g ⟨source, criteria, children⟩ = .ok grown) :
    ∃ n partner link hadmits, NodeDefinition.build c ⟨source, criteria, children⟩ = .ok n ∧
      g.direction = .reverse ∧ parent < g.size ∧ g.node? parent = some partner ∧
      source.buildLink c partner.toNodeSettings n.toNodeSettings = .ok link ∧
      NodeDefinition.addAllBelow c g.size (g.push { n with link } (some parent) hadmits)
        children = .ok grown := by
  obtain ⟨n, hbuild, h⟩ := bind_eq_ok_iff.mp h
  obtain ⟨partner, hpartner, h⟩ := bind_eq_ok_iff.mp h
  obtain ⟨link, hlink, h⟩ := bind_eq_ok_iff.mp h
  obtain ⟨⟨longer, id⟩, hadd, h⟩ := bind_eq_ok_iff.mp h
  have hnode := Graph.node_eq_ok_iff.mp (fromGraph_eq_ok_iff.mp hpartner)
  rw [fromGraph_eq_ok_iff, Graph.addChild] at hadd
  split at hadd
  · next hdirection =>
    split at hadd
    · next hparent =>
      cases hadd
      exact ⟨n, partner, link, _, hbuild, hdirection, hparent, hnode, hlink, h⟩
    · cases hadd
  · cases hadd

/-- Trees are added below a node: nothing else is joined to the nodes that there were, the trees
stand for the definitions, and their nodes are numbered in pre-order. -/
structure NodeDefinition.Grows (c : Catalog) (ds : List NodeDefinition) (parent : Nat)
    (g grown : Graph) (ids : List Nat) : Prop where
  added : ∃ added, Extends g grown added
  children : ∀ k < g.size, grown.children k = g.children k ++ if k = parent then ids else []
  planted : List.Forall₂ (NodeDefinition.Planted c grown) ds ids
  numbered : ids.flatMap grown.preorder = List.range' g.size (grown.size - g.size)

namespace NodeDefinition

namespace Grows

variable {parent : Nat} {ds : List NodeDefinition} {ids : List Nat}

theorem refl (g : Graph) (parent : Nat) : Grows c [] parent g g [] where
  added := ⟨[], .refl g⟩
  children := by simp
  planted := .nil
  numbered := by simp

theorem size_le (h : Grows c ds parent g grown ids) : g.size ≤ grown.size := by
  obtain ⟨added, hextends⟩ := h.added
  rw [hextends.size_eq]
  exact Nat.le_add_right g.size added.length

/-- The added trees have new nodes only. -/
theorem bounds (h : Grows c ds parent g grown ids) {id : Nat} (hid : id ∈ ids) :
    g.size ≤ id ∧ id < grown.size := by
  have hmem : id ∈ List.range' g.size (grown.size - g.size) := by
    rw [← h.numbered, List.mem_flatMap]
    exact ⟨id, hid, Graph.mem_preorder.mpr .refl⟩
  have hsize := h.size_le
  rw [List.mem_range'_1] at hmem
  omega

/-- The nodes that there were are spared, from any number behind the one below which the trees
are added. -/
theorem spares (h : Grows c ds parent g grown ids) {first : Nat} (hparent : parent < first) :
    Spares first g grown := by
  refine ⟨h.added, fun k hk hid => ?_⟩
  rw [h.children k hid, if_neg (Nat.ne_of_gt (hparent.trans_le hk)), List.append_nil]

/-- Trees are added behind others, below the same node. -/
theorem trans {middle : Graph} {more : List NodeDefinition} {others : List Nat}
    (hd : g.direction = .reverse) (hparent : parent < g.size)
    (h : Grows c ds parent g middle ids) (h' : Grows c more parent middle grown others) :
    Grows c (ds ++ more) parent g grown (ids ++ others) := by
  have hspares := h'.spares hparent
  obtain ⟨added, hextends⟩ := h.added
  obtain ⟨added', hextends'⟩ := h'.added
  have hle := h.size_le
  have hle' := h'.size_le
  refine ⟨⟨_, hextends.trans hextends'⟩, fun k hk => ?_, ?_, ?_⟩
  · rw [h'.children k (hk.trans_le hle), h.children k hk]
    split
    · exact List.append_assoc ..
    · simp only [List.append_nil]
  · refine List.rel_append ?_ h'.planted
    exact hspares.plantedAll (hextends.direction.trans hd) ds (fun id hid => (h.bounds hid).1)
      h.planted
  -- What is below the first trees has been numbered before the others were added.
  · have hkept : ids.flatMap grown.preorder = ids.flatMap middle.preorder :=
      List.flatMap_congr fun id hid => hspares.preorder_eq (h.bounds hid).1 (h.bounds hid).2
    have hmiddle : g.size + (middle.size - g.size) = middle.size := by omega
    have hsum : middle.size - g.size + (grown.size - middle.size) = grown.size - g.size := by
      omega
    rw [List.flatMap_append, hkept, h.numbered, h'.numbered, ← hsum, ← List.range'_append_1,
      hmiddle]

end Grows

/-- A new node stands for a definition, below the node that it is linked to. -/
theorem stands_push {parent : Nat} (hd : g.direction = .reverse) (hparent : parent < g.size)
    {d : NodeDefinition} {n partner : Node} {link : Option Link} (hmirrors : d.Mirrors c n)
    (hpartner : g.node? parent = some partner)
    (hlink : Option.Rel (LinkDefinition.Resolves c partner.objectType? n.objectType?) d.link link)
    (hadmits : g.direction.Admits g.size (some parent)) :
    d.Stands c (g.push { n with link } (some parent) hadmits) g.size
      { n with link, position := g.size } := by
  have hextends := Extends.push { n with link } (some parent) hadmits
  refine ⟨?_, hmirrors.placed link g.size, (hmirrors.placed link g.size).aliasName_eq, ?_⟩
  · exact Graph.node?_push hadmits
  · rw [Linked, hextends.direction, hd, Graph.partner?_push, if_pos rfl]
    show match (g.push { n with link } (some parent) hadmits).node? parent with
      | some above => _
      | none => _
    rw [hextends.node?_of_lt hparent, hpartner]
    exact hlink

/-- A node is added to a tree, and then what is below it. -/
theorem Grows.below {parent : Nat} (hd : g.direction = .reverse) (hparent : parent < g.size)
    {d : NodeDefinition} {n : Node} {hadmits : g.direction.Admits g.size (some parent)}
    {ids : List Nat}
    (hstands : d.Stands c (g.push n (some parent) hadmits) g.size { n with position := g.size })
    (h : Grows c d.children g.size (g.push n (some parent) hadmits) grown ids) :
    Grows c [d] parent g grown [g.size] := by
  have hextends := Extends.push n (some parent) hadmits
  obtain ⟨added, hrest⟩ := h.added
  have hsize := Graph.size_push hadmits (n := n)
  have hlt := Graph.size_lt_push hadmits (n := n)
  have hle := h.size_le
  have hbelow : grown.children g.size = ids := by
    have hne : some parent ≠ some g.size := by simpa using Nat.ne_of_lt hparent
    rw [h.children g.size hlt, if_pos rfl, Graph.children_push, Graph.children_eq_nil le_rfl,
      if_neg hne]
    rfl
  refine ⟨⟨_, hextends.trans hrest⟩, fun k hk => ?_, ?_, ?_⟩
  · rw [h.children k (hk.trans hlt), if_neg (Nat.ne_of_lt hk), Graph.children_push,
      List.append_nil]
    simp only [Option.some.injEq, eq_comm]
  · refine .cons (.mk ⟨_, hstands.grow hrest hd⟩ ?_) .nil
    rw [hbelow]
    exact h.planted
  · rw [List.flatMap_singleton, Graph.preorder_eq, hbelow, h.numbered, hsize]
    have hcount : grown.size - g.size = grown.size - (g.size + 1) + 1 := by omega
    rw [hcount]
    rfl

mutual

/-- A definition is added below a node of a tree.  By recursion on the definition. -/
theorem grows_addBelow : ∀ (d : NodeDefinition) {parent : Nat} {g grown : Graph},
    d.addBelow c parent g = .ok grown → Grows c [d] parent g grown [g.size]
  | ⟨source, criteria, children⟩, parent, g, grown, h => by
    obtain ⟨n, partner, link, hadmits, hbuild, hd, hparent, hpartner, hlink, h⟩ :=
      addBelow_eq_ok h
    have hextends := Extends.push { n with link } (some parent) hadmits
    obtain ⟨ids, hbelow⟩ := grows_addAllBelow children (hextends.direction.trans hd)
      (Graph.size_lt_push hadmits) h
    obtain ⟨hmirrors, -⟩ := mirrors_build _ hbuild
    refine .below hd hparent ?_ hbelow
    exact stands_push hd hparent hmirrors hpartner (NodeSource.resolves_buildLink hlink) hadmits

/-- Definitions are added below a node of a tree. -/
theorem grows_addAllBelow : ∀ (ds : List NodeDefinition) {parent : Nat} {g grown : Graph},
    g.direction = .reverse → parent < g.size → addAllBelow c parent g ds = .ok grown →
      ∃ ids, Grows c ds parent g grown ids
  | [], parent, g, grown, _, _, h => by
    cases h
    exact ⟨[], .refl g parent⟩
  | d :: rest, parent, g, grown, hd, hparent, h => by
    obtain ⟨longer, hlonger, h⟩ := bind_eq_ok_iff.mp h
    have hfirst := grows_addBelow d hlonger
    obtain ⟨added, hextends⟩ := hfirst.added
    obtain ⟨ids, hrest⟩ := grows_addAllBelow rest (hextends.direction.trans hd)
      (hparent.trans_le hfirst.size_le) h
    exact ⟨g.size :: ids, hfirst.trans hd hparent hrest⟩

end

mutual

/-- A planted tree in pre-order: its nodes stand for the definitions in the order of reading. -/
theorem Planted.stands_preorder : ∀ {d : NodeDefinition} {id : Nat}, d.Planted c g id →
    List.Forall₂ (fun d id => ∃ n, d.Stands c g id n) (d :: d.lower) (g.preorder id)
  | ⟨source, criteria, children⟩, id, .mk hstands hbelow => by
    rw [Graph.preorder_eq]
    exact .cons hstands (Planted.stands_flatMap_preorder hbelow)

theorem Planted.stands_flatMap_preorder : ∀ {ds : List NodeDefinition} {ids : List Nat},
    List.Forall₂ (NodeDefinition.Planted c g) ds ids →
      List.Forall₂ (fun d id => ∃ n, d.Stands c g id n) (lowerAll ds) (ids.flatMap g.preorder)
  | [], _, .nil => .nil
  | d :: rest, id :: ids, .cons hplanted hrest => by
    rw [List.flatMap_cons]
    exact List.rel_append (Planted.stands_preorder hplanted)
      (Planted.stands_flatMap_preorder hrest)

end

end NodeDefinition

/-! ### Growing chains -/

/-- What adding nodes to the end of a chain does with the first of them. -/
theorem addItems_cons {g grown : Graph} {n : Node} {rest : List Node}
    (h : addItems g (n :: rest) = .ok grown) :
    ∃ hadmits, addItems (g.push n g.lastId? hadmits) rest = .ok grown := by
  obtain ⟨⟨longer, id⟩, hadd, h⟩ := bind_eq_ok_iff.mp h
  rw [fromGraph_eq_ok_iff, Graph.addItem] at hadd
  split at hadd
  · cases hadd
    exact ⟨_, h⟩
  · cases hadd

/-- The nodes of a chain in a graph: each gets its place behind those that there were. -/
theorem node?_addItems {nodes : List Node} (h : addItems g nodes = .ok grown) :
    (∃ added, Extends g grown added) ∧ grown.size = g.size + nodes.length ∧
      ∀ i, grown.node? (g.size + i) =
        nodes[i]?.map fun n => { n with position := g.size + i } := by
  induction nodes generalizing g with
  | nil =>
    cases h
    refine ⟨⟨[], .refl grown⟩, rfl, fun i => ?_⟩
    rw [Graph.node?, List.getElem?_eq_none (Nat.le_add_right grown.size i)]
    rfl
  | cons n rest ih =>
    obtain ⟨hadmits, h⟩ := addItems_cons h
    obtain ⟨⟨added, hextends⟩, hsize, hnode⟩ := ih h
    rw [Graph.size_push] at hsize hnode
    refine ⟨⟨_, (Extends.push n _ hadmits).trans hextends⟩, ?_, fun i => ?_⟩
    · rw [hsize, List.length_cons]
      omega
    · cases i with
      | zero =>
        rw [Nat.add_zero, hextends.node?_of_lt (Graph.size_lt_push hadmits)]
        exact Graph.node?_push hadmits
      | succ i =>
        have hplace : g.size + (i + 1) = g.size + 1 + i := by omega
        rw [hplace, hnode i, List.getElem?_cons_succ]

/-- What linking a chain does to its first node: its link leads to the next node, and nothing
stands below it. -/
theorem linkChain_cons {d : NodeDefinition} {n : Node} {rest : List (NodeDefinition × Node)}
    {linked : List Node} (h : linkChain c ((d, n) :: rest) = .ok linked) :
    d.children = [] ∧ ∃ link others, linked = { n with link } :: others ∧
      linkChain c rest = .ok others ∧
      match rest with
      | [] => link = none
      | (_, next) :: _ =>
        d.toNodeSource.buildLink c n.toNodeSettings next.toNodeSettings = .ok link := by
  rw [linkChain] at h
  split at h
  · next hchildren =>
    refine ⟨List.isEmpty_iff.mp hchildren, ?_⟩
    cases rest with
    | nil =>
      obtain ⟨link, hlink, h⟩ := bind_eq_ok_iff.mp h
      obtain ⟨others, hothers, h⟩ := bind_eq_ok_iff.mp h
      cases hlink
      cases h
      exact ⟨none, others, rfl, hothers, rfl⟩
    | cons next rest =>
      obtain ⟨link, hlink, h⟩ := bind_eq_ok_iff.mp h
      obtain ⟨others, hothers, h⟩ := bind_eq_ok_iff.mp h
      cases h
      exact ⟨link, others, rfl, hothers, hlink⟩
  · cases h

/-- Every node of a chain is linked to the next one, as its definition says. -/
theorem linkChain_resolves {ds : List NodeDefinition} {nodes linked : List Node}
    (hnodes : List.Forall₂ (fun d n => NodeDefinition.build c d = .ok n) ds nodes)
    (h : linkChain c (ds.zip nodes) = .ok linked) :
    linked.length = ds.length ∧ ∀ i d, ds[i]? = some d → d.children = [] ∧
      ∃ n, linked[i]? = some n ∧ d.Mirrors c n ∧
        match linked[i + 1]? with
        | some next =>
          Option.Rel (LinkDefinition.Resolves c n.objectType? next.objectType?) d.link n.link
        | none => n.link = none := by
  induction hnodes generalizing linked with
  | nil =>
    cases h
    exact ⟨rfl, fun _ _ h => nomatch h⟩
  | @cons d n ds nodes hbuild hrest ih =>
    obtain ⟨hchildren, link, others, rfl, hothers, hlink⟩ := linkChain_cons h
    obtain ⟨hlength, hall⟩ := ih hothers
    refine ⟨by rw [List.length_cons, hlength, List.length_cons], fun i d' hd' => ?_⟩
    cases i with
    | succ i => exact hall i d' hd'
    | zero =>
      cases hd'
      obtain ⟨hmirrors, -⟩ := d.mirrors_build hbuild
      refine ⟨hchildren, _, rfl, hmirrors.placed link n.position, ?_⟩
      cases hrest with
      | nil =>
        cases hothers
        exact hlink
      | cons hnext hlater =>
        obtain ⟨-, link', others', rfl, -⟩ := linkChain_cons hothers
        exact NodeSource.resolves_buildLink hlink

/-! ### Whole graphs -/

/-- A graph mirrors a definition. -/
structure QueryDefinition.MirroredBy (q : QueryDefinition) (c : Catalog) (g : Graph) : Prop where
  /-- A graph is a chain or a tree as its definition is. -/
  direction : g.direction = .forward ∧ q.nodes ≠ [] ∧ q.root = none ∨
    g.direction = .reverse ∧ q.nodes = [] ∧ q.root.isSome = true
  /-- There is a node for each entry and no other node. -/
  size : g.size = q.all.length
  /-- Nodes are numbered in the order in which the entries are read. -/
  stands : ∀ id d, q.all[id]? = some d → ∃ n, NodeDefinition.Stands c g d id n
  /-- The entries of a chain have nothing below them. -/
  flat : ∀ d ∈ q.nodes, d.children = []
  /-- The tree of the nodes is that of the entries. -/
  planted : ∀ root, q.root = some root → root.Planted c g 0
  /-- Nodes are walked by number. -/
  walk : g.walk = List.range g.size

/-- The chain of a definition. -/
theorem mirrored_buildChain {config : Config} {e : Environment} {q : QueryDefinition}
    (hroot : q.root = none) (hnonempty : q.nodes ≠ [])
    (h : buildChain c config e q.nodes = .ok g) :
    q.MirroredBy c g ∧ g.environment = e ∧ g.linkTable = config.linkTable := by
  obtain ⟨nodes, hnodes, h⟩ := bind_eq_ok_iff.mp h
  obtain ⟨linked, hlinked, h⟩ := bind_eq_ok_iff.mp h
  obtain ⟨hlength, hlinks⟩ := linkChain_resolves (mapM_eq_ok_iff.mp hnodes) hlinked
  obtain ⟨⟨added, hextends⟩, hsize, hnode⟩ := node?_addItems h
  have hdirection : g.direction = .forward := hextends.direction
  have hplace : ∀ i, g.node? i = linked[i]?.map fun n => { n with position := i } := by
    intro i
    have hi := hnode i
    rwa [show (config.configure (.forward e)).size + i = i from Nat.zero_add i] at hi
  have hall : q.all = q.nodes := by
    rw [QueryDefinition.all, hroot]
    exact List.append_nil q.nodes
  refine ⟨?_, hextends.environment, hextends.linkTable⟩
  refine ⟨Or.inl ⟨hdirection, hnonempty, hroot⟩, ?_, fun id d hd => ?_, fun d hd => ?_,
    fun root h => ?_, Graph.walk_eq_range hdirection⟩
  · rw [hall, hsize, hlength]
    exact Nat.zero_add q.nodes.length
  · rw [hall] at hd
    obtain ⟨-, n, hn, hmirrors, hlink⟩ := hlinks id d hd
    have hmirrors' := hmirrors.placed n.link id
    refine ⟨{ n with position := id }, ?_, hmirrors', hmirrors'.aliasName_eq, ?_⟩
    · rw [hplace, hn]
      rfl
    · rw [NodeDefinition.Linked, hdirection, hplace]
      cases hnext : linked[id + 1]? with
      | none =>
        rw [hnext] at hlink
        exact hlink
      | some next =>
        rw [hnext] at hlink
        exact hlink
  · obtain ⟨i, hi⟩ := List.mem_iff_getElem?.mp hd
    exact (hlinks i d hi).1
  · rw [hroot] at h
    cases h

/-- The tree of a definition. -/
theorem mirrored_buildTree {config : Config} {e : Environment} {q : QueryDefinition}
    {root : NodeDefinition} (hroot : q.root = some root) (hnodes : q.nodes = [])
    (h : buildTree c config e root = .ok g) :
    q.MirroredBy c g ∧ g.environment = e ∧ g.linkTable = config.linkTable := by
  obtain ⟨n, hn, h⟩ := bind_eq_ok_iff.mp h
  obtain ⟨hmirrors, hlink, -⟩ := root.mirrors_build hn
  obtain ⟨ids, hgrows⟩ := NodeDefinition.grows_addAllBelow root.children rfl Nat.zero_lt_one h
  obtain ⟨added, hextends⟩ := hgrows.added
  have hdirection : g.direction = .reverse := hextends.direction
  have hpos : 0 < g.size := hgrows.size_le
  have hchildren : g.children 0 = ids := hgrows.children 0 Nat.zero_lt_one
  have hfirst : root.Stands c (config.configure (.reverse e n)) 0 { n with position := 0 } := by
    have hmirrors' := hmirrors.placed n.link 0
    exact ⟨rfl, hmirrors', hmirrors'.aliasName_eq, hlink⟩
  have hplanted : root.Planted c g 0 := by
    refine .mk ⟨_, hfirst.grow hextends rfl⟩ ?_
    rw [hchildren]
    exact hgrows.planted
  have hpreorder : g.preorder 0 = List.range g.size := by
    have hcount : g.size = g.size - 1 + 1 := by omega
    rw [Graph.preorder_eq, hchildren, hgrows.numbered, List.range_eq_range', hcount]
    rfl
  have hstands := hplanted.stands_preorder
  rw [hpreorder] at hstands
  have hall : q.all = root :: root.lower := by
    rw [QueryDefinition.all, hroot, hnodes]
    rfl
  refine ⟨?_, hextends.environment, hextends.linkTable⟩
  refine ⟨Or.inr ⟨hdirection, hnodes, ?_⟩, ?_, fun id d hd => ?_, fun d hd => ?_,
    fun root' h => ?_, ?_⟩
  · rw [hroot]
    rfl
  · rw [hall, hstands.length_eq, List.length_range]
  · rw [hall] at hd
    obtain ⟨hid, rfl⟩ := List.getElem?_eq_some_iff.mp hd
    have hid' : id < (List.range g.size).length := hstands.length_eq ▸ hid
    simpa using hstands.get hid hid'
  · rw [hnodes] at hd
    cases hd
  · rw [hroot] at h
    cases h
    exact hplanted
  · rw [Graph.walk_eq_preorder hpos, hpreorder]

namespace QueryDefinition

variable {q : QueryDefinition} {config : Config} {e : Environment}

/-- The graph of a definition, without its return type. -/
theorem mirrored_buildGraph (h : q.buildGraph c config e = .ok g) :
    q.MirroredBy c g ∧ g.environment = e ∧ g.linkTable = config.linkTable := by
  unfold buildGraph at h
  split at h
  · next root hroot hnodes => exact mirrored_buildTree hroot hnodes h
  · next d rest hroot hnodes =>
    rw [← hnodes] at h
    refine mirrored_buildChain hroot ?_ h
    rw [hnodes]
    exact List.cons_ne_nil d rest
  · cases h
  · cases h

/-- Behind the graph of a definition, only the return type is set. -/
theorem build_eq_ok (h : q.build c config e = .ok g) : ∃ built,
    q.buildGraph c config e = .ok built ∧ ∃ type, g = { built with returnType := type } := by
  obtain ⟨built, hbuilt, h⟩ := bind_eq_ok_iff.mp h
  refine ⟨built, hbuilt, ?_⟩
  split at h
  · cases h
    exact ⟨g.returnType, rfl⟩
  · obtain ⟨t, -, h⟩ := bind_eq_ok_iff.mp h
    cases h
    exact ⟨some t.objectType, rfl⟩

/-- What is returned by default does not matter for what a graph mirrors. -/
theorem MirroredBy.returning (h : q.MirroredBy c g) (type : Option Int64) :
    q.MirroredBy c { g with returnType := type } where
  direction := h.direction
  size := h.size
  stands := fun id d hd => by
    obtain ⟨n, hn⟩ := h.stands id d hd
    exact ⟨n, hn.node, hn.mirrors, hn.aliasName, hn.linked⟩
  flat := h.flat
  planted := fun root hroot => by
    have hspares : Spares 0 g { g with returnType := type } := by
      refine ⟨⟨[], ?_⟩, fun _ _ _ => rfl⟩
      exact ⟨(List.append_nil g.slots).symm, rfl, rfl, rfl⟩
    refine hspares.planted ?_ root le_rfl (h.planted root hroot)
    rcases h.direction with ⟨-, -, hnone⟩ | ⟨hdirection, -⟩
    · rw [hroot] at hnone
      cases hnone
    · exact hdirection
  walk := by
    have hwalk : Graph.walk { g with returnType := type } = g.walk :=
      Graph.walk_congr rfl fun _ => rfl
    exact hwalk.trans h.walk

/-- A graph mirrors the definition that it is built from.  A chain has one node for each entry,
in order, linked to the next one; a tree has the tree of the entries, every node linked to the
one above and numbered in the order of reading, which is that of the walk. -/
theorem mirrored_build (h : q.build c config e = .ok g) : q.MirroredBy c g := by
  obtain ⟨built, hbuilt, type, rfl⟩ := build_eq_ok h
  obtain ⟨hmirrored, -⟩ := mirrored_buildGraph hbuilt
  exact hmirrored.returning type

end QueryDefinition

/-! ### Animals and stalls -/

namespace Farm

/-- The animals and the stalls. -/
def catalog : Catalog :=
  Catalog.Registry.toCatalog
    { tables := [(2, Query.Farm.animals), (3, Query.Farm.stalls)]
      objectTypes := [("ANIMAL", 2), ("STALL", 3)] }

/-- The animals with the stalls that they are linked to. -/
def herd : QueryDefinition where
  nodes :=
    [{ table := some "ANIMAL", link := some (.linkRow .first none (some 5)) },
      { table := some "STALL" }]

/-- Stalls with their animals, of which the first are shown with the stalls they moved to. -/
def census : QueryDefinition where
  root := some
    { table := some "STALL"
      criteria := [⟨.isNull "deleted_at", false, .and⟩, ⟨.isNull "moved_at", true, .and⟩]
      children :=
        [{ table := some "ANIMAL"
           link := some .parent
           children :=
            [{ table := some "STALL", link := some (.linkRow .first none (some 5)) }] },
          { table := some "ANIMAL", aliasName := some "guest", link := some .child
            join := .left }] }

end Farm

/-- The graphs of a chain and of a tree of animals and stalls. -/
theorem QueryDefinition.mirrored_build_farm :
    (∃ g, Farm.herd.build Farm.catalog {} .standard = .ok g ∧
      Farm.herd.MirroredBy Farm.catalog g) ∧
    ∃ g, Farm.census.build Farm.catalog {} .standard = .ok g ∧
      g.slots.map (·.partner) = [none, some 0, some 1, some 0] ∧
      g.slots.map (·.node.aliasName) = ["t0", "t1", "t2", "guest"] ∧
      g.slots.map (·.node.link) =
        [none, some .parent, some (.linkRow .first (some 5)), some .child] ∧
      Farm.census.MirroredBy Farm.catalog g := by
  have hherd : ∃ g, Farm.herd.build Farm.catalog {} .standard = .ok g := ⟨_, rfl⟩
  obtain ⟨g, hg⟩ := hherd
  refine ⟨⟨g, hg, mirrored_build hg⟩, _, rfl, rfl, ?_, rfl, mirrored_build rfl⟩
  decide

end ObjectQuery.Definition
