import ObjectQuery.Proofs.MirroredGraphs

/-!
# Graphs built from definitions

What building leaves open.  A built graph mirrors its definition, so every node of it has a
source, and so has every node inside a criterion; a link has its column lists checked.  Only
links that a definition leaves out, link types that it leaves open, and the link table of the
configuration can be missing in the graph.

## Main Definitions

* `NodeDefinition.usesLinkTable` — link filters inside the criteria of a definition
* `QueryDefinition.joined` — the definitions of the joined nodes
* `Places` — a node that is built from a definition
* `Assembled` — a graph that is built from a definition

## Main Statements

* `NodeDefinition.Mirrors.checked` — what stands inside the criterion of a node
* `LinkDefinition.Resolves.plans` — a link
* `NodeDefinition.Stands.places` — a node of a graph
* `QueryDefinition.assembled_build` — a whole graph
-/

namespace ObjectQuery.Definition

open ObjectQuery.Query ObjectQuery.Sql ObjectQuery.Outcome

variable {c : Catalog} {g : Graph}

/-! ### Criteria -/

mutual

/-- Whether a condition goes through the link table, at any depth. -/
def ConditionDefinition.usesLinkTable : ConditionDefinition → Bool
  | .linked _ _ _ => true
  | .inSubquery _ query => query.usesLinkTable
  | .all members => CriterionDefinition.anyUsesLinkTable members
  | .any members => CriterionDefinition.anyUsesLinkTable members
  | .group members => CriterionDefinition.anyUsesLinkTable members
  | .compare _ _ _ _ => false
  | .isNull _ => false
  | .between _ _ _ => false
  | .valueBetween _ _ _ => false
  | .touches _ _ => false
  | .inList _ _ => false
  | .freeText _ _ => false

/-- Whether a criterion goes through the link table, at any depth. -/
def CriterionDefinition.usesLinkTable : CriterionDefinition → Bool
  | ⟨condition, _, _⟩ => condition.usesLinkTable

/-- Whether one of several criteria goes through the link table. -/
def CriterionDefinition.anyUsesLinkTable : List CriterionDefinition → Bool
  | [] => false
  | criterion :: rest =>
    criterion.usesLinkTable || CriterionDefinition.anyUsesLinkTable rest

/-- Whether a criterion of a node goes through the link table, at any depth. -/
def NodeDefinition.usesLinkTable : NodeDefinition → Bool
  | ⟨_, criteria, _⟩ => CriterionDefinition.anyUsesLinkTable criteria

end

/-- Nodes with sources, and link filters exactly if some are expected. -/
def Checked (nodes : List Node) (filters : List LinkFilter) (uses : Bool) : Prop :=
  (∀ n ∈ nodes, n.source.isSome = true) ∧ (filters ≠ [] ↔ uses = true)

namespace Checked

theorem nil : Checked [] [] false := by
  constructor
  · exact List.forall_mem_nil _
  · simp

theorem append {nodes others : List Node} {filters more : List LinkFilter} {uses usesMore : Bool}
    (h : Checked nodes filters uses) (hothers : Checked others more usesMore) :
    Checked (nodes ++ others) (filters ++ more) (uses || usesMore) := by
  constructor
  · exact List.forall_mem_append.mpr ⟨h.1, hothers.1⟩
  · rw [Bool.or_eq_true, ← h.2, ← hothers.2, ne_eq, List.append_eq_nil_iff, not_and_or]

theorem cons {n : Node} {nodes : List Node} {filters : List LinkFilter} {uses : Bool}
    (hn : n.source.isSome = true) (h : Checked nodes filters uses) :
    Checked (n :: nodes) filters uses := by
  constructor
  · exact List.forall_mem_cons.mpr ⟨hn, h.1⟩
  · exact h.2

end Checked

/-- The connective of a criterion does not matter for what stands inside. -/
theorem inside_connectedBy (criterion : Criterion) (connective : Connective) :
    (criterion.connectedBy connective).nestedNodes = criterion.nestedNodes ∧
      (criterion.connectedBy connective).linkFilters = criterion.linkFilters := by
  obtain ⟨condition, negated, _⟩ := criterion
  exact ⟨rfl, rfl⟩

/-- Connectives do not matter for what stands inside criteria. -/
theorem nestedNodesAll_connectedBy (connective : Connective) (members : List Criterion) :
    Criterion.nestedNodesAll (members.map (Criterion.connectedBy · connective)) =
        Criterion.nestedNodesAll members ∧
      Criterion.linkFiltersAll (members.map (Criterion.connectedBy · connective)) =
        Criterion.linkFiltersAll members := by
  induction members with
  | nil => exact ⟨rfl, rfl⟩
  | cons member rest ih =>
    obtain ⟨hnodes, hfilters⟩ := inside_connectedBy member connective
    rw [List.map_cons, Criterion.nestedNodesAll, Criterion.nestedNodesAll,
      Criterion.linkFiltersAll, Criterion.linkFiltersAll, ih.1, ih.2, hnodes, hfilters]
    exact ⟨rfl, rfl⟩

/-- The criterion of a node holds what the criteria of its definition stand for. -/
theorem NodeDefinition.Mirrors.exists_criteria {d : NodeDefinition} {n : Node}
    (h : d.Mirrors c n) : ∃ built, List.Forall₂ (CriterionDefinition.Mirrors c) d.criteria built ∧
      Criterion.nestedNodesOf n.predicate = Criterion.nestedNodesAll built ∧
      Criterion.linkFiltersOf n.predicate = Criterion.linkFiltersAll built := by
  cases h with
  | bare => exact ⟨[], .nil, rfl, rfl⟩
  | @single source _ _ built _ _ hcriterion =>
    obtain ⟨hnodes, hfilters⟩ := inside_connectedBy built source.connective
    refine ⟨[built], .cons hcriterion .nil, ?_, ?_⟩
    · rw [Criterion.nestedNodesAll, Criterion.nestedNodesAll, List.append_nil]
      exact hnodes
    · rw [Criterion.linkFiltersAll, Criterion.linkFiltersAll, List.append_nil]
      exact hfilters
  | several _ _ hcriteria => exact ⟨_, hcriteria, rfl, rfl⟩

mutual

/-- What stands inside a condition that says what its definition says.  By recursion on the
definition: nested nodes are like all others. -/
theorem ConditionDefinition.Mirrors.checked : ∀ {d : ConditionDefinition}
    {condition : Condition}, d.Mirrors c condition →
      Checked condition.nestedNodes condition.linkFilters d.usesLinkTable
  | _, _, .compare _ _ _ => .nil
  | _, _, .compareFields _ _ _ => .nil
  | _, _, .isNull _ => .nil
  | _, _, .between _ _ _ => .nil
  | _, _, .valueBetween _ _ _ => .nil
  | _, _, .touches _ _ => .nil
  | _, _, .inList _ _ => .nil
  | _, _, .freeText _ _ => .nil
  | _, _, .linked _ _ _ =>
    ⟨List.forall_mem_nil _, iff_of_true (List.cons_ne_nil _ _) rfl⟩
  | .inSubquery _ query, _, .inSubquery _ hquery _ _ => by
    have hinside := NodeDefinition.Mirrors.checked hquery
    exact hinside.cons hquery.source_isSome
  | .group members, _, .group hmembers => CriterionDefinition.Mirrors.checkedAll hmembers
  | .all members, _, .all hmembers => by
    show Checked (Criterion.nestedNodesAll _) (Criterion.linkFiltersAll _) _
    rw [(nestedNodesAll_connectedBy .and _).1, (nestedNodesAll_connectedBy .and _).2]
    exact CriterionDefinition.Mirrors.checkedAll hmembers
  | .any members, _, .any hmembers => by
    show Checked (Criterion.nestedNodesAll _) (Criterion.linkFiltersAll _) _
    rw [(nestedNodesAll_connectedBy .or _).1, (nestedNodesAll_connectedBy .or _).2]
    exact CriterionDefinition.Mirrors.checkedAll hmembers

theorem CriterionDefinition.Mirrors.checked : ∀ {d : CriterionDefinition}
    {criterion : Criterion}, d.Mirrors c criterion →
      Checked criterion.nestedNodes criterion.linkFilters d.usesLinkTable
  | _, _, .mk _ _ hcondition => ConditionDefinition.Mirrors.checked hcondition

theorem CriterionDefinition.Mirrors.checkedAll : ∀ {ds : List CriterionDefinition}
    {criteria : List Criterion}, List.Forall₂ (CriterionDefinition.Mirrors c) ds criteria →
      Checked (Criterion.nestedNodesAll criteria) (Criterion.linkFiltersAll criteria)
        (CriterionDefinition.anyUsesLinkTable ds)
  | [], _, .nil => .nil
  | _ :: _, _, .cons hfirst hrest =>
    (CriterionDefinition.Mirrors.checked hfirst).append
      (CriterionDefinition.Mirrors.checkedAll hrest)

/-- The nodes inside the criterion of a node have sources. -/
theorem NodeDefinition.Mirrors.checked : ∀ {d : NodeDefinition} {n : Node}, d.Mirrors c n →
    Checked n.nestedNodes n.linkFilters d.usesLinkTable
  | ⟨source, criteria, _⟩, ⟨settings, predicate⟩, h => by
    obtain ⟨built, hcriteria, hnodes, hfilters⟩ := h.exists_criteria
    show Checked (Criterion.nestedNodesOf predicate) (Criterion.linkFiltersOf predicate) _
    rw [hnodes, hfilters]
    exact CriterionDefinition.Mirrors.checkedAll hcriteria

end

/-! ### Links -/

/-- Whether a link goes through the link table. -/
def LinkDefinition.usesLinkTable : LinkDefinition → Bool
  | .linkRow _ _ _ => true
  | _ => false

/-- Whether a link through the link table has its link type neither by name nor by
identifier. -/
def LinkDefinition.isOpen : LinkDefinition → Bool
  | .linkRow _ none none => true
  | _ => false

/-- A link goes through the link table as its definition does, and only an open link type can
be wrong with it. -/
structure LinkDefinition.Plans (d : LinkDefinition) (link : Link) : Prop where
  usesLinkTable : link.usesLinkTable = d.usesLinkTable
  wellFormed : link.WellFormed ↔ d.isOpen = false

/-- A link that is what its definition says goes through the link table as the definition
does. -/
theorem LinkDefinition.Resolves.plans {previous next : Option Int64} {d : LinkDefinition}
    {link : Link} (h : d.Resolves c previous next link) : d.Plans link := by
  cases h with
  | custom hlength hnonempty => exact ⟨rfl, iff_of_true ⟨hlength, hnonempty⟩ rfl⟩
  | given near name id => exact ⟨rfl, iff_of_true rfl (by cases name <;> rfl)⟩
  | named => exact ⟨rfl, iff_of_true rfl rfl⟩
  | unnamed => exact ⟨rfl, iff_of_false Bool.false_ne_true (Ne.symm Bool.false_ne_true)⟩
  | child | parent | freeText | denormalized | denormalizedReverse | denormalizedFull =>
    exact ⟨rfl, iff_of_true trivial rfl⟩

/-- A link, if there is one, is as its definition says. -/
def LinkPlaced : Option LinkDefinition → Option Link → Prop
  | none, link => link = none
  | some d, link => ∃ built, link = some built ∧ d.Plans built

/-- A link is built from a definition, or both are left out. -/
theorem LinkPlaced.eq_or {d : Option LinkDefinition} {link : Option Link}
    (h : LinkPlaced d link) :
    d = none ∧ link = none ∨ ∃ l built, d = some l ∧ link = some built ∧ l.Plans built := by
  cases d with
  | none => exact Or.inl ⟨rfl, h⟩
  | some l =>
    obtain ⟨built, hbuilt, hplans⟩ := h
    exact Or.inr ⟨l, built, rfl, hbuilt, hplans⟩

/-- A link is placed if it is what its definition says. -/
theorem linkPlaced_of_rel {previous next : Option Int64} {d : Option LinkDefinition}
    {link : Option Link} (h : Option.Rel (LinkDefinition.Resolves c previous next) d link) :
    LinkPlaced d link := by
  cases h with
  | none => rfl
  | some hresolves => exact ⟨_, rfl, hresolves.plans⟩

/-! ### Places -/

/-- A node is built from a definition; its link is that of the definition if it joins the
node. -/
structure Places (d : NodeDefinition) (joins : Bool) (n : Node) : Prop where
  source : n.source.isSome = true
  checked : Checked n.nestedNodes n.linkFilters d.usesLinkTable
  link : joins = true → LinkPlaced d.link n.link

/-- The nodes of a chain; the link of every node but the last joins the next one. -/
def chainPlaces : List NodeDefinition → List (NodeDefinition × Bool)
  | [] => []
  | d :: rest => (d, !rest.isEmpty) :: chainPlaces rest

/-! ### Whole graphs -/

/-- The nodes of a tree; the link of every node but the root joins it. -/
def treePlaces (root : NodeDefinition) : List (NodeDefinition × Bool) :=
  (root, false) :: root.lower.map (·, true)

namespace QueryDefinition

/-- The definitions of all nodes, each with whether its link joins it. -/
def placed (q : QueryDefinition) : List (NodeDefinition × Bool) :=
  chainPlaces q.nodes ++ q.root.elim [] treePlaces

/-- The definitions of the nodes whose links join them: in a chain all but the last, in a tree
all below the root. -/
def joined (q : QueryDefinition) : List NodeDefinition :=
  q.nodes.dropLast ++ q.root.elim [] NodeDefinition.lower

end QueryDefinition

theorem mem_chainPlaces {ds : List NodeDefinition} {d : NodeDefinition} :
    ((d, true) ∈ chainPlaces ds ↔ d ∈ ds.dropLast) ∧
      ((∃ joins, (d, joins) ∈ chainPlaces ds) ↔ d ∈ ds) := by
  induction ds with
  | nil => simp [chainPlaces]
  | cons first rest ih =>
    constructor
    · cases rest with
      | nil => simp [chainPlaces]
      | cons next rest =>
        rw [chainPlaces, List.mem_cons, ih.1, List.dropLast_cons_cons, List.mem_cons]
        simp
    · simp only [chainPlaces, List.mem_cons, Prod.mk.injEq, ← ih.2, exists_or]
      simp

theorem mem_treePlaces {root d : NodeDefinition} :
    ((d, true) ∈ treePlaces root ↔ d ∈ root.lower) ∧
      ((∃ joins, (d, joins) ∈ treePlaces root) ↔ d ∈ root :: root.lower) := by
  simp [treePlaces, exists_or]

theorem QueryDefinition.mem_joined {q : QueryDefinition} {d : NodeDefinition} :
    d ∈ q.joined ↔ (d, true) ∈ q.placed := by
  rw [joined, placed, List.mem_append, List.mem_append, mem_chainPlaces.1]
  cases q.root with
  | none => simp
  | some root => exact or_congr_right mem_treePlaces.1.symm

theorem QueryDefinition.mem_all {q : QueryDefinition} {d : NodeDefinition} :
    d ∈ q.all ↔ ∃ joins, (d, joins) ∈ q.placed := by
  simp only [all, placed, List.mem_append, exists_or, mem_chainPlaces.2]
  cases q.root with
  | none => simp
  | some root => exact or_congr_right mem_treePlaces.2.symm

/-- Whether a node keeps the link of a join: in a chain every node but the last, in a tree every
node but the root. -/
def keepsLink (g : Graph) (k : Nat) : Bool :=
  match g.direction with
  | .forward => decide (k + 1 < g.size)
  | .reverse => decide (0 < k)

/-- A graph is built from a definition and a configuration. -/
structure Assembled (q : QueryDefinition) (config : Config) (e : Environment) (g : Graph) :
    Prop where
  direction : g.direction = .forward ↔ q.nodes ≠ []
  nonempty : 0 < g.size
  environment : g.environment = e
  linkTable : g.linkTable = config.linkTable
  placed : List.Forall₂ (fun p s => Places p.1 p.2 s.node) q.placed g.slots
  joins : ∀ k d joins, q.placed[k]? = some (d, joins) → joins = keepsLink g k

theorem getElem?_chainPlaces (ds : List NodeDefinition) (k : Nat) :
    (chainPlaces ds)[k]? = ds[k]?.map fun d => (d, decide (k + 1 < ds.length)) := by
  induction ds generalizing k with
  | nil => rfl
  | cons d rest ih =>
    cases k with
    | zero =>
      cases rest with
      | nil => rfl
      | cons next rest => simp [chainPlaces]
    | succ k => simp [chainPlaces, ih]

/-- The entries of a definition, each with whether its link joins it. -/
theorem placed_eq_mapIdx {q : QueryDefinition} (h : q.MirroredBy c g) :
    q.placed = q.all.mapIdx fun k d => (d, keepsLink g k) := by
  refine List.ext_getElem? fun k => ?_
  have hsize := h.size
  rw [List.getElem?_mapIdx]
  rcases h.direction with ⟨hd, -, hroot⟩ | ⟨hd, hnodes, hroot⟩
  · rw [QueryDefinition.all, hroot, Option.elim_none, List.append_nil] at hsize ⊢
    rw [QueryDefinition.placed, hroot, Option.elim_none, List.append_nil, getElem?_chainPlaces,
      keepsLink, hd, hsize]
  · obtain ⟨root, hroot⟩ := Option.isSome_iff_exists.mp hroot
    rw [QueryDefinition.placed, QueryDefinition.all, hroot, hnodes, keepsLink, hd]
    show (treePlaces root)[k]? = (root :: root.lower)[k]?.map _
    cases k with
    | zero => rfl
    | succ k => simp [treePlaces]

/-- A node that stands for a definition is built from it. -/
theorem NodeDefinition.Stands.places {d : NodeDefinition} {id : Nat} {n : Node}
    (h : d.Stands c g id n) : Places d (keepsLink g id) n := by
  refine ⟨h.mirrors.source_isSome, h.mirrors.checked, fun hkeeps => ?_⟩
  have hlinked := h.linked
  unfold keepsLink at hkeeps
  cases hd : g.direction with
  | forward =>
    rw [hd] at hkeeps
    obtain ⟨next, hnext⟩ := Graph.exists_node?_iff.mpr (of_decide_eq_true hkeeps)
    rw [Linked, hd, hnext] at hlinked
    exact linkPlaced_of_rel hlinked
  | reverse =>
    rw [hd] at hkeeps
    obtain ⟨partner, hpartner⟩ := Graph.exists_partner? (of_decide_eq_true hkeeps) h.lt_size
    have hlt := (Graph.partner?_lt hpartner).1
    obtain ⟨above, habove⟩ := Graph.exists_node?_iff.mpr (hlt.trans h.lt_size)
    rw [Linked, hd, hpartner, Option.bind_some, habove] at hlinked
    exact linkPlaced_of_rel hlinked

/-- The graph of a definition. -/
theorem QueryDefinition.assembled_build {q : QueryDefinition} {config : Config} {e : Environment}
    (h : q.build c config e = .ok g) : Assembled q config e g := by
  obtain ⟨built, hbuilt, type, rfl⟩ := build_eq_ok h
  obtain ⟨hbuilt, henvironment, hlinkTable⟩ := mirrored_buildGraph hbuilt
  have hmirrored := hbuilt.returning type
  have hplaced := placed_eq_mapIdx hmirrored
  have hlength : q.placed.length = built.slots.length := by
    rw [hplaced, List.length_mapIdx]
    exact hbuilt.size.symm
  refine ⟨?_, ?_, henvironment, hlinkTable, ?_, fun k d joins hk => ?_⟩
  · rcases hbuilt.direction with ⟨hd, hnodes, -⟩ | ⟨hd, hnodes, -⟩
    · exact iff_of_true hd hnodes
    · refine iff_of_false ?_ (not_not_intro hnodes)
      rw [hd]
      decide
  · show 0 < built.size
    rw [hbuilt.size, List.length_pos_iff_ne_nil, QueryDefinition.all]
    rcases hbuilt.direction with ⟨-, hnodes, -⟩ | ⟨-, -, hroot⟩
    · exact List.append_ne_nil_of_left_ne_nil hnodes _
    · obtain ⟨root, hroot⟩ := Option.isSome_iff_exists.mp hroot
      rw [hroot]
      exact List.append_ne_nil_of_right_ne_nil _ (List.cons_ne_nil root root.lower)
  · refine List.forall₂_iff_get.mpr ⟨hlength, fun k hk hk' => ?_⟩
    have hall : k < q.all.length := hbuilt.size ▸ hk'
    obtain ⟨n, hn⟩ := hmirrored.stands k q.all[k] (List.getElem?_eq_getElem hall)
    have hnode : built.slots[k].node = n := by
      have hget := hn.node
      rw [Graph.node?, List.getElem?_eq_getElem hk'] at hget
      exact Option.some.inj hget
    simp only [List.get_eq_getElem, hplaced, List.getElem_mapIdx, hnode]
    exact hn.places
  · rw [hplaced, List.getElem?_mapIdx] at hk
    obtain ⟨d', -, hpair⟩ := Option.map_eq_some_iff.mp hk
    cases hpair
    rfl

/-! ### Nodes and definitions -/

namespace Assembled

variable {q : QueryDefinition} {config : Config} {e : Environment} {g : Graph}

/-- Every node is built from a definition at its place. -/
theorem exists_places (h : Assembled q config e g) {id : Nat} {n : Node}
    (hn : g.node? id = some n) :
    ∃ d, (d, keepsLink g id) ∈ q.placed ∧ Places d (keepsLink g id) n := by
  obtain ⟨slot, hslot, rfl⟩ := Option.map_eq_some_iff.mp hn
  obtain ⟨hid, hget⟩ := List.getElem?_eq_some_iff.mp hslot
  have hid' : id < q.placed.length := h.placed.length_eq ▸ hid
  have hplaces := h.placed.get hid' hid
  have hsome : q.placed[id]? = some q.placed[id] := List.getElem?_eq_getElem hid'
  have hjoins := h.joins id q.placed[id].1 q.placed[id].2 hsome
  refine ⟨q.placed[id].1, ?_, ?_⟩
  · rw [← hjoins]
    exact List.getElem_mem hid'
  · rw [← hjoins, ← hget]
    exact hplaces

/-- Every definition gives a node at its place. -/
theorem exists_node (h : Assembled q config e g) {d : NodeDefinition} {joins : Bool}
    (hd : (d, joins) ∈ q.placed) :
    ∃ id n, g.node? id = some n ∧ joins = keepsLink g id ∧ Places d joins n := by
  obtain ⟨id, hid, hget⟩ := List.mem_iff_getElem.mp hd
  have hid' : id < g.slots.length := h.placed.length_eq ▸ hid
  have hplaces := h.placed.get hid hid'
  have hsome : q.placed[id]? = some (d, joins) := by
    rw [List.getElem?_eq_getElem hid, hget]
  refine ⟨id, g.slots[id].node, ?_, h.joins id d joins hsome, ?_⟩
  · rw [Graph.node?, List.getElem?_eq_getElem hid']
    rfl
  · rw [List.get_eq_getElem, hget] at hplaces
    exact hplaces

end Assembled

end ObjectQuery.Definition
