import ObjectQuery.Proofs.NestedSelects

/-!
# Nodes below nested nodes

A definition lists the nodes below a node in one place for all its nodes, but only below the root
of a tree does the list say anything.  In a chain it is refused.  Below a node inside a criterion
it is passed over: what stands there is neither built nor checked, so a definition with such
nodes is accepted and gives the graph that it gives without them.

## Main Definitions

* `NodeDefinition.throughout`, `NodeDefinition.inside` — the nodes that a definition holds
* `QueryDefinition.cut` — a definition without the nodes below nested nodes
* `QueryDefinition.flat` — a definition without the nodes below those of its chain

## Main Statements

* `ConditionDefinition.build_cut`, `NodeDefinition.addBelow_cut`, `linkChain_cutAll` — what
  stands below nested nodes is not read
* `linkChain_of_find?` — chains with nodes below others are refused
* `QueryDefinition.cut_eq_self_iff` — the definitions of which nothing is passed over
* `QueryDefinition.mem_throughout` — outside and inside of criteria
* `QueryDefinition.build_children` — what becomes of the nodes below other nodes
-/

namespace ObjectQuery.Definition

open ObjectQuery.Query ObjectQuery.Sql ObjectQuery.Outcome

variable {c : Catalog} {g : Graph}

/-! ### The nodes that a definition holds -/

mutual

/-- The nodes inside a condition, each with all nodes that it holds. -/
def ConditionDefinition.inside : ConditionDefinition → List NodeDefinition
  | .inSubquery _ query => query.throughout
  | .all members => CriterionDefinition.insideAll members
  | .any members => CriterionDefinition.insideAll members
  | .group members => CriterionDefinition.insideAll members
  | .compare _ _ _ _ => []
  | .isNull _ => []
  | .between _ _ _ => []
  | .valueBetween _ _ _ => []
  | .touches _ _ => []
  | .inList _ _ => []
  | .linked _ _ _ => []
  | .freeText _ _ => []

/-- The nodes inside a criterion, each with all nodes that it holds. -/
def CriterionDefinition.inside : CriterionDefinition → List NodeDefinition
  | ⟨condition, _, _⟩ => condition.inside

/-- The nodes inside several criteria. -/
def CriterionDefinition.insideAll : List CriterionDefinition → List NodeDefinition
  | [] => []
  | criterion :: rest => criterion.inside ++ CriterionDefinition.insideAll rest

/-- A node with all nodes that it holds, inside its criteria and below it. -/
def NodeDefinition.throughout : NodeDefinition → List NodeDefinition
  | ⟨source, criteria, children⟩ =>
    ⟨source, criteria, children⟩ ::
      (CriterionDefinition.insideAll criteria ++ NodeDefinition.throughoutAll children)

/-- Nodes, each with all nodes that it holds. -/
def NodeDefinition.throughoutAll : List NodeDefinition → List NodeDefinition
  | [] => []
  | d :: rest => d.throughout ++ NodeDefinition.throughoutAll rest

end

/-- The nodes inside the criteria of a node, each with all nodes that it holds. -/
def NodeDefinition.inside (d : NodeDefinition) : List NodeDefinition :=
  CriterionDefinition.insideAll d.criteria

namespace QueryDefinition

/-- The nodes of the chain or the root. -/
def tops (q : QueryDefinition) : List NodeDefinition := q.nodes ++ q.root.toList

/-- All nodes of a definition. -/
def throughout (q : QueryDefinition) : List NodeDefinition :=
  NodeDefinition.throughoutAll q.tops

/-- The nodes that stand outside of criteria: those of the chain or the tree, and those below
nodes of the chain. -/
def outside (q : QueryDefinition) : List NodeDefinition := NodeDefinition.lowerAll q.tops

/-- The nodes that stand inside criteria, each with all nodes that it holds. -/
def inside (q : QueryDefinition) : List NodeDefinition := q.outside.flatMap NodeDefinition.inside

end QueryDefinition

mutual

/-- A node holds the nodes below it, and what stands inside the criteria of these and its own. -/
theorem NodeDefinition.mem_throughout {e : NodeDefinition} : ∀ (d : NodeDefinition),
    e ∈ d.throughout ↔
      e ∈ d :: d.lower ∨ e ∈ (d :: d.lower).flatMap NodeDefinition.inside
  | ⟨source, criteria, children⟩ => by
    rw [throughout, lower, List.flatMap_cons, List.mem_cons, List.mem_cons, List.mem_append,
      List.mem_append, mem_throughoutAll children, inside]
    tauto

theorem NodeDefinition.mem_throughoutAll {e : NodeDefinition} : ∀ (ds : List NodeDefinition),
    e ∈ throughoutAll ds ↔ e ∈ lowerAll ds ∨ e ∈ (lowerAll ds).flatMap NodeDefinition.inside
  | [] => by simp [throughoutAll, lowerAll]
  | d :: rest => by
    rw [throughoutAll, lowerAll, List.flatMap_append, List.mem_append, List.mem_append,
      List.mem_append, mem_throughout d, mem_throughoutAll rest]
    tauto

end

/-- Every node of a definition stands outside of criteria or inside of one. -/
theorem QueryDefinition.mem_throughout {q : QueryDefinition} {d : NodeDefinition} :
    d ∈ q.throughout ↔ d ∈ q.outside ∨ d ∈ q.inside :=
  NodeDefinition.mem_throughoutAll q.tops

/-! ### Definitions without the nodes below nested nodes -/

mutual

/-- A condition without the nodes below those inside it. -/
def ConditionDefinition.cut : ConditionDefinition → ConditionDefinition
  | .inSubquery field query => .inSubquery field query.pruned
  | .all members => .all (CriterionDefinition.cutAll members)
  | .any members => .any (CriterionDefinition.cutAll members)
  | .group members => .group (CriterionDefinition.cutAll members)
  | .compare field comparison value other => .compare field comparison value other
  | .isNull field => .isNull field
  | .between field low high => .between field low high
  | .valueBetween value low high => .valueBetween value low high
  | .touches field box => .touches field box
  | .inList field values => .inList field values
  | .linked near linkType related => .linked near linkType related
  | .freeText sql values => .freeText sql values

/-- A criterion without the nodes below those inside it. -/
def CriterionDefinition.cut : CriterionDefinition → CriterionDefinition
  | ⟨condition, negated, connective⟩ => ⟨condition.cut, negated, connective⟩

/-- Criteria without the nodes below those inside them. -/
def CriterionDefinition.cutAll : List CriterionDefinition → List CriterionDefinition
  | [] => []
  | criterion :: rest => criterion.cut :: CriterionDefinition.cutAll rest

/-- A nested node without the nodes below it and below those inside its criteria. -/
def NodeDefinition.pruned : NodeDefinition → NodeDefinition
  | ⟨source, criteria, _⟩ => ⟨source, CriterionDefinition.cutAll criteria, []⟩

end

mutual

/-- A node with the nodes below it, without those below nested nodes. -/
def NodeDefinition.cut : NodeDefinition → NodeDefinition
  | ⟨source, criteria, children⟩ =>
    ⟨source, CriterionDefinition.cutAll criteria, NodeDefinition.cutAll children⟩

/-- Nodes without those below nested nodes. -/
def NodeDefinition.cutAll : List NodeDefinition → List NodeDefinition
  | [] => []
  | d :: rest => d.cut :: NodeDefinition.cutAll rest

end

/-- A definition without the nodes below nested nodes. -/
def QueryDefinition.cut (q : QueryDefinition) : QueryDefinition :=
  { q with nodes := NodeDefinition.cutAll q.nodes, root := q.root.map NodeDefinition.cut }

/-- A definition without the nodes below those of its chain. -/
def QueryDefinition.flat (q : QueryDefinition) : QueryDefinition :=
  { q with nodes := q.nodes.map fun d => { d with children := [] } }

mutual

/-- Nothing is cut from a condition exactly when nothing stands below the nodes inside it.  By
recursion on the condition. -/
theorem ConditionDefinition.cut_eq_self_iff : ∀ (d : ConditionDefinition),
    d.cut = d ↔ ∀ e ∈ d.inside, e.children = []
  | .inSubquery field query => by
    rw [ConditionDefinition.cut, ConditionDefinition.inside,
      ConditionDefinition.inSubquery.injEq, NodeDefinition.pruned_eq_self_iff query]
    exact and_iff_right rfl
  | .all members => by
    rw [ConditionDefinition.cut, ConditionDefinition.inside, ConditionDefinition.all.injEq,
      CriterionDefinition.cutAll_eq_self_iff members]
  | .any members => by
    rw [ConditionDefinition.cut, ConditionDefinition.inside, ConditionDefinition.any.injEq,
      CriterionDefinition.cutAll_eq_self_iff members]
  | .group members => by
    rw [ConditionDefinition.cut, ConditionDefinition.inside, ConditionDefinition.group.injEq,
      CriterionDefinition.cutAll_eq_self_iff members]
  | .compare _ _ _ _ => iff_of_true rfl (List.forall_mem_nil _)
  | .isNull _ => iff_of_true rfl (List.forall_mem_nil _)
  | .between _ _ _ => iff_of_true rfl (List.forall_mem_nil _)
  | .valueBetween _ _ _ => iff_of_true rfl (List.forall_mem_nil _)
  | .touches _ _ => iff_of_true rfl (List.forall_mem_nil _)
  | .inList _ _ => iff_of_true rfl (List.forall_mem_nil _)
  | .linked _ _ _ => iff_of_true rfl (List.forall_mem_nil _)
  | .freeText _ _ => iff_of_true rfl (List.forall_mem_nil _)

theorem CriterionDefinition.cut_eq_self_iff : ∀ (d : CriterionDefinition),
    d.cut = d ↔ ∀ e ∈ d.inside, e.children = []
  | ⟨condition, negated, connective⟩ => by
    rw [CriterionDefinition.cut, CriterionDefinition.inside, CriterionDefinition.mk.injEq,
      ConditionDefinition.cut_eq_self_iff condition]
    exact and_iff_left ⟨rfl, rfl⟩

theorem CriterionDefinition.cutAll_eq_self_iff : ∀ (ds : List CriterionDefinition),
    CriterionDefinition.cutAll ds = ds ↔
      ∀ e ∈ CriterionDefinition.insideAll ds, e.children = []
  | [] => iff_of_true rfl (List.forall_mem_nil _)
  | d :: rest => by
    rw [CriterionDefinition.cutAll, CriterionDefinition.insideAll, List.cons.injEq,
      List.forall_mem_append,
      CriterionDefinition.cut_eq_self_iff d, CriterionDefinition.cutAll_eq_self_iff rest]

/-- A nested node is left as it is when nothing stands below it or below a node that it
holds. -/
theorem NodeDefinition.pruned_eq_self_iff : ∀ (d : NodeDefinition),
    d.pruned = d ↔ ∀ e ∈ d.throughout, e.children = []
  | ⟨source, criteria, children⟩ => by
    rw [NodeDefinition.pruned, NodeDefinition.throughout, List.forall_mem_cons,
      List.forall_mem_append, NodeDefinition.mk.injEq,
      CriterionDefinition.cutAll_eq_self_iff criteria]
    constructor
    · rintro ⟨-, hcriteria, rfl⟩
      exact ⟨rfl, hcriteria, List.forall_mem_nil _⟩
    · rintro ⟨rfl, hcriteria, -⟩
      exact ⟨rfl, hcriteria, rfl⟩

end

mutual

/-- Nothing is cut from a node exactly when nothing stands below a nested node that it or a node
below it holds. -/
theorem NodeDefinition.cut_eq_self_iff : ∀ (d : NodeDefinition),
    d.cut = d ↔ ∀ e ∈ (d :: d.lower).flatMap NodeDefinition.inside, e.children = []
  | ⟨source, criteria, children⟩ => by
    rw [cut, lower, List.flatMap_cons, List.forall_mem_append, mk.injEq, inside,
      CriterionDefinition.cutAll_eq_self_iff criteria, cutAll_eq_self_iff children]
    exact and_iff_right rfl

theorem NodeDefinition.cutAll_eq_self_iff : ∀ (ds : List NodeDefinition),
    cutAll ds = ds ↔ ∀ e ∈ (lowerAll ds).flatMap NodeDefinition.inside, e.children = []
  | [] => iff_of_true rfl (List.forall_mem_nil _)
  | d :: rest => by
    rw [cutAll, lowerAll, List.cons.injEq, List.flatMap_append, List.forall_mem_append,
      cut_eq_self_iff d, cutAll_eq_self_iff rest]

end

mutual

/-- What is cut once has nothing left to be cut. -/
theorem ConditionDefinition.cut_cut : ∀ (d : ConditionDefinition), d.cut.cut = d.cut
  | .inSubquery field query =>
    congrArg (ConditionDefinition.inSubquery field) (NodeDefinition.pruned_pruned query)
  | .all members => congrArg ConditionDefinition.all (CriterionDefinition.cutAll_cutAll members)
  | .any members => congrArg ConditionDefinition.any (CriterionDefinition.cutAll_cutAll members)
  | .group members =>
    congrArg ConditionDefinition.group (CriterionDefinition.cutAll_cutAll members)
  | .compare _ _ _ _ => rfl
  | .isNull _ => rfl
  | .between _ _ _ => rfl
  | .valueBetween _ _ _ => rfl
  | .touches _ _ => rfl
  | .inList _ _ => rfl
  | .linked _ _ _ => rfl
  | .freeText _ _ => rfl

theorem CriterionDefinition.cut_cut : ∀ (d : CriterionDefinition), d.cut.cut = d.cut
  | ⟨condition, negated, connective⟩ =>
    congrArg (CriterionDefinition.mk · negated connective) (ConditionDefinition.cut_cut condition)

theorem CriterionDefinition.cutAll_cutAll : ∀ (ds : List CriterionDefinition),
    CriterionDefinition.cutAll (CriterionDefinition.cutAll ds) = CriterionDefinition.cutAll ds
  | [] => rfl
  | d :: rest =>
    congrArg₂ List.cons (CriterionDefinition.cut_cut d) (CriterionDefinition.cutAll_cutAll rest)

theorem NodeDefinition.pruned_pruned : ∀ (d : NodeDefinition), d.pruned.pruned = d.pruned
  | ⟨source, criteria, _⟩ =>
    congrArg (NodeDefinition.mk source · []) (CriterionDefinition.cutAll_cutAll criteria)

end

mutual

theorem NodeDefinition.cut_cut : ∀ (d : NodeDefinition), d.cut.cut = d.cut
  | ⟨source, criteria, children⟩ =>
    congrArg₂ (NodeDefinition.mk source) (CriterionDefinition.cutAll_cutAll criteria)
      (cutAll_cutAll children)

theorem NodeDefinition.cutAll_cutAll : ∀ (ds : List NodeDefinition),
    cutAll (cutAll ds) = cutAll ds
  | [] => rfl
  | d :: rest => congrArg₂ List.cons (cut_cut d) (cutAll_cutAll rest)

end

namespace NodeDefinition

theorem lowerAll_append (ds others : List NodeDefinition) :
    lowerAll (ds ++ others) = lowerAll ds ++ lowerAll others := by
  induction ds with
  | nil => rfl
  | cons d rest ih =>
    rw [List.cons_append, lowerAll, lowerAll, ih, List.append_assoc]

theorem length_cutAll (ds : List NodeDefinition) : (cutAll ds).length = ds.length := by
  induction ds with
  | nil => rfl
  | cons d rest ih => exact congrArg (· + 1) ih

/-- Cutting leaves the fields of a node and whether there are nodes below it. -/
theorem toNodeSource_cut (d : NodeDefinition) : d.cut.toNodeSource = d.toNodeSource := by
  cases d
  rfl

theorem isEmpty_children_cut (d : NodeDefinition) :
    d.cut.children.isEmpty = d.children.isEmpty := by
  obtain ⟨source, criteria, children⟩ := d
  cases children <;> rfl

end NodeDefinition

namespace QueryDefinition

/-- Nothing is cut from a definition exactly when nothing stands below its nested nodes. -/
theorem cut_eq_self_iff {q : QueryDefinition} : q.cut = q ↔ ∀ d ∈ q.inside, d.children = [] := by
  rw [inside, outside, tops, NodeDefinition.lowerAll_append, List.flatMap_append,
    List.forall_mem_append, ← NodeDefinition.cutAll_eq_self_iff, ← NodeDefinition.cutAll_eq_self_iff]
  obtain ⟨nodes, root, type⟩ := q
  cases root with
  | none => simp [cut, NodeDefinition.cutAll]
  | some root => simp [cut, NodeDefinition.cutAll]

theorem cut_cut (q : QueryDefinition) : q.cut.cut = q.cut := by
  obtain ⟨nodes, root, type⟩ := q
  unfold cut
  rw [NodeDefinition.cutAll_cutAll, Option.map_map]
  exact congrArg (QueryDefinition.mk _ · type) (congrArg (Option.map · root)
    (funext NodeDefinition.cut_cut))

end QueryDefinition

/-! ### What is not read -/

mutual

/-- A condition is built without what stands below the nodes inside it.  By recursion on the
condition: a nested node is built from its source and its criteria. -/
theorem ConditionDefinition.build_cut : ∀ (d : ConditionDefinition), d.cut.build c = d.build c
  | .inSubquery field query =>
    congrArg (Except.map (Condition.inSubquery field)) (NodeDefinition.build_pruned query)
  | .all members =>
    congrArg (Except.map fun built => (Criterion.all built).condition)
      (CriterionDefinition.buildAll_cutAll members)
  | .any members =>
    congrArg (Except.map fun built => (Criterion.any built).condition)
      (CriterionDefinition.buildAll_cutAll members)
  | .group members =>
    congrArg (Except.map fun built => (Criterion.group built).condition)
      (CriterionDefinition.buildAll_cutAll members)
  | .compare _ _ _ _ => rfl
  | .isNull _ => rfl
  | .between _ _ _ => rfl
  | .valueBetween _ _ _ => rfl
  | .touches _ _ => rfl
  | .inList _ _ => rfl
  | .linked _ _ _ => rfl
  | .freeText _ _ => rfl

theorem CriterionDefinition.build_cut : ∀ (d : CriterionDefinition), d.cut.build c = d.build c
  | ⟨condition, negated, connective⟩ =>
    congrArg (Except.map fun built => Criterion.mk built negated connective)
      (ConditionDefinition.build_cut condition)

theorem CriterionDefinition.buildAll_cutAll : ∀ (ds : List CriterionDefinition),
    CriterionDefinition.buildAll c (CriterionDefinition.cutAll ds) =
      CriterionDefinition.buildAll c ds
  | [] => rfl
  | d :: rest => by
    rw [CriterionDefinition.cutAll, CriterionDefinition.buildAll, CriterionDefinition.buildAll,
      CriterionDefinition.build_cut d, CriterionDefinition.buildAll_cutAll rest]

theorem NodeDefinition.build_pruned : ∀ (d : NodeDefinition), d.pruned.build c = d.build c
  | ⟨source, criteria, children⟩ => by
    rw [NodeDefinition.pruned, NodeDefinition.build, NodeDefinition.build,
      CriterionDefinition.buildAll_cutAll criteria]

end

namespace NodeDefinition

/-- A node is built from its source and its criteria; the nodes below it are not read. -/
theorem build_cut (d : NodeDefinition) : d.cut.build c = d.build c := by
  obtain ⟨source, criteria, children⟩ := d
  rw [cut, build, build, CriterionDefinition.buildAll_cutAll criteria]

mutual

/-- A tree is grown without what stands below nested nodes.  By recursion on the tree. -/
theorem addBelow_cut : ∀ (d : NodeDefinition) (parent : Nat) (g : Graph),
    d.cut.addBelow c parent g = d.addBelow c parent g
  | ⟨source, criteria, children⟩, parent, g => by
    have hbuild : NodeDefinition.build c ⟨source, CriterionDefinition.cutAll criteria, []⟩ =
        NodeDefinition.build c ⟨source, criteria, []⟩ := build_pruned ⟨source, criteria, []⟩
    rw [cut, addBelow, addBelow, hbuild]
    simp only [addAllBelow_cutAll children]

theorem addAllBelow_cutAll : ∀ (ds : List NodeDefinition) (parent : Nat) (g : Graph),
    addAllBelow c parent g (cutAll ds) = addAllBelow c parent g ds
  | [], _, _ => rfl
  | d :: rest, parent, g => by
    rw [cutAll, addAllBelow, addAllBelow, addBelow_cut d]
    simp only [addAllBelow_cutAll rest]

end

end NodeDefinition

/-- The link of a node of a chain to the nodes behind it. -/
def nextLink (c : Catalog) (d : NodeSource) (n : Node) :
    List (NodeDefinition × Node) → Built (Option Link)
  | [] => .ok none
  | (_, next) :: _ => d.buildLink c n.toNodeSettings next.toNodeSettings

/-- The first node of a chain is refused if there are nodes below it, and linked otherwise. -/
theorem linkChain_cons_eq (d : NodeDefinition) (n : Node) (rest : List (NodeDefinition × Node)) :
    linkChain c ((d, n) :: rest) =
      if d.children.isEmpty then do
        let link ← nextLink c d.toNodeSource n rest
        let others ← linkChain c rest
        return { n with link } :: others
      else .error (.invalid (.childrenInChain d.label)) := by
  rw [linkChain]
  cases rest <;> rfl

/-- A link leads to the next node, whatever its definition is. -/
theorem nextLink_zip (d : NodeSource) (n : Node) {ds others : List NodeDefinition}
    (h : ds.length = others.length) (nodes : List Node) :
    nextLink c d n (ds.zip nodes) = nextLink c d n (others.zip nodes) := by
  cases ds with
  | nil => rw [List.eq_nil_of_length_eq_zero h.symm]
  | cons first rest =>
    obtain ⟨first', rest', rfl⟩ := List.exists_cons_of_length_eq_add_one h.symm
    cases nodes <;> rfl

/-- Of a definition, the linking of a chain reads the fields of a node and whether there are
nodes below it. -/
theorem linkChain_cutAll (ds : List NodeDefinition) (nodes : List Node) :
    linkChain c ((NodeDefinition.cutAll ds).zip nodes) = linkChain c (ds.zip nodes) := by
  induction ds generalizing nodes with
  | nil => rfl
  | cons d rest ih =>
    cases nodes with
    | nil => rfl
    | cons n nodes =>
      rw [NodeDefinition.cutAll, List.zip_cons_cons, List.zip_cons_cons, linkChain_cons_eq,
        linkChain_cons_eq, d.isEmpty_children_cut, d.toNodeSource_cut,
        nextLink_zip _ n (NodeDefinition.length_cutAll rest), ih]

/-- The chain of a definition is built without what stands below nested nodes. -/
theorem buildChain_cutAll (config : Config) (e : Environment) (ds : List NodeDefinition) :
    buildChain c config e (NodeDefinition.cutAll ds) = buildChain c config e ds := by
  have hnodes : (NodeDefinition.cutAll ds).mapM (NodeDefinition.build c) =
      ds.mapM (NodeDefinition.build c) := by
    induction ds with
    | nil => rfl
    | cons d rest ih =>
      rw [NodeDefinition.cutAll, List.mapM_cons, List.mapM_cons, d.build_cut, ih]
  rw [buildChain, buildChain, hnodes]
  simp only [linkChain_cutAll]

/-- So is its tree. -/
theorem buildTree_cut (config : Config) (e : Environment) (root : NodeDefinition) :
    buildTree c config e root.cut = buildTree c config e root := by
  have hchildren : root.cut.children = NodeDefinition.cutAll root.children := by
    cases root
    rfl
  rw [buildTree, buildTree, root.build_cut, hchildren]
  simp only [NodeDefinition.addAllBelow_cutAll]

/-- Whatever stands below nested nodes, a definition gives the same graph or the same error. -/
theorem QueryDefinition.build_cut (q : QueryDefinition) (config : Config) (e : Environment) :
    q.cut.build c config e = q.build c config e := by
  have hgraph : q.cut.buildGraph c config e = q.buildGraph c config e := by
    obtain ⟨nodes, root, type⟩ := q
    cases root with
    | none =>
      cases nodes with
      | nil => rfl
      | cons d rest => exact buildChain_cutAll config e (d :: rest)
    | some root =>
      cases nodes with
      | nil => exact buildTree_cut config e root
      | cons d rest => rfl
  rw [build, build, hgraph]
  rfl

/-! ### Chains with nodes below others -/

/-- A chain with nodes below one of its own is refused for the first of these, unless another
error comes first. -/
theorem linkChain_of_find? {ds : List NodeDefinition} {nodes : List Node} {d : NodeDefinition}
    (hlength : nodes.length = ds.length)
    (h : ds.find? (fun d => !d.children.isEmpty) = some d) :
    linkChain c (ds.zip nodes) = .error (.invalid (.childrenInChain d.label)) ∨
      ∃ err, linkChain c (ds.zip nodes) = .error err ∧
        linkChain c ((ds.map fun d => { d with children := [] }).zip nodes) = .error err := by
  induction ds generalizing nodes with
  | nil => cases h
  | cons first rest ih =>
    obtain ⟨n, nodes, rfl⟩ := List.exists_cons_of_length_eq_add_one hlength
    rw [List.map_cons, List.zip_cons_cons, List.zip_cons_cons, linkChain_cons_eq,
      linkChain_cons_eq, nextLink_zip _ n (List.length_map ..)]
    cases hchildren : first.children.isEmpty with
    | false =>
      rw [List.find?_cons_of_pos (by rw [hchildren]; rfl), Option.some.injEq] at h
      rw [h]
      exact Or.inl rfl
    | true =>
      rw [List.find?_cons_of_neg (by rw [hchildren]; exact Bool.false_ne_true)] at h
      cases hlink : nextLink c first.toNodeSource n (rest.zip nodes) with
      | error err => exact Or.inr ⟨err, rfl, rfl⟩
      | ok link =>
        rcases ih (Nat.succ.inj hlength) h with hrest | ⟨err, hrest, hflat⟩
        · rw [hrest]
          exact Or.inl rfl
        · rw [hrest, hflat]
          exact Or.inr ⟨err, rfl, rfl⟩

theorem buildChain_of_find? {ds : List NodeDefinition} {d : NodeDefinition}
    (h : ds.find? (fun d => !d.children.isEmpty) = some d) (config : Config) (e : Environment) :
    buildChain c config e ds = .error (.invalid (.childrenInChain d.label)) ∨
      ∃ err, buildChain c config e ds = .error err ∧
        buildChain c config e (ds.map fun d => { d with children := [] }) = .error err := by
  have hnodes : (ds.map fun d => { d with children := [] }).mapM (NodeDefinition.build c) =
      ds.mapM (NodeDefinition.build c) := by
    rw [List.mapM_map]
    refine mapM_congr fun d _ => ?_
    obtain ⟨source, criteria, children⟩ := d
    rfl
  unfold buildChain
  rw [hnodes]
  cases hbuilt : ds.mapM (NodeDefinition.build c) with
  | error err => exact Or.inr ⟨err, rfl, rfl⟩
  | ok nodes =>
    have hlength := (mapM_eq_ok_iff.mp hbuilt).length_eq
    have hlinked {xs : List (NodeDefinition × Node)} {err : DefinitionError}
        (h : linkChain c xs = .error err) :
        (linkChain c xs >>= addItems (config.configure (.forward e))) = .error err :=
      bind_eq_error_iff.mpr (Or.inl h)
    rcases linkChain_of_find? hlength.symm h with hrefused | ⟨err, hchain, hflat⟩
    · exact Or.inl (hlinked hrefused)
    · exact Or.inr ⟨err, hlinked hchain, hlinked hflat⟩

namespace QueryDefinition

variable {q : QueryDefinition} {config : Config} {e : Environment}

/-- A definition with nodes below one of its chain is refused for the first of these, or for an
error that it also has without them. -/
theorem build_of_find? {d : NodeDefinition}
    (h : q.nodes.find? (fun d => !d.children.isEmpty) = some d) :
    q.build c config e = .error (.invalid (.childrenInChain d.label)) ∨
      ∃ err, q.build c config e = .error err ∧ q.flat.build c config e = .error err := by
  obtain ⟨nodes, root, type⟩ := q
  cases nodes with
  | nil => cases h
  | cons first rest =>
    cases root with
    | some root => exact Or.inr ⟨_, rfl, rfl⟩
    | none =>
      rcases buildChain_of_find? h config e with hrefused | ⟨err, hchain, hflat⟩
      · exact Or.inl (bind_eq_error_iff.mpr (Or.inl hrefused))
      · refine Or.inr ⟨err, ?_, ?_⟩
        · exact bind_eq_error_iff.mpr (Or.inl hchain)
        · exact bind_eq_error_iff.mpr (Or.inl hflat)

end QueryDefinition

/-! ### What becomes of the nodes below others -/

mutual

/-- In a planted tree every node is planted, with the nodes below it. -/
theorem NodeDefinition.Planted.exists_lower {e : NodeDefinition} :
    ∀ {d : NodeDefinition} {id : Nat}, d.Planted c g id → e ∈ d :: d.lower →
      ∃ k, e.Planted c g k
  | ⟨source, criteria, children⟩, id, .mk hstands hbelow, he => by
    rcases List.mem_cons.mp he with rfl | hlower
    · exact ⟨id, .mk hstands hbelow⟩
    · exact NodeDefinition.Planted.exists_lowerAll hbelow hlower

theorem NodeDefinition.Planted.exists_lowerAll {e : NodeDefinition} :
    ∀ {ds : List NodeDefinition} {ids : List Nat},
      List.Forall₂ (NodeDefinition.Planted c g) ds ids → e ∈ NodeDefinition.lowerAll ds →
        ∃ k, e.Planted c g k
  | [], _, .nil, he => by cases he
  | d :: rest, _, .cons hplanted hrest, he => by
    rcases List.mem_append.mp he with hfirst | hlater
    · exact NodeDefinition.Planted.exists_lower hplanted hfirst
    · exact NodeDefinition.Planted.exists_lowerAll hrest hlater

end

/-- Of nodes with nothing below them only these are left. -/
theorem NodeDefinition.lowerAll_eq_self {ds : List NodeDefinition}
    (h : ∀ d ∈ ds, d.children = []) : lowerAll ds = ds := by
  induction ds with
  | nil => rfl
  | cons d rest ih =>
    obtain ⟨source, criteria, children⟩ := d
    rw [List.forall_mem_cons] at h
    obtain ⟨rfl, hrest⟩ := h
    rw [lowerAll, lower, ih hrest]
    rfl

namespace QueryDefinition

variable {q : QueryDefinition} {config : Config} {e : Environment}

/-- A node outside of criteria that has nodes below it belongs to the tree, if the definition is
accepted, and is planted with them. -/
theorem MirroredBy.planted_of_mem (h : q.MirroredBy c g) {d : NodeDefinition}
    (hd : d ∈ q.outside) (hchildren : d.children ≠ []) :
    (∃ root, q.root = some root ∧ d ∈ root :: root.lower) ∧ ∃ id, d.Planted c g id := by
  rw [outside, tops, NodeDefinition.lowerAll_append, List.mem_append,
    NodeDefinition.lowerAll_eq_self h.flat] at hd
  rcases hd with hchain | htree
  · exact absurd (h.flat d hchain) hchildren
  · cases hroot : q.root with
    | none =>
      rw [hroot] at htree
      cases htree
    | some root =>
      rw [hroot] at htree
      have hlower : d ∈ root :: root.lower := by
        rwa [Option.toList, NodeDefinition.lowerAll, NodeDefinition.lowerAll,
          List.append_nil] at htree
      exact ⟨⟨root, rfl, hlower⟩, (h.planted root hroot).exists_lower hlower⟩

/-- The nodes below other nodes.  Every node of a definition stands inside a criterion or outside
of criteria.  Below a node inside a criterion they are passed over: the definition gives the graph,
or the error, that it gives without them, and there are such nodes exactly if leaving them out
changes the definition.  Every other node of an accepted definition with nodes below it is the root
or below it, and becomes a node of the graph with all of them joined to it.  Below a node of a chain
they are refused, unless another error comes first. -/
theorem build_children (q : QueryDefinition) (c : Catalog) (config : Config) (e : Environment) :
    (∀ d, d ∈ q.throughout ↔ d ∈ q.outside ∨ d ∈ q.inside) ∧
      q.cut.build c config e = q.build c config e ∧
      (∀ d ∈ q.cut.inside, d.children = []) ∧
      (q.cut = q ↔ ∀ d ∈ q.inside, d.children = []) ∧
      (∀ g, q.build c config e = .ok g → ∀ d ∈ q.outside, d.children ≠ [] →
        (∃ root, q.root = some root ∧ d ∈ root :: root.lower) ∧ ∃ id, d.Planted c g id) ∧
      ∀ d, q.nodes.find? (fun d => !d.children.isEmpty) = some d →
        q.build c config e = .error (.invalid (.childrenInChain d.label)) ∨
          ∃ err, q.build c config e = .error err ∧ q.flat.build c config e = .error err := by
  refine ⟨fun _ => mem_throughout, q.build_cut config e, ?_, cut_eq_self_iff, fun g hbuilt d hd hchildren => ?_,
    fun d hfirst => build_of_find? hfirst⟩
  · exact cut_eq_self_iff.mp q.cut_cut
  · exact (mirrored_build hbuilt).planted_of_mem hd hchildren

end QueryDefinition

/-! ### Animals and stalls -/

namespace Farm

/-- The animals among the animals; below the nested ones stands a table that is not registered. -/
def kept : QueryDefinition where
  nodes :=
    [{ table := some "ANIMAL"
       criteria :=
        [⟨.inSubquery "object_id"
            { table := some "ANIMAL", children := [{ table := some "NOWHERE" }] },
          false, .and⟩] }]

/-- A chain with the stalls below the animals. -/
def penned : QueryDefinition where
  nodes := [{ table := some "ANIMAL", children := [{ table := some "STALL" }] }]

end Farm

namespace QueryDefinition

/-- The nodes of a tree with others below them, and a chain that is refused. -/
theorem build_children_farm :
    (∃ g, Farm.census.build Farm.catalog {} .standard = .ok g ∧
      ∀ d ∈ Farm.census.outside, d.children ≠ [] → ∃ id, d.Planted Farm.catalog g id) ∧
    Farm.penned.build Farm.catalog {} .standard =
      .error (.invalid (.childrenInChain "ANIMAL")) := by
  obtain ⟨-, -, -, -, hplanted, -⟩ := build_children Farm.census Farm.catalog {} .standard
  obtain ⟨-, -, -, -, -, hrefused⟩ := build_children Farm.penned Farm.catalog {} .standard
  constructor
  · exact ⟨_, rfl, fun d hd hchildren => (hplanted _ rfl d hd hchildren).2⟩
  · rcases hrefused _ rfl with hfirst | ⟨err, -, hflat⟩
    · exact hfirst
    · cases hflat

/-- A definition is accepted although nodes stand below one that is not in its tree. -/
theorem exists_dropped_children :
    ∃ g, Farm.kept.build Farm.catalog {} .standard = .ok g ∧ Farm.kept.root = none ∧
      ∃ d ∈ Farm.kept.throughout, d.children ≠ [] :=
  ⟨_, rfl, rfl, _, List.mem_cons_of_mem _ List.mem_cons_self, List.cons_ne_nil _ _⟩

end QueryDefinition

end ObjectQuery.Definition
