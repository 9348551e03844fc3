import ObjectQuery.Proofs.Visit

/-!
# When a graph compiles

The exact condition under which a graph compiles.  Only what the compilation looks up can make
it fail: the words of the dialect, the sources of the nodes and of the nodes inside their
criteria, the links of the actual joins, and the link table where a link row is asked for.

## Main Definitions

* `Node.nestedNodes`, `Node.linkFilters` — what stands inside a criterion, at any depth
* `Link.WellFormed` — the links that can be planned
* `Graph.Joinable`, `Graph.Compilable` — the conditions on a join and on a graph

## Main Statements

* `Condition.exists_resolve_iff` — when a condition resolves
* `Graph.exists_planJoin_iff`, `Graph.exists_heldRow` — when the joins of a node are planned
* `Graph.exists_compile_iff` — a graph compiles exactly when it is compilable
-/

namespace ObjectQuery.Query

open ObjectQuery.Sql ObjectQuery.Calendar ObjectQuery.Outcome

/-! ### Inside a criterion -/

mutual

/-- The nodes inside a condition, at any depth. -/
def Condition.nestedNodes : Condition → List Node
  | .inSubquery _ query => query :: query.nestedNodes
  | .group members => Criterion.nestedNodesAll members
  | .compare _ _ _ => []
  | .compareFields _ _ _ => []
  | .isNull _ => []
  | .between _ _ _ => []
  | .valueBetween _ _ _ => []
  | .touches _ _ => []
  | .inList _ _ => []
  | .linked _ _ => []
  | .freeText _ _ => []

/-- The nodes inside a criterion, at any depth. -/
def Criterion.nestedNodes : Criterion → List Node
  | ⟨condition, _, _⟩ => condition.nestedNodes

/-- The nodes inside the members of a group. -/
def Criterion.nestedNodesAll : List Criterion → List Node
  | [] => []
  | member :: rest => member.nestedNodes ++ Criterion.nestedNodesAll rest

/-- The nodes inside the criterion of a node, at any depth. -/
def Node.nestedNodes : Node → List Node
  | ⟨_, predicate⟩ => Criterion.nestedNodesOf predicate

/-- The nodes inside a criterion, if there is one. -/
def Criterion.nestedNodesOf : Option Criterion → List Node
  | none => []
  | some predicate => predicate.nestedNodes

end

mutual

/-- The link filters inside a condition, at any depth. -/
def Condition.linkFilters : Condition → List LinkFilter
  | .linked _ filter => [filter]
  | .inSubquery _ query => query.linkFilters
  | .group members => Criterion.linkFiltersAll members
  | .compare _ _ _ => []
  | .compareFields _ _ _ => []
  | .isNull _ => []
  | .between _ _ _ => []
  | .valueBetween _ _ _ => []
  | .touches _ _ => []
  | .inList _ _ => []
  | .freeText _ _ => []

/-- The link filters inside a criterion, at any depth. -/
def Criterion.linkFilters : Criterion → List LinkFilter
  | ⟨condition, _, _⟩ => condition.linkFilters

/-- The link filters inside the members of a group. -/
def Criterion.linkFiltersAll : List Criterion → List LinkFilter
  | [] => []
  | member :: rest => member.linkFilters ++ Criterion.linkFiltersAll rest

/-- The link filters inside the criterion of a node, at any depth. -/
def Node.linkFilters : Node → List LinkFilter
  | ⟨_, predicate⟩ => Criterion.linkFiltersOf predicate

/-- The link filters inside a criterion, if there is one. -/
def Criterion.linkFiltersOf : Option Criterion → List LinkFilter
  | none => []
  | some predicate => predicate.linkFilters

end

/-! ### Resolvable criteria -/

/-- The nodes have sources, and there is a link table if there is a link filter. -/
def Resolvable (cx : Context) (nodes : List Node) (filters : List LinkFilter) : Prop :=
  (∀ n ∈ nodes, n.source.isSome = true) ∧ (filters ≠ [] → cx.linkTable.isSome = true)

namespace Resolvable

variable {cx : Context}

/-- Nothing that could fail does not fail. -/
theorem nil : Resolvable cx [] [] := by
  constructor
  · exact List.forall_mem_nil _
  · exact fun h => absurd rfl h

theorem append_iff {nodes others : List Node} {filters more : List LinkFilter} :
    Resolvable cx (nodes ++ others) (filters ++ more) ↔
      Resolvable cx nodes filters ∧ Resolvable cx others more := by
  unfold Resolvable
  rw [List.forall_mem_append, ne_eq, List.append_eq_nil_iff, not_and_or, or_imp]
  tauto

theorem cons_iff {n : Node} {nodes : List Node} {filters : List LinkFilter} :
    Resolvable cx (n :: nodes) filters ↔
      n.source.isSome = true ∧ Resolvable cx nodes filters := by
  unfold Resolvable
  rw [List.forall_mem_cons, and_assoc]

end Resolvable

/-- A node has the source that it is asked for. -/
theorem NodeSettings.exists_requireSource_iff {n : NodeSettings} :
    (∃ source, n.requireSource = .ok source) ↔ n.source.isSome = true := by
  simp only [NodeSettings.requireSource_eq_ok_iff]
  exact Option.isSome_iff_exists.symm

section Resolution

variable {cx : Context}

theorem exists_resolve_linkFilter_iff {scope : Scope} {near : LinkEnd} {f : LinkFilter} :
    (∃ e, f.resolve cx scope near = .ok e) ↔ cx.linkTable.isSome = true := by
  unfold LinkFilter.resolve
  cases cx.linkTable with
  | none => simp
  | some table => simp

mutual

/-- A condition resolves exactly when the nodes inside it have sources and its link filters a
link table.  By recursion on the condition: all other leaves always resolve. -/
theorem Condition.exists_resolve_iff :
    ∀ (c : Condition) (scope : Scope),
      (∃ r, c.resolve cx scope = .ok r) ↔ Resolvable cx c.nestedNodes c.linkFilters
  | .compare _ _ _, scope => iff_of_true ⟨_, rfl⟩ Resolvable.nil
  | .compareFields _ _ _, scope => iff_of_true ⟨_, rfl⟩ Resolvable.nil
  | .isNull _, scope => iff_of_true ⟨_, rfl⟩ Resolvable.nil
  | .between _ _ _, scope => iff_of_true ⟨_, rfl⟩ Resolvable.nil
  | .valueBetween _ _ _, scope => iff_of_true ⟨_, rfl⟩ Resolvable.nil
  | .touches _ _, scope => iff_of_true ⟨_, rfl⟩ Resolvable.nil
  | .inList _ _, scope => iff_of_true ⟨_, rfl⟩ Resolvable.nil
  | .freeText _ _, scope => iff_of_true ⟨_, rfl⟩ Resolvable.nil
  | .inSubquery _ query, scope => by
    rw [Condition.resolve, exists_map_eq_ok_iff, Node.exists_resolveNested_iff query,
      Condition.nestedNodes, Condition.linkFilters, Resolvable.cons_iff]
  | .linked near filter, scope => by
    rw [Condition.resolve, exists_map_eq_ok_iff, exists_resolve_linkFilter_iff]
    simp [Resolvable, Condition.nestedNodes, Condition.linkFilters]
  | .group members, scope => by
    rw [Condition.resolve, exists_map_eq_ok_iff, Criterion.exists_resolveParts_iff members,
      Condition.nestedNodes, Condition.linkFilters]

theorem Criterion.exists_resolve_iff :
    ∀ (c : Criterion) (scope : Scope),
      (∃ r, c.resolve cx scope = .ok r) ↔ Resolvable cx c.nestedNodes c.linkFilters
  | ⟨condition, negated, _⟩, scope => by
    rw [Criterion.resolve, exists_map_eq_ok_iff, Condition.exists_resolve_iff condition,
      Criterion.nestedNodes, Criterion.linkFilters]

theorem Criterion.exists_resolveParts_iff :
    ∀ (members : List Criterion) (scope : Scope),
      (∃ parts, Criterion.resolveParts cx scope members = .ok parts) ↔
        Resolvable cx (Criterion.nestedNodesAll members) (Criterion.linkFiltersAll members)
  | [], scope => iff_of_true ⟨_, rfl⟩ Resolvable.nil
  | member :: rest, scope => by
    rw [Criterion.nestedNodesAll, Criterion.linkFiltersAll, Resolvable.append_iff,
      ← Criterion.exists_resolve_iff member scope,
      ← Criterion.exists_resolveParts_iff rest scope, Criterion.resolveParts]
    simp only [exists_bind_eq_ok_iff]
    constructor
    · rintro ⟨resolved, hresolved, parts, hparts, -⟩
      exact ⟨⟨resolved, hresolved⟩, parts, hparts⟩
    · rintro ⟨⟨resolved, hresolved⟩, parts, hparts⟩
      exact ⟨resolved, hresolved, parts, hparts, _, rfl⟩

theorem Node.exists_resolveNested_iff :
    ∀ (n : Node) (defaultAlias : String),
      (∃ select, n.resolveNested cx defaultAlias = .ok select) ↔
        n.source.isSome = true ∧ Resolvable cx n.nestedNodes n.linkFilters
  | ⟨settings, predicate⟩, defaultAlias => by
    rw [Node.nestedNodes, Node.linkFilters, Node.resolveNested,
      ← NodeSettings.exists_requireSource_iff]
    simp only [exists_bind_eq_ok_iff]
    constructor
    · rintro ⟨source, hsource, filter, hfilter, -⟩
      exact ⟨⟨source, hsource⟩,
        (Criterion.exists_resolveOwn_iff settings predicate _).mp ⟨filter, hfilter⟩⟩
    · rintro ⟨⟨source, hsource⟩, h⟩
      obtain ⟨filter, hfilter⟩ := (Criterion.exists_resolveOwn_iff settings predicate _).mpr h
      exact ⟨source, hsource, filter, hfilter, _, rfl⟩

theorem Criterion.exists_resolveOwn_iff (settings : NodeSettings) :
    ∀ (predicate : Option Criterion) (scope : Scope),
      (∃ r, Criterion.resolveOwn cx scope settings predicate = .ok r) ↔
        Resolvable cx (Criterion.nestedNodesOf predicate) (Criterion.linkFiltersOf predicate)
  | none, scope => iff_of_true ⟨_, rfl⟩ Resolvable.nil
  | some predicate, scope => by
    rw [Criterion.resolveOwn, exists_map_eq_ok_iff, Criterion.exists_resolve_iff predicate,
      Criterion.nestedNodesOf, Criterion.linkFiltersOf]

end

end Resolution

/-- The criterion of a node resolves exactly when what stands inside it can be looked up. -/
theorem Node.exists_resolvePredicate_iff {cx : Context} {n : Node} {scope : Scope} :
    (∃ r, n.resolvePredicate cx scope = .ok r) ↔
      Resolvable cx n.nestedNodes n.linkFilters := by
  rw [Node.resolvePredicate, Criterion.exists_resolveOwn_iff]
  cases n with
  | mk settings predicate => rw [Node.nestedNodes, Node.linkFilters]

/-! ### Keywords and links -/

/-- The vocabulary of a dialect is complete exactly when it has a word for every keyword. -/
theorem exists_vocabulary_iff {d : Dialect} :
    (∃ words, vocabulary d = .ok words) ↔ ∀ k : Keyword, (d.lookup? k.key).isSome = true := by
  simp only [vocabulary_eq_ok_iff]
  constructor
  · rintro ⟨words, h⟩ k
    rw [h k]
    rfl
  · intro h
    exact ⟨fun k => (d.lookup? k.key).get (h k), fun k => (Option.some_get (h k)).symm⟩

/-- The links that can be planned: the column lists of a custom join are not empty and equally
long, and a link row has a link type. -/
def Link.WellFormed : Link → Prop
  | .custom left right => left.length = right.length ∧ left ≠ []
  | .linkRow _ linkType => linkType.isSome = true
  | _ => True

theorem exists_checkLists_iff {left right : List String} :
    (∃ u, checkLists left right = .ok u) ↔ left.length = right.length ∧ left ≠ [] := by
  unfold checkLists
  split
  · next h =>
    rw [List.isEmpty_iff] at h
    refine iff_of_false ?_ fun hwell => h.elim (absurd hwell.1) hwell.2
    rintro ⟨u, hu⟩
    cases hu
  · next h =>
    rw [List.isEmpty_iff, not_or, ne_eq, not_not] at h
    exact iff_of_true ⟨_, rfl⟩ h

/-- A link is planned exactly when it is well-formed. -/
theorem Link.exists_plan_iff {link : Link} : (∃ plan, link.plan = .ok plan) ↔ link.WellFormed := by
  cases link with
  | custom left right =>
    rw [plan, exists_bind_eq_ok_iff, WellFormed, ← exists_checkLists_iff]
    constructor
    · rintro ⟨u, hu, -⟩
      exact ⟨u, hu⟩
    · rintro ⟨u, hu⟩
      exact ⟨u, hu, _, rfl⟩
  | linkRow near linkType =>
    cases linkType with
    | none => simp [plan, WellFormed]
    | some linkType => simp [plan, WellFormed]
  | child | parent | freeText | denormalized | denormalizedReverse | denormalizedFull =>
    exact iff_of_true ⟨_, rfl⟩ trivial

/-! ### Joins -/

namespace Graph

/-- Two nodes can be joined: the one that keeps the link between them has one, it is
well-formed, and there is a link table if it goes through the link table. -/
def Joinable (g : Graph) (id partner : Nat) : Prop :=
  ∃ holder link, g.node? (g.direction.linkHolder id partner) = some holder ∧
    holder.link = some link ∧ link.WellFormed ∧
    (link.usesLinkTable = true → g.linkTable.isSome = true)

variable {g : Graph} {mode : Mode} {id : Nat}

/-- A link gives a link row if it needs one, exactly when it is well-formed and finds the link
table. -/
theorem exists_plannedRow_iff {link : Link} {target : NodeSettings} {previous : String} :
    (∃ plan row, link.plan = .ok plan ∧ g.linkRow plan target previous = .ok row) ↔
      link.WellFormed ∧ (link.usesLinkTable = true → g.linkTable.isSome = true) := by
  rw [← Link.exists_plan_iff]
  constructor
  · rintro ⟨plan, row, hplan, hrow⟩
    refine ⟨⟨plan, hplan⟩, fun huses => ?_⟩
    exact exists_linkRow_eq_ok_iff.mp ⟨row, hrow⟩ ((Link.exists_linkTable_iff hplan).mpr huses)
  · rintro ⟨⟨plan, hplan⟩, htable⟩
    obtain ⟨row, hrow⟩ := exists_linkRow_eq_ok_iff.mpr fun huses =>
      htable ((Link.exists_linkTable_iff hplan).mp huses)
    exact ⟨plan, row, hplan, hrow⟩

/-- The join of a node to its partner is planned exactly when the two can be joined. -/
theorem exists_planJoin_iff {partner : Nat} (h : g.partner? id = some partner)
    (n : NodeSettings) :
    (∃ join, g.planJoin mode id n = .ok join) ↔ g.Joinable id partner := by
  obtain ⟨hlt, hsize⟩ := partner?_lt h
  simp only [planJoin_eq_ok_iff h, node_eq_ok_iff]
  constructor
  · rintro ⟨_, previous, holder, link, plan, row, -, hholder, hlink, hplan, hrow, -⟩
    exact ⟨holder, link, hholder, hlink, exists_plannedRow_iff.mp ⟨plan, row, hplan, hrow⟩⟩
  · rintro ⟨holder, link, hholder, hlink, hwell⟩
    obtain ⟨previous, hprevious⟩ := exists_node?_iff.mpr (hlt.trans hsize)
    obtain ⟨plan, row, hplan, hrow⟩ := exists_plannedRow_iff.mpr hwell
    exact ⟨_, previous, holder, link, plan, row, hprevious, hholder, hlink, hplan, hrow, rfl⟩

/-- The link row that a node answers for is found if all joins are possible: it is the row of
a join, in a chain of the join of the successor. -/
theorem exists_heldRow (h : ∀ id partner, g.partner? id = some partner → g.Joinable id partner)
    {n : Node} (hn : g.node? id = some n) (join : Option PlannedJoin) :
    ∃ held, g.heldRow id n.toNodeSettings join = .ok held := by
  unfold heldRow
  cases hd : g.direction with
  | reverse => exact ⟨_, rfl⟩
  | forward =>
    show ∃ held, g.outgoingRow id n.toNodeSettings = .ok held
    by_cases hlt : id + 1 < g.size
    -- The join of the successor is planned from the link of this node.
    · obtain ⟨holder, link, hholder, hlink, hwell⟩ :=
        h (id + 1) id (partner?_succ_of_forward hd hlt)
      rw [hd] at hholder
      have hsame : n = holder := Option.some.inj (hn.symm.trans hholder)
      subst hsame
      obtain ⟨target, htarget⟩ := exists_node?_iff.mpr hlt
      obtain ⟨plan, row, hplan, hrow⟩ := exists_plannedRow_iff.mpr hwell
      refine ⟨row, (outgoingRow_eq_ok_iff hd).mpr ?_⟩
      rw [if_pos hlt, hlink]
      exact ⟨target, plan, node_eq_ok_iff.mpr htarget, hplan, hrow⟩
    · refine ⟨none, (outgoingRow_eq_ok_iff hd).mpr ?_⟩
      rw [if_neg hlt]

end Graph

/-- A node with a source has its select items. -/
theorem NodeSettings.exists_items {n : NodeSettings} (h : n.source.isSome = true) (scope : Scope)
    (geometry : Bool) : ∃ items, n.items scope geometry = .ok items := by
  unfold NodeSettings.items
  cases n.fields with
  | some fields => exact ⟨_, rfl⟩
  | none => exact exists_map_eq_ok_iff.mpr (NodeSettings.exists_requireSource_iff.mpr h)

/-! ### Graphs -/

/-- What a graph has to have to be compiled. -/
structure Graph.Compilable (g : Graph) : Prop where
  /-- There is a node. -/
  nonempty : 0 < g.size
  /-- The dialect has a word for every keyword. -/
  keywords : ∀ k : Keyword, (g.environment.dialect.lookup? k.key).isSome = true
  /-- Every node has a source. -/
  sources : ∀ id n, g.node? id = some n → n.source.isSome = true
  /-- Every node inside a criterion has a source. -/
  nestedSources : ∀ id n, g.node? id = some n → ∀ q ∈ n.nestedNodes, q.source.isSome = true
  /-- Every node can be joined to its partner. -/
  joins : ∀ id partner, g.partner? id = some partner → g.Joinable id partner
  /-- There is a link table if there is a link filter. -/
  filterTable : ∀ id n, g.node? id = some n → n.linkFilters ≠ [] → g.linkTable.isSome = true

namespace Graph

variable {g : Graph} {mode : Mode} {id : Nat}

/-- Every node of a compilable graph contributes its part. -/
theorem exists_part (h : g.Compilable) {n : Node} (hn : g.node? id = some n) :
    ∃ p, g.part mode id = .ok p := by
  have hsource := h.sources id n hn
  obtain ⟨source, hrequired⟩ := NodeSettings.exists_requireSource_iff.mpr hsource
  obtain ⟨join, hjoin⟩ : ∃ join, g.planJoin mode id n.toNodeSettings = .ok join := by
    cases hp : g.partner? id with
    | none => exact ⟨none, planJoin_of_none hp _⟩
    | some partner => exact (exists_planJoin_iff hp _).mpr (h.joins id partner hp)
  obtain ⟨held, hheld⟩ := exists_heldRow h.joins hn join
  obtain ⟨predicate, hpredicate⟩ : ∃ predicate, n.resolvePredicate (g.context mode)
      (n.scope n.aliasName mode.physical) = .ok predicate :=
    Node.exists_resolvePredicate_iff.mpr ⟨h.nestedSources id n hn, h.filterTable id n hn⟩
  obtain ⟨own, hown⟩ :=
    NodeSettings.exists_items hsource (g.outerScope mode id n.toNodeSettings) mode.geometry
  exact ⟨_, part_eq_ok_iff.mpr
    ⟨⟨n, source, join, held, predicate, own⟩, ⟨hn, hrequired, hjoin, hheld, hpredicate, hown⟩,
      rfl⟩⟩

/-- Every node of a compiled graph has been visited with success. -/
theorem exists_visits {parts : List Part} (hparts : g.walk.mapM (g.part mode) = .ok parts)
    {n : Node} (hn : g.node? id = some n) : ∃ v, g.Visits mode id v ∧ v.node = n := by
  obtain ⟨p, hp⟩ := exists_mapM_eq_ok_iff.mp ⟨parts, hparts⟩ id
    (mem_walk.mpr (exists_node?_iff.mp ⟨n, hn⟩))
  obtain ⟨v, hv, -⟩ := part_eq_ok_iff.mp hp
  exact ⟨v, hv, Option.some.inj (hv.node.symm.trans hn)⟩

/-- What a compilation looked up was there. -/
theorem compilable_of_compile {f : Fragment} (h : g.compile mode = .ok f) : g.Compilable := by
  obtain ⟨hpos, words, q, hwords, hq, -⟩ := compile_eq_ok_iff.mp h
  obtain ⟨_, _, parts, -, -, hparts, -⟩ := statement_eq_ok_iff.mp hq
  refine ⟨hpos, exists_vocabulary_iff.mp ⟨words, hwords⟩, ?_, ?_, ?_, ?_⟩
  · intro id n hn
    obtain ⟨v, hv, rfl⟩ := exists_visits hparts hn
    exact NodeSettings.exists_requireSource_iff.mp ⟨v.source, hv.source⟩
  · intro id n hn
    obtain ⟨v, hv, rfl⟩ := exists_visits hparts hn
    exact (Node.exists_resolvePredicate_iff.mp ⟨v.predicate, hv.predicate⟩).1
  · intro id partner hp
    obtain ⟨n, hn⟩ := exists_node?_iff.mpr (partner?_lt hp).2
    obtain ⟨v, hv, rfl⟩ := exists_visits hparts hn
    exact (exists_planJoin_iff hp _).mp ⟨v.join, hv.join⟩
  · intro id n hn
    obtain ⟨v, hv, rfl⟩ := exists_visits hparts hn
    exact (Node.exists_resolvePredicate_iff.mp ⟨v.predicate, hv.predicate⟩).2

/-- A graph in which everything is there compiles. -/
theorem Compilable.exists_compile (h : g.Compilable) (mode : Mode) :
    ∃ f, g.compile mode = .ok f := by
  obtain ⟨words, hwords⟩ := exists_vocabulary_iff.mpr h.keywords
  obtain ⟨root, hroot⟩ := exists_node?_iff.mpr h.nonempty
  obtain ⟨source, hsource⟩ := NodeSettings.exists_requireSource_iff.mpr (h.sources 0 root hroot)
  obtain ⟨parts, hparts⟩ : ∃ parts, g.walk.mapM (g.part mode) = .ok parts := by
    refine exists_mapM_eq_ok_iff.mpr fun id hid => ?_
    obtain ⟨n, hn⟩ := exists_node?_iff.mpr (mem_walk.mp hid)
    exact exists_part h hn
  have hstatement := statement_eq_ok_iff.mpr ⟨root, source, parts, hroot, hsource, hparts, rfl⟩
  exact ⟨_, compile_eq_ok_iff.mpr ⟨h.nonempty, words, _, hwords, hstatement, rfl⟩⟩

/-- A graph compiles exactly when it is compilable.  The mode plays no part, and neither do
the links that no join uses. -/
theorem exists_compile_iff (g : Graph) (mode : Mode) :
    (∃ f, g.compile mode = .ok f) ↔ g.Compilable := by
  constructor
  · rintro ⟨f, hf⟩
    exact compilable_of_compile hf
  · intro h
    exact h.exists_compile mode

end Graph

end ObjectQuery.Query
