import ObjectQuery.Proofs.Compilable

/-!
# Why a graph does not compile

The error of a compilation tells what the graph lacks: a keyword, a source, a link, a link type
or the link table.  No compilation looks up a node that is not there.

## Main Definitions

* `Graph.JoinedBy` — the links of the actual joins
* `Graph.Lacks` — what an error tells about a graph

## Main Statements

* `Condition.lacks_of_resolve` — the error of a condition
* `Graph.lacks_of_part` — the error of one node
* `Graph.lacks_of_compile` — the error of a compilation
-/

namespace ObjectQuery.Query

open ObjectQuery.Sql ObjectQuery.Outcome

/-! ### Criteria -/

/-- What an error tells about the nodes and link filters inside a criterion. -/
def Context.Lacks (cx : Context) (nodes : List Node) (filters : List LinkFilter) :
    CompileError → Prop
  | .missingSource _ => ∃ n ∈ nodes, n.source = none
  | .unresolvedLink (.noTableForFilter _) => cx.linkTable = none ∧ filters ≠ []
  | _ => False

namespace Context.Lacks

variable {cx : Context} {nodes others : List Node} {filters more : List LinkFilter}
  {e : CompileError}

/-- What is lacking is still lacking among more nodes and link filters. -/
theorem mono (h : cx.Lacks nodes filters e) (hnodes : nodes ⊆ others)
    (hfilters : filters ⊆ more) : cx.Lacks others more e := by
  cases e with
  | missingSource aliasName =>
    obtain ⟨n, hn, hsource⟩ := h
    exact ⟨n, hnodes hn, hsource⟩
  | unresolvedLink fault =>
    cases fault with
    | noTableForFilter aliasName =>
      obtain ⟨filter, hfilter⟩ := List.exists_mem_of_ne_nil _ h.2
      exact ⟨h.1, List.ne_nil_of_mem (hfilters hfilter)⟩
    | noLinkType reversed | noTableForJoin target previous | described message context => cases h
  | invalidGraph fault | joinConfiguration fault | missingKeyword key | unknownNode id => cases h

theorem left (h : cx.Lacks nodes filters e) : cx.Lacks (nodes ++ others) (filters ++ more) e :=
  h.mono (List.subset_append_left _ _) (List.subset_append_left _ _)

theorem right (h : cx.Lacks others more e) : cx.Lacks (nodes ++ others) (filters ++ more) e :=
  h.mono (List.subset_append_right _ _) (List.subset_append_right _ _)

end Context.Lacks

/-- Only the source of a node can be missing. -/
theorem NodeSettings.requireSource_eq_error {n : NodeSettings} {e : CompileError}
    (h : n.requireSource = .error e) : e = .missingSource n.aliasName ∧ n.source = none := by
  unfold NodeSettings.requireSource at h
  cases hsource : n.source with
  | none =>
    rw [hsource] at h
    cases h
    exact ⟨rfl, rfl⟩
  | some source =>
    rw [hsource] at h
    cases h

section Resolution

variable {cx : Context} {e : CompileError}

/-- Only the link table of a link filter can be missing. -/
theorem lacks_of_resolve_linkFilter {scope : Scope} {near : LinkEnd} {f : LinkFilter}
    (h : f.resolve cx scope near = .error e) : cx.Lacks [] [f] e := by
  unfold LinkFilter.resolve at h
  cases htable : cx.linkTable with
  | none =>
    rw [htable] at h
    cases h
    exact ⟨htable, List.cons_ne_nil _ _⟩
  | some table =>
    rw [htable] at h
    cases h

mutual

/-- The error of a condition is from a node or a link filter inside it.  By recursion on the
condition: all other leaves always resolve. -/
theorem Condition.lacks_of_resolve : ∀ (c : Condition) (scope : Scope),
    c.resolve cx scope = .error e → cx.Lacks c.nestedNodes c.linkFilters e
  | .compare _ _ _, _, h => nomatch h
  | .compareFields _ _ _, _, h => nomatch h
  | .isNull _, _, h => nomatch h
  | .between _ _ _, _, h => nomatch h
  | .valueBetween _ _ _, _, h => nomatch h
  | .touches _ _, _, h => nomatch h
  | .inList _ _, _, h => nomatch h
  | .freeText _ _, _, h => nomatch h
  | .inSubquery _ query, _, h => Node.lacks_of_resolveNested query _ (map_eq_error_iff.mp h)
  | .linked _ _, _, h => lacks_of_resolve_linkFilter (map_eq_error_iff.mp h)
  | .group members, scope, h =>
    Criterion.lacks_of_resolveParts members scope (map_eq_error_iff.mp h)

theorem Criterion.lacks_of_resolve : ∀ (c : Criterion) (scope : Scope),
    c.resolve cx scope = .error e → cx.Lacks c.nestedNodes c.linkFilters e
  | ⟨condition, _, _⟩, scope, h =>
    Condition.lacks_of_resolve condition scope (map_eq_error_iff.mp h)

theorem Criterion.lacks_of_resolveParts : ∀ (members : List Criterion) (scope : Scope),
    Criterion.resolveParts cx scope members = .error e →
      cx.Lacks (Criterion.nestedNodesAll members) (Criterion.linkFiltersAll members) e
  | [], _, h => nomatch h
  | member :: rest, scope, h => by
    rcases bind_eq_error_iff.mp h with hmember | ⟨_, -, h⟩
    · exact (Criterion.lacks_of_resolve member scope hmember).left
    · rcases bind_eq_error_iff.mp h with hrest | ⟨_, -, h⟩
      · exact (Criterion.lacks_of_resolveParts rest scope hrest).right
      · cases h

theorem Node.lacks_of_resolveNested : ∀ (n : Node) (defaultAlias : String),
    n.resolveNested cx defaultAlias = .error e → cx.Lacks (n :: n.nestedNodes) n.linkFilters e
  | ⟨settings, predicate⟩, defaultAlias, h => by
    rcases bind_eq_error_iff.mp h with hsource | ⟨_, -, h⟩
    · obtain ⟨rfl, hnone⟩ := NodeSettings.requireSource_eq_error hsource
      exact ⟨_, List.mem_cons_self, hnone⟩
    · rcases bind_eq_error_iff.mp h with hown | ⟨_, -, h⟩
      · exact (Criterion.lacks_of_resolveOwn settings predicate _ hown).mono
          (List.subset_cons_self _ _) (List.Subset.refl _)
      · cases h

theorem Criterion.lacks_of_resolveOwn (settings : NodeSettings) :
    ∀ (predicate : Option Criterion) (scope : Scope),
      Criterion.resolveOwn cx scope settings predicate = .error e →
        cx.Lacks (Criterion.nestedNodesOf predicate) (Criterion.linkFiltersOf predicate) e
  | none, _, h => nomatch h
  | some predicate, scope, h => Criterion.lacks_of_resolve predicate scope (map_eq_error_iff.mp h)

end

end Resolution

/-! ### Links -/

/-- What an error tells about a link. -/
def Link.Lacks (link : Link) : CompileError → Prop
  | .joinConfiguration (.unequalLists _ _) => ∃ left right, link = .custom left right ∧
      ¬(left.length = right.length ∧ left ≠ [])
  | .unresolvedLink (.noLinkType _) => ∃ near, link = .linkRow near none
  | _ => False

/-- A link without a plan is not well-formed. -/
theorem Link.lacks_of_plan {link : Link} {e : CompileError} (h : link.plan = .error e) :
    link.Lacks e := by
  cases link with
  | custom left right =>
    rcases bind_eq_error_iff.mp h with hlists | ⟨_, -, h⟩
    · have hno : ¬∃ u, checkLists left right = .ok u := by
        rintro ⟨u, hu⟩
        rw [hu] at hlists
        cases hlists
      rw [exists_checkLists_iff] at hno
      unfold checkLists at hlists
      split at hlists
      · cases hlists
        exact ⟨left, right, rfl, hno⟩
      · cases hlists
    · cases h
  | linkRow near linkType =>
    cases linkType with
    | none =>
      cases h
      exact ⟨near, rfl⟩
    | some linkType => cases h
  | child | parent | freeText | denormalized | denormalizedReverse | denormalizedFull => cases h

namespace Graph

/-- A link that joins two nodes of a graph. -/
def JoinedBy (g : Graph) (link : Link) : Prop :=
  ∃ id partner holder, g.partner? id = some partner ∧
    g.node? (g.direction.linkHolder id partner) = some holder ∧ holder.link = some link

/-- What an error tells about a graph. -/
def Lacks (g : Graph) : CompileError → Prop
  | .missingKeyword key => ∃ k : Keyword, k.key = key ∧ g.environment.dialect.lookup? key = none
  | .missingSource _ => ∃ id n, g.node? id = some n ∧ ∃ q ∈ n :: n.nestedNodes, q.source = none
  | .invalidGraph fault => fault = .empty ∧ g.size = 0
  | .joinConfiguration (.noLink _ _) => ∃ id partner holder, g.partner? id = some partner ∧
      g.node? (g.direction.linkHolder id partner) = some holder ∧ holder.link = none
  | .joinConfiguration (.unequalLists _ _) => ∃ left right, g.JoinedBy (.custom left right) ∧
      ¬(left.length = right.length ∧ left ≠ [])
  | .joinConfiguration (.described _ _ _) => False
  | .unresolvedLink (.noLinkType _) => ∃ near, g.JoinedBy (.linkRow near none)
  | .unresolvedLink (.noTableForJoin _ _) =>
      g.linkTable = none ∧ ∃ near linkType, g.JoinedBy (.linkRow near linkType)
  | .unresolvedLink (.noTableForFilter _) =>
      g.linkTable = none ∧ ∃ id n, g.node? id = some n ∧ n.linkFilters ≠ []
  | .unresolvedLink (.described _ _) => False
  | .unknownNode _ => False

variable {g : Graph} {mode : Mode} {id : Nat} {e : CompileError}

/-- What the link of a join lacks, its graph lacks. -/
theorem JoinedBy.lacks {link : Link} (hjoined : g.JoinedBy link) (h : link.Lacks e) :
    g.Lacks e := by
  cases e with
  | joinConfiguration fault =>
    cases fault with
    | unequalLists l r =>
      obtain ⟨left, right, rfl, hlists⟩ := h
      exact ⟨left, right, hjoined, hlists⟩
    | noLink previous next | described message previous next => cases h
  | unresolvedLink fault =>
    cases fault with
    | noLinkType reversed =>
      obtain ⟨near, rfl⟩ := h
      exact ⟨near, hjoined⟩
    | noTableForJoin target previous | noTableForFilter aliasName | described message context =>
      cases h
  | missingSource aliasName | invalidGraph fault | missingKeyword key | unknownNode id => cases h

/-- What the criterion of a node lacks, its graph lacks. -/
theorem lacks_of_criterion {n : Node} (hn : g.node? id = some n)
    (h : (g.context mode).Lacks n.nestedNodes n.linkFilters e) : g.Lacks e := by
  cases e with
  | missingSource aliasName =>
    obtain ⟨q, hq, hsource⟩ := h
    exact ⟨id, n, hn, q, List.mem_cons_of_mem _ hq, hsource⟩
  | unresolvedLink fault =>
    cases fault with
    | noTableForFilter aliasName => exact ⟨h.1, id, n, hn, h.2⟩
    | noLinkType reversed | noTableForJoin target previous | described message context => cases h
  | invalidGraph fault | joinConfiguration fault | missingKeyword key | unknownNode id => cases h

/-- A node that the graph has is found. -/
theorem node_ne_error {n : Node} (hn : g.node? id = some n) : g.node id ≠ .error e := by
  rw [node_eq_ok_iff.mpr hn]
  exact fun h => nomatch h

/-- The link of a join lacks a link type, equally long lists or the link table. -/
theorem lacks_of_linkRow (link : Link) (target : NodeSettings) (previous : String)
    (hjoined : g.JoinedBy link)
    (h : (link.plan >>= fun plan => g.linkRow plan target previous) = .error e) : g.Lacks e := by
  rcases bind_eq_error_iff.mp h with hplan | ⟨plan, hplan, hrow⟩
  · exact hjoined.lacks (Link.lacks_of_plan hplan)
  · cases plan with
    | columns | freeText => cases hrow
    | linkTable linkType near =>
      have huses := (Link.exists_linkTable_iff hplan).mp ⟨linkType, near, rfl⟩
      obtain ⟨near', linkType', rfl⟩ : ∃ near linkType, link = .linkRow near linkType := by
        cases link with
        | linkRow near linkType => exact ⟨near, linkType, rfl⟩
        | _ => cases huses
      rw [linkRow] at hrow
      cases htable : g.linkTable with
      | none =>
        rw [htable] at hrow
        cases hrow
        exact ⟨htable, near', linkType', hjoined⟩
      | some table =>
        rw [htable] at hrow
        cases hrow

/-- The join of a node lacks a link, or the link lacks something. -/
theorem lacks_of_planJoin {n : NodeSettings} (h : g.planJoin mode id n = .error e) :
    g.Lacks e := by
  cases hp : g.partner? id with
  | none =>
    rw [planJoin_of_none hp] at h
    cases h
  | some partner =>
    obtain ⟨hlt, hsize⟩ := partner?_lt hp
    obtain ⟨previous, hprevious⟩ := exists_node?_iff.mpr (hlt.trans hsize)
    obtain ⟨holder, hholder⟩ : ∃ holder,
        g.node? (g.direction.linkHolder id partner) = some holder := by
      refine exists_node?_iff.mpr ?_
      cases g.direction with
      | forward => exact hlt.trans hsize
      | reverse => exact hsize
    rw [planJoin, hp] at h
    rcases bind_eq_error_iff.mp h with h | ⟨previous', hprevious', h⟩
    · exact absurd h (node_ne_error hprevious)
    rcases bind_eq_error_iff.mp h with h | ⟨holder', hholder', h⟩
    · exact absurd h (node_ne_error hholder)
    rw [node_eq_ok_iff] at hholder'
    cases hlink : holder'.link with
    | none =>
      rw [hlink] at h
      cases h
      exact ⟨id, partner, holder', hp, hholder', hlink⟩
    | some link =>
      rw [hlink] at h
      refine lacks_of_linkRow link n previous'.aliasName
        ⟨id, partner, holder', hp, hholder', hlink⟩ ?_
      rcases bind_eq_error_iff.mp h with hplan | ⟨plan, hplan, h⟩
      · exact bind_eq_error_iff.mpr (Or.inl hplan)
      · rcases bind_eq_error_iff.mp h with hrow | ⟨row, -, h⟩
        · exact bind_eq_error_iff.mpr (Or.inr ⟨plan, hplan, hrow⟩)
        · cases h

/-- The link row that a node holds is that of a join. -/
theorem lacks_of_heldRow {n : Node} (hn : g.node? id = some n) {join : Option PlannedJoin}
    (h : g.heldRow id n.toNodeSettings join = .error e) : g.Lacks e := by
  unfold heldRow at h
  cases hd : g.direction with
  | reverse =>
    rw [hd] at h
    cases h
  | forward =>
    rw [hd] at h
    simp only [outgoingRow] at h
    split at h
    · next next link hnext hlink =>
      have hpartner : g.partner? next = some id := mem_children.mp (List.mem_of_head? hnext)
      obtain ⟨target, htarget⟩ := exists_node?_iff.mpr (partner?_lt hpartner).2
      rcases bind_eq_error_iff.mp h with h | ⟨target', -, h⟩
      · exact absurd h (node_ne_error htarget)
      · refine lacks_of_linkRow link _ _ ⟨next, id, n, hpartner, ?_, hlink⟩ h
        rw [hd]
        exact hn
    · cases h

/-- What keeps a node from contributing its part is lacking in the graph. -/
theorem lacks_of_part (hid : id < g.size) (h : g.part mode id = .error e) : g.Lacks e := by
  obtain ⟨n, hn⟩ := exists_node?_iff.mpr hid
  have hlacks : ∀ {aliasName}, n.source = none → g.Lacks (.missingSource aliasName) :=
    fun hsource => ⟨id, n, hn, n, List.mem_cons_self, hsource⟩
  unfold part at h
  rcases bind_eq_error_iff.mp h with h | ⟨n', hn', h⟩
  · exact absurd h (node_ne_error hn)
  rw [node_eq_ok_iff, hn] at hn'
  cases hn'
  rcases bind_eq_error_iff.mp h with h | ⟨source, hsource, h⟩
  · obtain ⟨rfl, hnone⟩ := NodeSettings.requireSource_eq_error h
    exact hlacks hnone
  rcases bind_eq_error_iff.mp h with h | ⟨join, -, h⟩
  · exact lacks_of_planJoin h
  rcases bind_eq_error_iff.mp h with h | ⟨held, -, h⟩
  · exact lacks_of_heldRow hn h
  rcases bind_eq_error_iff.mp h with h | ⟨predicate, -, h⟩
  · cases n
    exact lacks_of_criterion hn (Criterion.lacks_of_resolveOwn _ _ _ h)
  rcases bind_eq_error_iff.mp h with h | ⟨own, -, h⟩
  · have hsome := NodeSettings.exists_requireSource_iff.mp ⟨source, hsource⟩
    obtain ⟨items, hitems⟩ := NodeSettings.exists_items hsome
      (g.outerScope mode id n.toNodeSettings) mode.geometry
    rw [hitems] at h
    cases h
  · cases h

/-- A graph that does not compile lacks what its error tells. -/
theorem lacks_of_compile (h : g.compile mode = .error e) : g.Lacks e := by
  unfold compile at h
  by_cases hempty : g.size = 0
  · rw [if_pos hempty] at h
    cases h
    exact ⟨rfl, hempty⟩
  have hpos := Nat.pos_of_ne_zero hempty
  obtain ⟨root, hroot⟩ := exists_node?_iff.mpr hpos
  rw [if_neg hempty] at h
  rcases bind_eq_error_iff.mp h with h | ⟨words, -, h⟩
  · unfold vocabulary Dialect.vocabulary at h
    split at h
    · next missing hmissing =>
      cases h
      have hnone := List.find?_some hmissing
      exact ⟨missing, rfl, Option.isNone_iff_eq_none.mp hnone⟩
    · cases h
  rcases bind_eq_error_iff.mp h with h | ⟨q, -, h⟩
  · unfold statement at h
    rcases bind_eq_error_iff.mp h with h | ⟨root', hroot', h⟩
    · exact absurd h (node_ne_error hroot)
    rcases bind_eq_error_iff.mp h with h | ⟨source, -, h⟩
    · obtain ⟨rfl, hnone⟩ := NodeSettings.requireSource_eq_error h
      exact ⟨0, root', node_eq_ok_iff.mp hroot', root', List.mem_cons_self, hnone⟩
    rcases bind_eq_error_iff.mp h with h | ⟨parts, -, h⟩
    · obtain ⟨id, hid, hpart⟩ := exists_of_mapM_eq_error h
      exact lacks_of_part (mem_walk.mp hid) hpart
    · cases h
  · cases h

/-- No compilation looks up a node that is not there. -/
theorem compile_ne_unknownNode (mode : Mode) (id : Nat) :
    g.compile mode ≠ .error (.unknownNode id) := by
  intro h
  exact lacks_of_compile h

end Graph

end ObjectQuery.Query
