import ObjectQuery.Proofs.QualifiedParts

/-!
# Compiled statements are well scoped

Every column of a compiled statement is reached by a name that is declared where the column
stands, and is written by the rule for its node.  A join finds the names of the node it is
joined to, because the walk comes to a node after its partner.

## Main Statements

* `onScoped_inlineJoins`, `onScoped_derivedJoin` — the conditions of one join
* `Graph.Visits.onScoped`, `Graph.onScoped_walk` — one node, and the nodes of a walk
* `Graph.Assembles.statement_scoped` — statements are well scoped
* `Graph.compile_scoped` — so is what a graph compiles to, part by part
-/

namespace ObjectQuery.Query

open ObjectQuery.Sql ObjectQuery.Outcome

/-! ### Names of joins -/

section Joins

variable {cx : Context} {n : NodeSettings} {source : Source} {scope : Scope} {j : PlannedJoin}

/-- The name of the link row of a planned join, if it has one. -/
def PlannedJoin.rowNames (j : PlannedJoin) : List String :=
  j.row.elim [] fun row => [row.aliasName]

/-- A join in line declares the link row and the tables of the node. -/
theorem joinNames_inlineJoins : joinNames (inlineJoins cx n source scope j) =
    j.rowNames ++ (source.tableRef scope.aliasName cx.physical).names := by
  unfold inlineJoins PlannedJoin.rowNames
  cases j.row with
  | none => exact List.append_nil _
  | some row => exact congrArg (row.aliasName :: ·) (List.append_nil _)

/-- A derived table declares the alias of the node. -/
theorem names_derivedJoin (filters : List Expr) :
    (derivedJoin cx n source scope j filters).names = [scope.aliasName] := by
  rw [derivedJoin_eq, Join.names]

/-- Inside, a derived table declares the link row and the tables of the node. -/
theorem names_derivedTable (filters : List Expr) :
    (derivedTable cx n source scope j filters).names =
      j.rowNames ++ (source.tableRef scope.aliasName cx.physical).names := by
  unfold derivedTable PlannedJoin.rowNames
  cases j.row with
  | none => rfl
  | some row => rfl

/-- The tables of a join in line are well scoped. -/
theorem scoped_inlineJoins : ∀ join ∈ inlineJoins cx n source scope j, join.Scoped := by
  have htarget := source.scoped_tableRef scope.aliasName cx.physical
  unfold inlineJoins
  cases j.row with
  | none => exact List.forall_mem_singleton.mpr htarget
  | some row => exact List.forall_mem_cons.mpr ⟨trivial, List.forall_mem_singleton.mpr htarget⟩

/-- A derived table is well scoped if its columns are reached by its names. -/
theorem scoped_derivedTable {filters : List Expr}
    (h : (derivedTable cx n source scope j filters).Refers
      (·.Among (derivedTable cx n source scope j filters).names)) :
    (derivedTable cx n source scope j filters).Scoped := by
  refine ⟨source.scoped_tableRef scope.aliasName cx.physical, fun link hlink => ?_, h⟩
  obtain ⟨row, -, rfl⟩ := Option.map_eq_some_iff.mp hlink
  trivial

/-- The conditions of a join in line use the names in front and its own; the link row is joined
before the tables of the node. -/
theorem onScoped_inlineJoins {earlier : List String}
    (hprevious : ∀ column, (j.previous.column column).Among earlier)
    (hnext : ∀ column,
      (scope.column column).Among (source.tableRef scope.aliasName cx.physical).names) :
    OnScoped earlier (inlineJoins cx n source scope j) := by
  unfold inlineJoins
  cases j.row with
  | none =>
    have hon : Named cx.physical
        (·.Among (earlier ++ (source.tableRef scope.aliasName cx.physical).names)) []
        j.plan.texts (j.plan.conditions j.previous scope) :=
      named_planConditions _ _ _ (fun column => (hprevious column).left _)
        (fun column => (hnext column).right _)
    exact ⟨hon.refers, trivial⟩
  | some row =>
    have hrow : ∀ column, (row.column column).Among (earlier ++ [row.aliasName]) :=
      fun column => List.mem_append_right _ (List.mem_singleton_self _)
    have hlink : Named cx.physical (·.Among (earlier ++ [row.aliasName])) [] []
        (equality (j.previous.column Catalog.objectId) (row.column row.nearColumn) ::
          row.conditions cx.statuses) :=
      .cons (named_equality ((hprevious _).left _) (hrow _))
        (LinkRow.named_conditions (fun column _ => hrow column) cx.statuses)
    have htarget : Named cx.physical (·.Among (earlier ++ [row.aliasName] ++
        (source.tableRef scope.aliasName cx.physical).names)) [] []
        [equality (row.column row.farColumn) (scope.column Catalog.objectId)] :=
      named_equality ((hrow _).left _) ((hnext _).right _)
    exact ⟨hlink.refers, htarget.refers, trivial⟩

/-- The conditions of the join of a derived table use the names in front and its alias. -/
theorem onScoped_derivedJoin {earlier : List String}
    (hprevious : ∀ column, (j.previous.column column).Among earlier) (filters : List Expr) :
    OnScoped earlier [derivedJoin cx n source scope j filters] := by
  have hon : Named cx.physical (·.Among (earlier ++ [scope.aliasName])) []
      j.texts (j.derivedOn scope) :=
    named_derivedOn (fun column => (hprevious column).left _)
      (fun column => List.mem_append_right _ (List.mem_singleton_self _))
  rw [derivedJoin_eq]
  exact ⟨hon.refers, trivial⟩

end Joins

/-! ### One node -/

namespace Graph

variable {g : Graph} {mode : Mode} {id : Nat}

namespace Visits

variable {v : Visit}

/-- A column of the first node is reached by the table that the statement begins with. -/
theorem among_root (hv : g.Visits mode 0 v) {c : ColumnRef} (hc : g.Outside mode 0 c) :
    c.Among (v.source.tableRef v.node.aliasName mode.physical).names := by
  obtain ⟨n, hn, hqualifies⟩ := hc
  cases hv.node.symm.trans hn
  exact hqualifies.among hv.source

/-- The joins of a node declare the names by which the other nodes reach it. -/
theorem among_joins (hv : g.Visits mode id v) {partner : Nat} (hp : g.partner? id = some partner)
    {c : ColumnRef} (hc : g.Outside mode id c) : c.Among (joinNames (v.joins g mode id)) := by
  obtain ⟨n, hn, hqualifies⟩ := hc
  cases hv.node.symm.trans hn
  obtain ⟨j, hj⟩ := Option.isSome_iff_exists.mp
    ((planJoin_isSome_iff hv.join).mpr (by rw [hp]; rfl))
  cases hisolated : g.isolated id v.node.toNodeSettings with
  -- A derived table declares one name, and that is all the others may use.
  | true =>
    rw [hisolated] at hqualifies
    rw [Visit.joins_of_isolated hj hisolated, joinNames, List.flatMap_singleton,
      names_derivedJoin, NodeSettings.aliasName_scope]
    exact List.mem_singleton.mpr (NodeSettings.qualifies_hidden_iff.mp hqualifies)
  | false =>
    rw [Visit.joins_of_inline hj hisolated, joinNames_inlineJoins, NodeSettings.aliasName_scope]
    exact (hqualifies.among hv.source).right _

/-- A join in line declares the name of its link row. -/
theorem row_among_joins (hv : g.Visits mode id v) (hinline : g.InLine id) {c : ColumnRef}
    (hc : g.OfLinkRow id c) : c.Among (joinNames (v.joins g mode id)) := by
  obtain ⟨n, hn, hisolated⟩ := hinline
  cases hv.node.symm.trans hn
  obtain ⟨j, row, hj, hrow, hname⟩ := hv.row_of_ofLinkRow hc
  rw [Visit.joins_of_inline hj hisolated, joinNames_inlineJoins, PlannedJoin.rowNames, hrow]
  exact List.mem_append_left _ (List.mem_singleton.mpr hname)

/-- Every column inside the derived table of a node is reached by the names inside. -/
theorem scoped_joins (hv : g.Visits mode id v) : ∀ j ∈ v.joins g mode id, j.Scoped := by
  cases hj : v.join with
  | none =>
    rw [Visit.joins_of_none hj]
    exact List.forall_mem_nil _
  | some j =>
    cases hisolated : g.isolated id v.node.toNodeSettings with
    | false =>
      rw [Visit.joins_of_inline hj hisolated]
      exact scoped_inlineJoins
    | true =>
      have hinside := hv.refers_inside
      rw [Visit.joins_of_isolated hj hisolated, List.forall_mem_singleton, derivedJoin_eq]
        at hinside ⊢
      refine scoped_derivedTable ((hinside _ rfl).1.mono fun c hc => ?_)
      rw [names_derivedTable, NodeSettings.aliasName_scope]
      rcases hc with hown | hrow
      · exact (hv.among_table hown).right _
      · obtain ⟨j', row, hj', hr, hname⟩ := hv.row_of_ofLinkRow hrow
        cases hj.symm.trans hj'
        rw [PlannedJoin.rowNames, hr]
        exact List.mem_append_left _ (List.mem_singleton.mpr hname)

/-- The conditions of the joins of a node use the names of its partner and their own. -/
theorem onScoped (hv : g.Visits mode id v) {earlier : List String}
    (hpartner : ∀ partner, g.partner? id = some partner →
      ∀ c, g.Outside mode partner c → c.Among earlier) : OnScoped earlier (v.joins g mode id) := by
  cases hj : v.join with
  | none =>
    rw [Visit.joins_of_none hj]
    trivial
  | some j =>
    obtain ⟨partner, hp, hprevious, -⟩ := hv.join_spec hj
    have hfront : ∀ column, (j.previous.column column).Among earlier :=
      fun column => hpartner partner hp _ (hprevious column)
    cases hisolated : g.isolated id v.node.toNodeSettings with
    | true =>
      rw [Visit.joins_of_isolated hj hisolated]
      exact onScoped_derivedJoin hfront _
    | false =>
      rw [Visit.joins_of_inline hj hisolated]
      refine onScoped_inlineJoins hfront fun column => ?_
      rw [NodeSettings.aliasName_scope]
      exact (v.node.qualifies_scope v.node.aliasName mode.physical column).among hv.source

end Visits

/-! ### Statements -/

/-- The conditions of the joins of a walk use the names in front of them: by induction on the
nodes that are left, with the names of all nodes walked so far declared. -/
theorem onScoped_walk {rest : List Nat} {parts : List Part}
    (hparts : List.Forall₂ (fun id p => g.part mode id = .ok p) rest parts)
    {before : List Nat} (hwalk : g.walk = before ++ rest) {earlier : List String}
    (hearlier : ∀ k ∈ before, ∀ c, g.Outside mode k c → c.Among earlier)
    (hrest : ∀ id ∈ rest, ∃ p, g.partner? id = some p) :
    OnScoped earlier (parts.flatMap (·.joins)) := by
  induction hparts generalizing before earlier with
  | nil => trivial
  | @cons id p rest parts hp _ ih =>
    rw [List.forall_mem_cons] at hrest
    obtain ⟨partner, hpartner⟩ := hrest.1
    obtain ⟨v, hv, rfl⟩ := part_eq_ok_iff.mp hp
    rw [List.flatMap_cons, onScoped_append]
    constructor
    -- The partner has been walked before, so its names are in front.
    · refine hv.onScoped fun k hk => hearlier k ?_
      exact partner_before_walk hwalk hk
    · have hnext : g.walk = (before ++ [id]) ++ rest := by
        rw [hwalk, List.append_assoc]
        rfl
      refine ih hnext (fun k hk c hc => ?_) hrest.2
      rcases List.mem_append.mp hk with hold | hnew
      · exact (hearlier k hold c hc).left _
      · rw [List.mem_singleton.mp hnew] at hc
        exact (hv.among_joins hpartner hc).right _

/-- What the statement of a graph is assembled from: the table of the first node, and the parts
of all nodes in the order of the walk. -/
structure Assembles (g : Graph) (mode : Mode) (first : Node) (source : Source)
    (parts : List Part) : Prop where
  node : g.node? 0 = some first
  source : first.requireSource = .ok source
  parts : g.walk.mapM (g.part mode) = .ok parts

namespace Assembles

variable {first : Node} {source : Source} {parts : List Part}

/-- Every part is that of a visit. -/
theorem exists_visit (h : g.Assembles mode first source parts) {p : Part} (hp : p ∈ parts) :
    ∃ id v, g.Visits mode id v ∧ p = v.part g mode id := by
  obtain ⟨id, -, hid⟩ := exists_of_mem_mapM h.parts hp
  obtain ⟨v, hv, rfl⟩ := part_eq_ok_iff.mp hid
  exact ⟨id, v, hv, rfl⟩

/-- Every node has its part. -/
theorem exists_part (h : g.Assembles mode first source parts) {n : Node}
    (hn : g.node? id = some n) : ∃ v, g.Visits mode id v ∧ v.part g mode id ∈ parts := by
  obtain ⟨v, hv, -⟩ := exists_visits h.parts hn
  refine ⟨v, hv, mem_of_mapM h.parts (mem_walk.mpr (exists_node?_iff.mp ⟨n, hn⟩)) ?_⟩
  exact part_eq_ok_iff.mpr ⟨v, hv, rfl⟩

/-- The joins of a part declare names of the statement. -/
theorem among_names (table : TableRef) {p : Part} (hp : p ∈ parts) {c : ColumnRef}
    (hc : c.Among (joinNames p.joins)) : c.Among (assemble table parts).names := by
  obtain ⟨j, hj, hname⟩ := List.mem_flatMap.mp hc
  refine ColumnRef.Among.right (List.mem_flatMap.mpr ⟨j, ?_, hname⟩) _
  exact List.mem_flatMap.mpr ⟨p, hp, hj⟩

/-- A column of a node, as it is written outside, is reached by the names of the statement. -/
theorem among_of_outside (h : g.Assembles mode first source parts) {c : ColumnRef}
    (hc : g.Outside mode id c) :
    c.Among (assemble (source.tableRef first.aliasName mode.physical) parts).names := by
  have hnode : ∃ n, g.node? id = some n := hc.imp fun _ => And.left
  obtain ⟨n, hn⟩ := hnode
  obtain ⟨v, hv, hpart⟩ := h.exists_part hn
  -- The table of the first node stands in front, those of the others are joined.
  rcases Nat.eq_zero_or_pos id with rfl | hpos
  · cases hv.node.symm.trans h.node
    cases hv.source.symm.trans h.source
    exact (hv.among_root hc).left _
  · obtain ⟨partner, hp⟩ := exists_partner? hpos (exists_node?_iff.mp ⟨n, hn⟩)
    exact among_names _ hpart (hv.among_joins hp hc)

/-- So is a column of a link row that leads to a node joined in line. -/
theorem among_of_ofLinkRow (h : g.Assembles mode first source parts) (hinline : g.InLine id)
    {c : ColumnRef} (hc : g.OfLinkRow id c) :
    c.Among (assemble (source.tableRef first.aliasName mode.physical) parts).names := by
  obtain ⟨n, hn⟩ : ∃ n, g.node? id = some n := hinline.imp fun _ => And.left
  obtain ⟨v, hv, hpart⟩ := h.exists_part hn
  exact among_names _ hpart (hv.row_among_joins hinline hc)

/-- The selects inside the conditions of a part are well scoped. -/
theorem scoped_selects (h : g.Assembles mode first source parts) {p : Part} (hp : p ∈ parts) :
    ∀ select ∈ p.selects, select.Scoped := by
  obtain ⟨id, v, hv, rfl⟩ := h.exists_visit hp
  intro select hselect
  obtain ⟨n, -, hselected⟩ := exists_of_forall₂ hv.qualified.selects hselect
  exact hselected.scoped

/-- The conditions of all joins use the names in front of them. -/
theorem onScoped (h : g.Assembles mode first source parts) :
    OnScoped (source.tableRef first.aliasName mode.physical).names
      (parts.flatMap (·.joins)) := by
  obtain ⟨rest, hwalk, hrest⟩ := walk_eq_cons (exists_node?_iff.mp ⟨first, h.node⟩)
  have hparts := h.parts
  rw [hwalk] at hparts
  obtain ⟨p, others, hp, hothers, rfl⟩ :=
    List.forall₂_cons_left_iff.mp (mapM_eq_ok_iff.mp hparts)
  obtain ⟨v, hv, rfl⟩ := part_eq_ok_iff.mp hp
  cases hv.node.symm.trans h.node
  cases hv.source.symm.trans h.source
  rw [List.flatMap_cons, onScoped_append]
  have hfirst : ∀ k ∈ [0], ∀ c, g.Outside mode k c →
      c.Among (v.source.tableRef v.node.aliasName mode.physical).names := by
    intro k hk c hc
    rw [List.mem_singleton.mp hk] at hc
    exact hv.among_root hc
  constructor
  · refine hv.onScoped fun partner hpartner => ?_
    rw [partner?_zero] at hpartner
    cases hpartner
  · exact onScoped_walk hothers hwalk (fun k hk c hc => (hfirst k hk c hc).left _) hrest

/-- The assembled statement is well scoped. -/
theorem statement_scoped (h : g.Assembles mode first source parts) :
    (assemble (source.tableRef first.aliasName mode.physical) parts).Scoped where
  root := source.scoped_tableRef first.aliasName mode.physical
  joins := by
    intro j hj
    obtain ⟨p, hp, hmem⟩ := List.mem_flatMap.mp hj
    obtain ⟨id, v, hv, rfl⟩ := h.exists_visit hp
    exact hv.scoped_joins j hmem
  on := h.onScoped
  items := by
    intro item hitem
    obtain ⟨p, hp, hmem⟩ := List.mem_flatMap.mp hitem
    obtain ⟨id, v, hv, rfl⟩ := h.exists_visit hp
    rcases hv.qualified.items item hmem with hnode | ⟨hinline, hrow⟩
    · exact h.among_of_outside hnode
    · exact h.among_of_ofLinkRow hinline hrow
  filter := by
    refine Chain.refers_ofParts? fun q hq => ?_
    obtain ⟨p, hp, hmem⟩ := List.mem_flatMap.mp hq
    obtain ⟨id, v, hv, rfl⟩ := h.exists_visit hp
    obtain ⟨hinline, hnode | ⟨k, -, hjoined, hrow⟩⟩ := hv.qualified.conditions q hmem
    · exact hnode.mono fun c hc => h.among_of_outside (hinline.outside_of_inside hc)
    · exact hrow.mono fun c => h.among_of_ofLinkRow hjoined
  order := by
    intro term hterm
    obtain ⟨p, hp, hmem⟩ := List.mem_flatMap.mp hterm
    obtain ⟨id, v, hv, rfl⟩ := h.exists_visit hp
    exact h.among_of_outside (hv.qualified.order term hmem)
  selects := by
    intro select hselect
    rcases List.mem_append.mp hselect with hjoins | hfilter
    · obtain ⟨j, hj, hmem⟩ := List.mem_flatMap.mp hjoins
      obtain ⟨p, hp, hjp⟩ := List.mem_flatMap.mp hj
      exact h.scoped_selects hp select
        (List.mem_append_left _ (List.mem_flatMap.mpr ⟨j, hjp, hmem⟩))
    · have hchain : select ∈ (Chain.ofParts? (parts.flatMap (·.conditions))).elim []
          Chain.selects := hfilter
      rw [Chain.selects_ofParts?] at hchain
      obtain ⟨q, hq, hmem⟩ := List.mem_flatMap.mp hchain
      obtain ⟨p, hp, hqp⟩ := List.mem_flatMap.mp hq
      exact h.scoped_selects hp select
        (List.mem_append_right _ (List.mem_flatMap.mpr ⟨q, hqp, hmem⟩))

end Assembles

/-- What a graph compiles to is its statement, and in that every column is reached by a name that
is declared where the column stands.  The statement is assembled from the parts of the nodes; in
each part the columns are written by the rule for the node, its partner and their link rows, and
the only texts and tables that are not written by the rule are those that the caller gave to the
node, to its link and to the nodes inside its criterion. -/
theorem compile_scoped {f : Fragment} (h : g.compile mode = .ok f) :
    ∃ words q first source parts, vocabulary g.environment.dialect = .ok words ∧
      g.statement mode = .ok q ∧ f = q.render ⟨words, g.environment.geometry⟩ ∧
      g.node? 0 = some first ∧ first.requireSource = .ok source ∧
      g.walk.mapM (g.part mode) = .ok parts ∧
      q = assemble (source.tableRef first.aliasName mode.physical) parts ∧ q.Scoped ∧
      List.Forall₂ (fun id p => ∃ n, g.node? id = some n ∧ p.Qualified g mode id n)
        g.walk parts := by
  obtain ⟨-, words, q, hwords, hq, hf⟩ := compile_eq_ok_iff.mp h
  obtain ⟨first, source, parts, hfirst, hsource, hparts, hassembled⟩ :=
    statement_eq_ok_iff.mp hq
  have hassembles : g.Assembles mode first source parts := ⟨hfirst, hsource, hparts⟩
  refine ⟨words, q, first, source, parts, hwords, hq, hf, hfirst, hsource, hparts, hassembled,
    ?_, ?_⟩
  · rw [hassembled]
    exact hassembles.statement_scoped
  · refine (mapM_eq_ok_iff.mp hparts).imp fun id p hp => ?_
    obtain ⟨v, hv, rfl⟩ := part_eq_ok_iff.mp hp
    exact ⟨v.node, hv.node, hv.qualified⟩

end Graph

/-! ### A tree with texts -/

namespace Farm

/-- The mode in which the tables of a node stand side by side. -/
def sideBySide : Mode := { physical := true }

/-- Some animals by their breed, or among those with a high score. -/
def someAnimal : Node where
  source := some (.table animals)
  predicate := some (.group [⟨.freeText "t0.breed LIKE ?" [.text "a%"], false, .or⟩,
    ⟨.inSubquery "object_id" { source := some (.subQuery highScores) }, false, .and⟩])
  sort := [⟨"dt_insert", true⟩]

/-- The stalls of another kind of link stand below the first node as well. -/
theorem admits_others : Direction.reverse.Admits 3 (some 0) := Nat.zero_le 2

/-- Animals with their large stalls, with scores that are joined by a text, and with the stalls of
another kind of link. -/
def texted : Graph :=
  let herd := (Graph.reverse .standard someAnimal).push stall (some 0) admits_stall
  let scored := herd.push
    { score with link := some (.freeText "t2.object_id = rt0.object_id") } (some 0) admits_score
  { scored.push { source := some (.table stalls), link := some (.linkRow .second (some 6)) }
      (some 0) admits_others with
    linkTable := graph.linkTable }

end Farm

/-- The tree with texts declares these names, outside and inside of its derived table; its
conditions on joins use them, and the texts in it are those that it was given. -/
theorem Graph.compile_scoped_farm :
    ∃ f q parts, Farm.texted.compile Farm.sideBySide = .ok f ∧
      Farm.texted.statement Farm.sideBySide = .ok q ∧
      Farm.texted.walk.mapM (Farm.texted.part Farm.sideBySide) = .ok parts ∧ q.Scoped ∧
      q.names = ["rt0", "t0", "t1", "t2", "lnkt3", "rt3", "t3"] ∧
      (q.joins.filterMap Join.derived?).map DerivedTable.names = [["lnkt1", "rt1", "t1"]] ∧
      q.joins.map Join.on =
        [[equality ⟨"rt0", "object_id"⟩ ⟨"t1", "lnkt1_link_obj_id_1"⟩],
          [.raw "t2.object_id = rt0.object_id" []],
          [equality ⟨"rt0", "object_id"⟩ ⟨"lnkt3", "link_obj_id_2"⟩,
            .hasId ⟨"lnkt3", "link_type_id"⟩ 6],
          [equality ⟨"lnkt3", "link_obj_id_1"⟩ ⟨"rt3", "object_id"⟩]] ∧
      q.order = [⟨⟨"rt0", "dt_insert"⟩, true⟩] ∧
      parts.map Part.texts = [[⟨"t0.breed LIKE ?", [.text "a%"]⟩], [], [], []] ∧
      List.Forall₂ (fun id p => ∃ n, Farm.texted.node? id = some n ∧
        p.Qualified Farm.texted Farm.sideBySide id n) [0, 1, 2, 3] parts := by
  obtain ⟨f, hf⟩ : ∃ f, Farm.texted.compile Farm.sideBySide = .ok f := ⟨_, rfl⟩
  obtain ⟨_, q, _, _, parts, -, hq, -, -, -, hparts, -, hscoped, hqualified⟩ :=
    Graph.compile_scoped hf
  have hwalk : Farm.texted.walk = [0, 1, 2, 3] := by decide
  rw [hwalk] at hqualified
  refine ⟨f, q, parts, hf, hq, hparts, hscoped, ?_, ?_, ?_, ?_, ?_, hqualified⟩
  · cases hq
    rfl
  · cases hq
    rfl
  · cases hq
    rfl
  · cases hq
    rfl
  · cases hparts
    rfl

end ObjectQuery.Query
