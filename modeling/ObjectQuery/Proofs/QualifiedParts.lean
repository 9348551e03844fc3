import ObjectQuery.Proofs.Qualifiers

/-!
# The columns that nodes contribute

Every column of a statement is a column of a node or of the link row that leads to a node, and
it is written by the rule for the place where it stands: beside the tables of the node, or
outside of them.  What is no column but a text comes from the criterion of the node, or it is
the text of the link by which the node is joined.

## Main Definitions

* `Graph.Outside`, `Graph.Inside` — a column of a node, as it is written at both places
* `Graph.OfLinkRow` — a column of the link row that leads to a node
* `Graph.joinTexts` — the text of the link by which a node is joined
* `Part.Qualified` — what one node contributes follows the rule
* `derivedTable` — the derived table of a join

## Main Statements

* `Graph.Visits.join_spec`, `Graph.Visits.held_spec` — the link rows of a node
* `Graph.Visits.qualified` — everything that a node contributes follows the rule
-/

namespace ObjectQuery.Query

open ObjectQuery.Sql ObjectQuery.Outcome

/-! ### What columns are columns of -/

namespace Graph

variable (g : Graph) (mode : Mode)

/-- A column of a node, as it is written outside of the tables of the node. -/
def Outside (id : Nat) (c : ColumnRef) : Prop :=
  ∃ n, g.node? id = some n ∧
    n.Qualifies n.aliasName mode.physical (g.isolated id n.toNodeSettings) c

/-- A column of a node, as it is written beside the tables of the node. -/
def Inside (id : Nat) (c : ColumnRef) : Prop :=
  ∃ n, g.node? id = some n ∧ n.Qualifies n.aliasName mode.physical false c

/-- A node that is not joined as a derived table. -/
def InLine (id : Nat) : Prop :=
  ∃ n, g.node? id = some n ∧ g.isolated id n.toNodeSettings = false

/-- The join of a node to its partner goes through the link table. -/
def JoinedByRow (id : Nat) : Prop :=
  ∃ partner holder link, g.partner? id = some partner ∧
    g.node? (g.direction.linkHolder id partner) = some holder ∧ holder.link = some link ∧
    link.usesLinkTable = true

/-- A column of the link row that leads to a node. -/
def OfLinkRow (id : Nat) (c : ColumnRef) : Prop :=
  ∃ n table, g.node? id = some n ∧ g.JoinedByRow id ∧ g.linkTable = some table ∧
    c.qualifier = LinkTable.aliasTo n.aliasName ∧ c.column ∈ table.columns.all

end Graph

/-! ### Texts of links -/

/-- The text of a link that is taken as it is. -/
def Link.texts : Link → List Fragment
  | .freeText sql => [⟨sql, []⟩]
  | _ => []

/-- The text of the link by which a node is joined to its partner. -/
def Graph.joinTexts (g : Graph) (id : Nat) : List Fragment :=
  match g.partner? id with
  | none => []
  | some partner =>
    ((g.node? (g.direction.linkHolder id partner)).bind (·.link)).elim [] Link.texts

/-- The text of a plan that is taken as it is. -/
def JoinPlan.texts : JoinPlan → List Fragment
  | .freeText sql => [⟨sql, []⟩]
  | .columns _ _ => []
  | .linkTable _ _ => []

/-- A plan keeps the text of its link. -/
theorem Link.texts_eq {link : Link} {plan : JoinPlan} (h : link.plan = .ok plan) :
    plan.texts = link.texts := by
  cases link with
  | custom left right =>
    obtain ⟨-, -, hplan⟩ := bind_eq_ok_iff.mp h
    cases hplan
    rfl
  | linkRow near linkType =>
    cases linkType with
    | none => cases h
    | some linkType =>
      cases h
      rfl
  | _ =>
    cases h
    rfl

/-! ### What a node contributes -/

/-- The selects inside the conditions of a part. -/
def Part.selects (p : Part) : List Subselect :=
  p.joins.flatMap Join.selects ++ p.conditions.flatMap fun q => q.1.selects

/-- The texts in the conditions of a part: those of its derived table, then those that it adds to
the filter of the statement. -/
def Part.texts (p : Part) : List Fragment :=
  p.joins.flatMap Join.texts ++ p.conditions.flatMap fun q => q.1.texts

/-- What a node contributes to a statement is about the node, the node it is joined to and
their link rows, and the columns are written by the rule: outside of a derived table, a node in
a derived table shows neither its tables nor its link row, and it adds no condition to the
filter of the statement.  A condition is about the node alone or about a link row alone, and
the table reference of the node reaches the columns of the node.  What is taken as it is, the
text of a sub-query or a condition, is what the caller gave to the node or to its link. -/
structure Part.Qualified (p : Part) (g : Graph) (mode : Mode) (id : Nat) (n : Node) : Prop where
  table : ∃ source, n.requireSource = .ok source ∧
    (∀ c, g.Inside mode id c → c.Among (source.tableRef n.aliasName mode.physical).names) ∧
    ∀ j ∈ p.joins, ∀ t ∈ j.tables, t = source.tableRef n.aliasName mode.physical ∨
      g.JoinedByRow id ∧ ∃ table, g.linkTable = some table ∧
        t = .named table.qualifiedName (LinkTable.aliasTo n.aliasName)
  items : ∀ item ∈ p.items,
    g.Outside mode id item.source ∨ g.InLine id ∧ g.OfLinkRow id item.source
  order : ∀ term ∈ p.order, g.Outside mode id term.column
  conditions : ∀ q ∈ p.conditions, g.InLine id ∧ (q.1.Refers (g.Inside mode id) ∨
    ∃ k, (k = id ∨ g.partner? k = some id) ∧ g.InLine k ∧ q.1.Refers (g.OfLinkRow k))
  on : ∀ j ∈ p.joins, ∀ e ∈ j.on, e.Refers fun c =>
    g.Outside mode id c ∨ (∃ k, g.partner? id = some k ∧ g.Outside mode k c) ∨
      g.InLine id ∧ g.OfLinkRow id c
  inside : ∀ j ∈ p.joins, ∀ t, j.derived? = some t → t.Refers fun c =>
    g.Inside mode id c ∨ g.OfLinkRow id c
  filters : ∀ j ∈ p.joins, ∀ t, j.derived? = some t → ∀ e ∈ t.filters,
    e.Refers (g.Inside mode id) ∨ e.Refers (g.OfLinkRow id)
  selects : List.Forall₂ (Node.SelectedBy mode.physical) n.nestedNodes p.selects
  texts : p.texts = n.freeTexts
  onTexts : (p.joins.flatMap Join.on).flatMap Expr.texts = g.joinTexts id

/-! ### Joins -/

section Joins

variable {physical : Bool} {ok : ColumnRef → Prop}

/-- The conditions of a join are about the two nodes. -/
theorem named_planConditions (plan : JoinPlan) (previous next : Scope)
    (hprevious : ∀ column, ok (previous.column column))
    (hnext : ∀ column, ok (next.column column)) :
    Named physical ok [] plan.texts (plan.conditions previous next) := by
  cases plan with
  | freeText sql => exact .leaf trivial rfl rfl
  | linkTable linkType near => exact .nil
  | columns pairs nextFirst =>
    rw [JoinPlan.conditions, JoinPlan.texts]
    induction pairs with
    | nil => exact .nil
    | cons pair pairs ih =>
      obtain ⟨p, n⟩ := pair
      rw [List.map_cons]
      refine .cons ?_ ih
      cases nextFirst with
      | false => exact named_equality (hprevious p) (hnext n)
      | true => exact named_equality (hnext n) (hprevious p)

namespace LinkRow

variable {row : LinkRow}

/-- The conditions on the kind of a link row are about the link row. -/
theorem named_conditions (hrow : ∀ column ∈ row.table.columns.all, ok (row.column column))
    (statuses : List String) : Named physical ok [] [] (row.conditions statuses) :=
  .cons (.leaf (hrow _ (by simp [LinkColumns.all])) rfl rfl) (named_statusFilter hrow statuses)

/-- The validity of a link row is about the link row. -/
theorem named_validity (hrow : ∀ column ∈ row.table.columns.all, ok (row.column column))
    (holder : NodeSettings) (maxDate : Calendar.DateTime) :
    Named physical ok [] [] (row.validity holder maxDate).toList := by
  unfold LinkRow.validity
  split
  · exact .nil
  · exact Named.enclosed (r := some _) (named_validityExpr
      (hrow row.table.columns.validFrom (by simp [LinkColumns.all]))
      (hrow row.table.columns.validTo (by simp [LinkColumns.all])) holder.linkReferenceDate
      row.optional maxDate)

end LinkRow

variable {cx : Context} {n : NodeSettings} {source : Source} {scope : Scope} {j : PlannedJoin}

/-- A join in line has no derived table. -/
theorem derived?_inlineJoins :
    ∀ join ∈ inlineJoins cx n source scope j, join.derived? = none := by
  unfold inlineJoins
  cases j.row with
  | none => exact List.forall_mem_singleton.mpr rfl
  | some row => exact List.forall_mem_cons.mpr ⟨rfl, List.forall_mem_singleton.mpr rfl⟩

/-- The text of a planned join that is taken as it is; none if it goes through a link row. -/
def PlannedJoin.texts (j : PlannedJoin) : List Fragment :=
  if j.row.isSome then [] else j.plan.texts

/-- A join in line is about the two nodes and the link row between them. -/
theorem named_inlineJoins (hprevious : ∀ column, ok (j.previous.column column))
    (hnext : ∀ column, ok (scope.column column))
    (hrow : ∀ row, j.row = some row → ∀ column ∈ row.table.columns.all, ok (row.column column)) :
    Named physical ok [] j.texts ((inlineJoins cx n source scope j).flatMap Join.on) := by
  unfold inlineJoins PlannedJoin.texts
  cases hj : j.row with
  | none =>
    rw [List.flatMap_singleton]
    exact named_planConditions j.plan j.previous scope hprevious hnext
  | some row =>
    have hcolumns := hrow row hj
    have hnear := hcolumns _ (row.table.columns.endColumn_mem row.near)
    have hfar := hcolumns _ (row.table.columns.endColumn_mem row.near.opposite)
    rw [List.flatMap_cons, List.flatMap_singleton]
    exact .prepend (.cons (named_equality (hprevious _) hnear)
      (LinkRow.named_conditions hcolumns cx.statuses)) (named_equality hfar (hnext _))

/-- The derived table of a planned join. -/
def derivedTable (cx : Context) (n : NodeSettings) (source : Source) (scope : Scope)
    (j : PlannedJoin) (filters : List Expr) : DerivedTable where
  columns := n.derivedColumns scope cx.physical
  link := j.row.map fun row => (row.tableRef,
    equality (row.column row.farColumn) (scope.column Catalog.objectId) ::
      row.conditions cx.statuses)
  linkItems := j.row.elim [] LinkRow.items
  source := source.tableRef scope.aliasName cx.physical
  filters := filters

/-- The conditions of a planned join outside of its derived table. -/
def PlannedJoin.derivedOn (j : PlannedJoin) (scope : Scope) : List Expr :=
  match j.row with
  | none => j.plan.conditions j.previous (.uniform scope.aliasName)
  | some row =>
    [equality (j.previous.column Catalog.objectId)
      ⟨scope.aliasName, row.exposed row.nearColumn⟩]

theorem derivedJoin_eq (filters : List Expr) : derivedJoin cx n source scope j filters =
    .derived (derivedTable cx n source scope j filters) scope.aliasName (j.derivedOn scope) := by
  unfold derivedJoin derivedTable PlannedJoin.derivedOn
  cases j.row with
  | none => rfl
  | some row => rfl

/-- Outside of its table the join of a derived table is about the node in front and the columns
that the derived table shows. -/
theorem named_derivedOn (hprevious : ∀ column, ok (j.previous.column column))
    (hnext : ∀ column, ok ⟨scope.aliasName, column⟩) :
    Named physical ok [] j.texts (j.derivedOn scope) := by
  unfold PlannedJoin.derivedOn PlannedJoin.texts
  cases j.row with
  | none => exact named_planConditions j.plan j.previous (.uniform scope.aliasName) hprevious hnext
  | some row => exact named_equality (hprevious _) (hnext _)

/-- Inside a derived table the link row is joined to the node. -/
theorem named_linkJoin (physical : Bool) {row : LinkRow}
    (hrow : ∀ column ∈ row.table.columns.all, ok (row.column column))
    (hnext : ∀ column, ok (scope.column column)) (statuses : List String) :
    Named physical ok [] []
      (equality (row.column row.farColumn) (scope.column Catalog.objectId) ::
        row.conditions statuses) :=
  .cons (named_equality (hrow _ (row.table.columns.endColumn_mem row.near.opposite)) (hnext _))
    (LinkRow.named_conditions hrow statuses)

/-- A derived table is about the node and its link row. -/
theorem refers_derivedTable {filters : List Expr}
    (hcolumns : (n.derivedColumns scope cx.physical).Refers ok)
    (hnext : ∀ column, ok (scope.column column))
    (hrow : ∀ row, j.row = some row → ∀ column ∈ row.table.columns.all, ok (row.column column))
    (hfilters : ∀ e ∈ filters, e.Refers ok) :
    (derivedTable cx n source scope j filters).Refers ok := by
  refine ⟨hcolumns, ?_, ?_, hfilters⟩
  · intro link hlink
    obtain ⟨row, hj, rfl⟩ := Option.map_eq_some_iff.mp hlink
    exact (named_linkJoin cx.physical (hrow row hj) hnext cx.statuses).refers
  · intro item hitem
    have hitems : item ∈ j.row.elim [] LinkRow.items := hitem
    cases hj : j.row with
    | none =>
      rw [hj] at hitems
      cases hitems
    | some row =>
      rw [hj] at hitems
      obtain ⟨column, hcolumn, rfl⟩ := List.mem_map.mp hitems
      exact hrow row hj column hcolumn

/-- The tables of a join: those of the node, behind the link row if there is one. -/
def joinTables (cx : Context) (source : Source) (scope : Scope) (j : PlannedJoin) :
    List TableRef :=
  j.row.toList.map LinkRow.tableRef ++ [source.tableRef scope.aliasName cx.physical]

theorem tables_inlineJoins :
    (inlineJoins cx n source scope j).flatMap Join.tables = joinTables cx source scope j := by
  unfold inlineJoins joinTables
  cases j.row with
  | none => rfl
  | some row => rfl

theorem tables_derivedJoin (filters : List Expr) :
    (derivedJoin cx n source scope j filters).tables = joinTables cx source scope j := by
  rw [derivedJoin_eq, Join.tables]
  unfold derivedTable joinTables
  cases j.row with
  | none => rfl
  | some row => rfl

/-- Inside a derived table neither selects nor texts stand in front of the filters. -/
theorem named_linkOf_derivedTable (cx : Context) (n : NodeSettings) (source : Source)
    (scope : Scope) (j : PlannedJoin) (filters : List Expr) :
    Named cx.physical (fun _ => True) [] []
      ((derivedTable cx n source scope j filters).link.elim [] fun link => link.2) := by
  unfold derivedTable
  cases j.row with
  | none => exact .nil
  | some row =>
    exact named_linkJoin cx.physical (fun _ _ => trivial) (fun _ => trivial) cx.statuses

/-- The selects inside a derived table are those of its filters. -/
theorem selects_derivedJoin (filters : List Expr) :
    (derivedJoin cx n source scope j filters).selects = filters.flatMap Expr.selects := by
  have hon : Named cx.physical (fun _ => True) [] j.texts (j.derivedOn scope) :=
    named_derivedOn (fun _ => trivial) (fun _ => trivial)
  have hlink := (named_linkOf_derivedTable cx n source scope j filters).selects_eq_nil
  rw [derivedJoin_eq, Join.selects, hon.selects_eq_nil, List.append_nil]
  unfold derivedTable at hlink ⊢
  cases hj : j.row with
  | none => rfl
  | some row =>
    rw [hj] at hlink
    exact congrArg (· ++ filters.flatMap Expr.selects) hlink

/-- So are the texts. -/
theorem texts_derivedJoin (filters : List Expr) :
    (derivedJoin cx n source scope j filters).texts = filters.flatMap Expr.texts := by
  have hlink := (named_linkOf_derivedTable cx n source scope j filters).texts
  rw [derivedJoin_eq, Join.texts]
  unfold derivedTable at hlink ⊢
  cases hj : j.row with
  | none => rfl
  | some row =>
    rw [hj] at hlink
    exact congrArg (· ++ filters.flatMap Expr.texts) hlink

end Joins

/-! ### One node -/

/-- A link row that leads to a node. -/
def LinkRow.LeadsTo (row : LinkRow) (g : Graph) (id : Nat) : Prop :=
  ∃ n, g.node? id = some n ∧ g.JoinedByRow id ∧ g.linkTable = some row.table ∧
    row.aliasName = LinkTable.aliasTo n.aliasName

theorem LinkRow.LeadsTo.column {row : LinkRow} {g : Graph} {id : Nat} (h : row.LeadsTo g id)
    {column : String} (hcolumn : column ∈ row.table.columns.all) :
    g.OfLinkRow id (row.column column) := by
  obtain ⟨n, hn, hjoined, htable, halias⟩ := h
  exact ⟨n, row.table, hn, hjoined, htable, halias, hcolumn⟩

namespace Graph

variable {g : Graph} {mode : Mode} {id : Nat}

/-- The scope that a node has for the other nodes follows the rule. -/
theorem outside_outerScope {n : Node} (hn : g.node? id = some n) (column : String) :
    g.Outside mode id ((g.outerScope mode id n.toNodeSettings).column column) := by
  refine ⟨n, hn, ?_⟩
  unfold outerScope
  cases g.isolated id n.toNodeSettings with
  | true => exact NodeSettings.qualifies_hidden_iff.mpr rfl
  | false => exact n.qualifies_scope n.aliasName mode.physical column

theorem inside_scope {n : Node} (hn : g.node? id = some n) (column : String) :
    g.Inside mode id ((n.scope n.aliasName mode.physical).column column) :=
  ⟨n, hn, n.qualifies_scope n.aliasName mode.physical column⟩

/-- Outside of a derived table a node is seen as it is inside, unless it is isolated. -/
theorem InLine.outside_of_inside (h : g.InLine id) {c : ColumnRef} (hc : g.Inside mode id c) :
    g.Outside mode id c := by
  obtain ⟨n, hn, hinline⟩ := h
  obtain ⟨m, hm, hqualifies⟩ := hc
  cases hn.symm.trans hm
  exact ⟨n, hn, by rwa [hinline]⟩

/-- All nodes of a chain are joined in line. -/
theorem inLine_of_forward (hd : g.direction = .forward) (hid : id < g.size) : g.InLine id := by
  obtain ⟨n, hn⟩ := exists_node?_iff.mpr hid
  refine ⟨n, hn, Bool.eq_false_iff.mpr fun hisolated => ?_⟩
  rw [(isolated_iff.mp hisolated).1] at hd
  cases hd

/-- The link row of a planned link leads to its target. -/
theorem leadsTo_of_linkRow {partner : Nat} {holder target : Node} {link : Link}
    {plan : JoinPlan} {previous : String} {row : LinkRow} (hp : g.partner? id = some partner)
    (hholder : g.node? (g.direction.linkHolder id partner) = some holder)
    (hlink : holder.link = some link) (hplan : link.plan = .ok plan)
    (htarget : g.node? id = some target)
    (hrow : g.linkRow plan target.toNodeSettings previous = .ok (some row)) :
    row.LeadsTo g id := by
  have hthrough := (linkRow_isSome_iff hrow).mp rfl
  obtain ⟨linkType, near, rfl⟩ := hthrough
  obtain ⟨table, htable, hsome⟩ := linkRow_linkTable_eq_ok_iff.mp hrow
  cases hsome
  have huses := (Link.exists_linkTable_iff hplan).mp ⟨linkType, near, rfl⟩
  exact ⟨target, htarget, ⟨partner, holder, link, hp, hholder, hlink, huses⟩, htable, rfl⟩

namespace Visits

variable {v : Visit}

/-- The join of a node starts from its partner, as that is seen from outside, and its link row
leads to the node. -/
theorem join_spec (hv : g.Visits mode id v) {j : PlannedJoin} (hj : v.join = some j) :
    ∃ partner, g.partner? id = some partner ∧
      (∀ column, g.Outside mode partner (j.previous.column column)) ∧
      ∀ row, j.row = some row → row.LeadsTo g id := by
  have hjoin := hv.join
  rw [hj] at hjoin
  obtain ⟨partner, hp⟩ := Option.isSome_iff_exists.mp ((planJoin_isSome_iff hjoin).mp rfl)
  obtain ⟨previous, holder, link, plan, row, hprevious, hholder, hlink, hplan, hrow, hsome⟩ :=
    (planJoin_eq_ok_iff hp).mp hjoin
  cases hsome
  refine ⟨partner, hp, outside_outerScope (node_eq_ok_iff.mp hprevious), ?_⟩
  rintro found rfl
  exact leadsTo_of_linkRow hp (node_eq_ok_iff.mp hholder) hlink hplan hv.node hrow

/-- The join of a node has the text of the link by which the node is joined. -/
theorem joinTexts_eq (hv : g.Visits mode id v) {j : PlannedJoin} (hj : v.join = some j) :
    j.texts = g.joinTexts id := by
  have hjoin := hv.join
  rw [hj] at hjoin
  obtain ⟨partner, hp⟩ := Option.isSome_iff_exists.mp ((planJoin_isSome_iff hjoin).mp rfl)
  obtain ⟨previous, holder, link, plan, row, -, hholder, hlink, hplan, hrow, hsome⟩ :=
    (planJoin_eq_ok_iff hp).mp hjoin
  cases hsome
  have hgiven : g.joinTexts id = plan.texts := by
    rw [joinTexts, hp]
    dsimp only
    rw [node_eq_ok_iff.mp hholder, Option.bind_some, hlink, Option.elim_some, Link.texts_eq hplan]
  rw [hgiven, PlannedJoin.texts]
  split
  · next hsome =>
    -- A plan with a link row goes through the link table and has no text.
    obtain ⟨_, _, rfl⟩ := (linkRow_isSome_iff hrow).mp hsome
    rfl
  · rfl

/-- A node without a join is joined by no text. -/
theorem joinTexts_eq_nil (hv : g.Visits mode id v) (hj : v.join = none) :
    g.joinTexts id = [] := by
  have hnone : g.partner? id = none := by
    rw [← Option.not_isSome_iff_eq_none, ← planJoin_isSome_iff hv.join, hj]
    simp
  rw [joinTexts, hnone]

/-- If the join of a node goes through the link table, it has a link row with the columns of
the link table. -/
theorem row_of_ofLinkRow (hv : g.Visits mode id v) {c : ColumnRef} (hc : g.OfLinkRow id c) :
    ∃ j row, v.join = some j ∧ j.row = some row ∧ c.qualifier = row.aliasName := by
  obtain ⟨n, table, hn, ⟨partner, holder, link, hp, hholder, hlink, huses⟩, htable, hname, -⟩ := hc
  cases hv.node.symm.trans hn
  obtain ⟨previous, holder', link', plan, row, -, hholder', hlink', hplan, hrow, hj⟩ :=
    (planJoin_eq_ok_iff hp).mp hv.join
  cases (node_eq_ok_iff.mp hholder').symm.trans hholder
  cases hlink'.symm.trans hlink
  obtain ⟨linkType, near, rfl⟩ := (Link.exists_linkTable_iff hplan).mpr huses
  obtain ⟨_, -, rfl⟩ := linkRow_linkTable_eq_ok_iff.mp hrow
  exact ⟨_, _, hj, rfl, hname⟩

/-- The link row that a node answers for leads to the node itself in a tree, and to its
successor in a chain. -/
theorem held_spec (hv : g.Visits mode id v) {row : LinkRow} (hheld : v.held = some row) :
    (g.direction = .reverse ∧ row.LeadsTo g id) ∨
      g.direction = .forward ∧ g.partner? (id + 1) = some id ∧ row.LeadsTo g (id + 1) := by
  have hfound := hv.held
  rw [hheld] at hfound
  unfold heldRow at hfound
  cases hd : g.direction with
  | reverse =>
    rw [hd] at hfound
    obtain ⟨j, hj, hrow⟩ := Option.bind_eq_some_iff.mp (Except.ok.inj hfound)
    obtain ⟨_, -, -, hleads⟩ := hv.join_spec hj
    exact Or.inl ⟨rfl, hleads row hrow⟩
  | forward =>
    rw [hd] at hfound
    have hout := (outgoingRow_eq_ok_iff hd).mp hfound
    by_cases hlt : id + 1 < g.size
    · rw [if_pos hlt] at hout
      have hp := partner?_succ_of_forward hd hlt
      cases hlink : v.node.link with
      | none =>
        rw [hlink] at hout
        cases hout
      | some link =>
        rw [hlink] at hout
        obtain ⟨target, plan, htarget, hplan, hrow⟩ := hout
        have hholder : g.node? (g.direction.linkHolder (id + 1) id) = some v.node := by
          rw [hd]
          exact hv.node
        exact Or.inr ⟨rfl, hp,
          leadsTo_of_linkRow hp hholder hlink hplan (node_eq_ok_iff.mp htarget) hrow⟩
    · rw [if_neg hlt] at hout
      cases hout

/-- Each condition of a node is about the node, or about the link row it answers for. -/
theorem refers_filters (hv : g.Visits mode id v) (maxDate : Calendar.DateTime) :
    ∀ e ∈ v.filters maxDate, e.Refers (g.Inside mode id) ∨
      ∃ k, (g.direction = .reverse ∧ k = id ∨ g.direction = .forward ∧ g.partner? k = some id) ∧
        e.Refers (g.OfLinkRow k) := by
  intro e he
  rcases List.mem_append.mp he with hown | hheld
  · exact Or.inl ((Node.named_resolvePredicate (inside_scope hv.node) hv.predicate).refers e hown)
  · obtain ⟨row, hrow, hvalidity⟩ := Option.bind_eq_some_iff.mp (Option.mem_toList.mp hheld)
    have habout : ∀ k, row.LeadsTo g k → e.Refers (g.OfLinkRow k) := by
      intro k hleads
      have hnamed : Named mode.physical (g.OfLinkRow k) [] []
          (row.validity v.node.toNodeSettings maxDate).toList :=
        row.named_validity (fun column hcolumn => hleads.column hcolumn) _ _
      exact hnamed.refers e (Option.mem_toList.mpr hvalidity)
    rcases hv.held_spec hrow with ⟨hd, hleads⟩ | ⟨hd, hp, hleads⟩
    · exact Or.inr ⟨id, Or.inl ⟨hd, rfl⟩, habout id hleads⟩
    · exact Or.inr ⟨id + 1, Or.inr ⟨hd, hp⟩, habout (id + 1) hleads⟩

/-- The link row that an isolated node answers for is its own. -/
theorem refers_filters_of_isolated (hv : g.Visits mode id v)
    (hisolated : g.isolated id v.node.toNodeSettings = true) (maxDate : Calendar.DateTime) :
    ∀ e ∈ v.filters maxDate, e.Refers (g.Inside mode id) ∨ e.Refers (g.OfLinkRow id) := by
  intro e he
  rcases hv.refers_filters maxDate e he with hown | ⟨k, ⟨-, rfl⟩ | ⟨hd, -⟩, hrow⟩
  · exact Or.inl hown
  · exact Or.inr hrow
  · rw [(isolated_iff.mp hisolated).1] at hd
    cases hd

/-- The selects inside the conditions of a node belong to the nodes inside its criterion, and the
texts are those of its criterion. -/
theorem named_filters (hv : g.Visits mode id v) (maxDate : Calendar.DateTime) :
    Named mode.physical (fun _ => True) v.node.nestedNodes v.node.freeTexts
      (v.filters maxDate) := by
  have hown : Named mode.physical (fun _ => True) v.node.nestedNodes v.node.freeTexts
      v.predicate.toList := Node.named_resolvePredicate (fun _ => trivial) hv.predicate
  have hvalidity : Named mode.physical (fun _ => True) [] [] (v.held.bind fun row =>
      row.validity v.node.toNodeSettings maxDate).toList := by
    cases v.held with
    | none => exact .nil
    | some row => exact row.named_validity (fun _ _ => trivial) v.node.toNodeSettings maxDate
  have hboth := hown.append hvalidity
  rw [List.append_nil, List.append_nil] at hboth
  exact hboth

/-- The joins of a node are about the node, the node in front of it and the link row between
them, as they are seen from outside, and their text is that of the link. -/
theorem named_on (hv : g.Visits mode id v) :
    Named mode.physical (fun c => g.Outside mode id c ∨
      (∃ k, g.partner? id = some k ∧ g.Outside mode k c) ∨ g.InLine id ∧ g.OfLinkRow id c)
      [] (g.joinTexts id) ((v.joins g mode id).flatMap Join.on) := by
  cases hj : v.join with
  | none =>
    rw [Visit.joins_of_none hj, hv.joinTexts_eq_nil hj]
    exact .nil
  | some j =>
    obtain ⟨partner, hp, hprevious, hrow⟩ := hv.join_spec hj
    rw [← hv.joinTexts_eq hj]
    cases hisolated : g.isolated id v.node.toNodeSettings with
    | true =>
      rw [Visit.joins_of_isolated hj hisolated, List.flatMap_singleton, derivedJoin_eq]
      refine named_derivedOn (fun column => Or.inr (Or.inl ⟨partner, hp, hprevious column⟩))
        (fun column => Or.inl ⟨v.node, hv.node, ?_⟩)
      rw [hisolated]
      exact NodeSettings.qualifies_hidden_iff.mpr (v.node.aliasName_scope _ _)
    | false =>
      have hinline : g.InLine id := ⟨v.node, hv.node, hisolated⟩
      rw [Visit.joins_of_inline hj hisolated]
      exact named_inlineJoins (fun column => Or.inr (Or.inl ⟨partner, hp, hprevious column⟩))
        (fun column => Or.inl (hinline.outside_of_inside (inside_scope hv.node column)))
        (fun row hr column hcolumn => Or.inr (Or.inr ⟨hinline, (hrow row hr).column hcolumn⟩))

/-- Everything inside the derived table of a node is about the node and its link row. -/
theorem refers_inside (hv : g.Visits mode id v) :
    ∀ j ∈ v.joins g mode id, ∀ t, j.derived? = some t →
      (t.Refers fun c => g.Inside mode id c ∨ g.OfLinkRow id c) ∧
        ∀ e ∈ t.filters, e.Refers (g.Inside mode id) ∨ e.Refers (g.OfLinkRow id) := by
  cases hj : v.join with
  | none =>
    rw [Visit.joins_of_none hj]
    exact List.forall_mem_nil _
  | some j =>
    obtain ⟨partner, hp, hprevious, hrow⟩ := hv.join_spec hj
    cases hisolated : g.isolated id v.node.toNodeSettings with
    | true =>
      rw [Visit.joins_of_isolated hj hisolated, List.forall_mem_singleton, derivedJoin_eq]
      rintro t ⟨⟩
      have hfilters := hv.refers_filters_of_isolated hisolated g.environment.maxDate
      refine ⟨?_, hfilters⟩
      · refine refers_derivedTable ?_ (fun column => Or.inl (inside_scope hv.node column))
          (fun row hr column hcolumn => Or.inr ((hrow row hr).column hcolumn)) ?_
        · exact (NodeSettings.qualifies_derivedColumns v.node.toNodeSettings v.node.aliasName
            mode.physical).mono fun c hc => Or.inl ⟨v.node, hv.node, hc⟩
        · intro e he
          rcases hfilters e he with hown | hheld
          · exact hown.mono fun c => Or.inl
          · exact hheld.mono fun c => Or.inr
    | false =>
      rw [Visit.joins_of_inline hj hisolated]
      intro join hjoin t ht
      rw [derived?_inlineJoins join hjoin] at ht
      cases ht

/-- The select items of a node are about the node and its link row. -/
theorem source_items (hv : g.Visits mode id v) : ∀ item ∈ (v.part g mode id).items,
    g.Outside mode id item.source ∨ g.InLine id ∧ g.OfLinkRow id item.source := by
  intro item hitem
  have hitems : item ∈ v.own ++ g.linkItems id v.node.toNodeSettings v.join := by
    have hchosen : item ∈ if g.projected id then
        v.own ++ g.linkItems id v.node.toNodeSettings v.join else [] := hitem
    split at hchosen
    · exact hchosen
    · cases hchosen
  rcases List.mem_append.mp hitems with hown | hlink
  · obtain ⟨column, hcolumn⟩ := NodeSettings.source_of_mem_items hv.own hown
    rw [hcolumn]
    exact Or.inl (outside_outerScope hv.node column)
  · unfold linkItems at hlink
    split at hlink
    · next row hrow =>
      obtain ⟨j, hj, hr⟩ := Option.bind_eq_some_iff.mp hrow
      obtain ⟨_, -, -, hleads⟩ := hv.join_spec hj
      split at hlink
      · cases hisolated : g.isolated id v.node.toNodeSettings with
        | true =>
          rw [hisolated] at hlink
          obtain ⟨column, -, rfl⟩ := List.mem_map.mp hlink
          refine Or.inl ⟨v.node, hv.node, ?_⟩
          rw [hisolated]
          exact NodeSettings.qualifies_hidden_iff.mpr rfl
        | false =>
          rw [hisolated] at hlink
          obtain ⟨column, hcolumn, rfl⟩ := List.mem_map.mp hlink
          exact Or.inr ⟨⟨v.node, hv.node, hisolated⟩, (hleads row hr).column hcolumn⟩
      · cases hlink
    · cases hlink

/-- Each condition that a node adds to the filter of the statement is about the node, or about
its link row or that of its successor. -/
theorem refers_conditions (hv : g.Visits mode id v) : ∀ q ∈ (v.part g mode id).conditions,
    g.InLine id ∧ (q.1.Refers (g.Inside mode id) ∨
      ∃ k, (k = id ∨ g.partner? k = some id) ∧ g.InLine k ∧ q.1.Refers (g.OfLinkRow k)) := by
  intro q hq
  have hchosen : q ∈ if g.isolated id v.node.toNodeSettings then [] else
      connected v.node.connectiveAfter (v.filters g.environment.maxDate) := hq
  split at hchosen
  · cases hchosen
  · next hisolated =>
    have hinline : g.InLine id := ⟨v.node, hv.node, Bool.eq_false_iff.mpr hisolated⟩
    have hmem : q.1 ∈ v.filters g.environment.maxDate := by
      rw [← map_fst_connected v.node.connectiveAfter (v.filters g.environment.maxDate)]
      exact List.mem_map_of_mem hchosen
    refine ⟨hinline, ?_⟩
    rcases hv.refers_filters _ q.1 hmem with hown | ⟨k, ⟨-, rfl⟩ | ⟨hd, hp⟩, hrow⟩
    · exact Or.inl hown
    · exact Or.inr ⟨k, Or.inl rfl, hinline, hrow⟩
    · exact Or.inr ⟨k, Or.inr hp, inLine_of_forward hd (partner?_lt hp).2, hrow⟩

/-- An isolated node has the filters inside its derived table and adds nothing to the filter of
the statement; any other node has no derived table. -/
theorem part_cases (hv : g.Visits mode id v) :
    (∃ j, (v.part g mode id).joins = [derivedJoin (g.context mode) v.node.toNodeSettings v.source
        (v.node.scope v.node.aliasName mode.physical) j (v.filters g.environment.maxDate)] ∧
      (v.part g mode id).conditions = []) ∨
    (∀ j ∈ (v.part g mode id).joins, j.derived? = none) ∧
      (v.part g mode id).conditions.map (·.1) = v.filters g.environment.maxDate := by
  unfold Visit.part
  cases hisolated : g.isolated id v.node.toNodeSettings with
  | true =>
    obtain ⟨j, hj⟩ := Option.isSome_iff_exists.mp
      ((planJoin_isSome_iff hv.join).mpr (isolated_iff.mp hisolated).2.1)
    exact Or.inl ⟨j, Visit.joins_of_isolated hj hisolated, rfl⟩
  | false =>
    refine Or.inr ⟨fun j hj => ?_, map_fst_connected _ _⟩
    have hmem : j ∈ v.joins g mode id := hj
    cases hjoin : v.join with
    | none =>
      rw [Visit.joins_of_none hjoin] at hmem
      cases hmem
    | some planned =>
      rw [Visit.joins_of_inline hjoin hisolated] at hmem
      exact derived?_inlineJoins j hmem

/-- The selects inside the conditions of a node are those of its filters. -/
theorem selects_part (hv : g.Visits mode id v) :
    (v.part g mode id).selects = (v.filters g.environment.maxDate).flatMap Expr.selects := by
  unfold Part.selects
  rcases hv.part_cases with ⟨j, hjoins, hconditions⟩ | ⟨hplain, hconditions⟩
  · rw [hjoins, hconditions, List.flatMap_singleton, selects_derivedJoin]
    exact List.append_nil _
  · have hjoins : (v.part g mode id).joins.flatMap Join.selects = [] := by
      refine List.flatMap_eq_nil_iff.mpr fun j hj => ?_
      rw [Join.selects_of_derived?_eq_none (hplain j hj)]
      have hon := hv.named_on.selects_eq_nil
      rw [List.flatMap_assoc, List.flatMap_eq_nil_iff] at hon
      exact hon j hj
    rw [hjoins, List.nil_append, ← hconditions, List.flatMap_map]

/-- So are the texts. -/
theorem texts_part (hv : g.Visits mode id v) :
    (v.part g mode id).texts = (v.filters g.environment.maxDate).flatMap Expr.texts := by
  unfold Part.texts
  rcases hv.part_cases with ⟨j, hjoins, hconditions⟩ | ⟨hplain, hconditions⟩
  · rw [hjoins, hconditions, List.flatMap_singleton, texts_derivedJoin]
    exact List.append_nil _
  · have hjoins : (v.part g mode id).joins.flatMap Join.texts = [] :=
      List.flatMap_eq_nil_iff.mpr fun j hj => Join.texts_of_derived?_eq_none (hplain j hj)
    rw [hjoins, List.nil_append, ← hconditions, List.flatMap_map]

/-- The table reference of a node reaches its columns. -/
theorem among_table (hv : g.Visits mode id v) {c : ColumnRef} (hc : g.Inside mode id c) :
    c.Among (v.source.tableRef v.node.aliasName mode.physical).names := by
  obtain ⟨n, hn, hqualifies⟩ := hc
  cases hv.node.symm.trans hn
  exact hqualifies.among hv.source

/-- The joins of a node join its own table, behind its link row if there is one. -/
theorem tables_part (hv : g.Visits mode id v) :
    ∀ j ∈ (v.part g mode id).joins, ∀ t ∈ j.tables,
      t = v.source.tableRef v.node.aliasName mode.physical ∨
        g.JoinedByRow id ∧ ∃ table, g.linkTable = some table ∧
          t = .named table.qualifiedName (LinkTable.aliasTo v.node.aliasName) := by
  intro join hjoin t ht
  have htables : t ∈ (v.joins g mode id).flatMap Join.tables :=
    List.mem_flatMap.mpr ⟨join, hjoin, ht⟩
  cases hj : v.join with
  | none =>
    rw [Visit.joins_of_none hj] at htables
    cases htables
  | some j =>
    obtain ⟨_, -, -, hrow⟩ := hv.join_spec hj
    have hmem : t ∈ joinTables (g.context mode) v.source
        (v.node.scope v.node.aliasName mode.physical) j := by
      cases hisolated : g.isolated id v.node.toNodeSettings with
      | true =>
        rwa [Visit.joins_of_isolated hj hisolated, List.flatMap_singleton,
          tables_derivedJoin] at htables
      | false => rwa [Visit.joins_of_inline hj hisolated, tables_inlineJoins] at htables
    rcases List.mem_append.mp hmem with hlink | hown
    · obtain ⟨row, hr, rfl⟩ := List.mem_map.mp hlink
      obtain ⟨n, hn, hjoined, htable, hname⟩ := hrow row (Option.mem_toList.mp hr)
      cases hv.node.symm.trans hn
      exact Or.inr ⟨hjoined, row.table, htable, congrArg (TableRef.named _) hname⟩
    · rw [List.mem_singleton.mp hown, NodeSettings.aliasName_scope]
      exact Or.inl rfl

/-- What a node contributes follows the rule. -/
theorem qualified (hv : g.Visits mode id v) :
    (v.part g mode id).Qualified g mode id v.node where
  table := ⟨v.source, hv.source, fun _ => hv.among_table, hv.tables_part⟩
  items := hv.source_items
  order := by
    intro term hterm
    obtain ⟨field, -, rfl⟩ := List.mem_map.mp hterm
    exact outside_outerScope hv.node field.field
  conditions := hv.refers_conditions
  on := fun j hj e he => hv.named_on.refers e (List.mem_flatMap.mpr ⟨j, hj, he⟩)
  inside := fun j hj t ht => (hv.refers_inside j hj t ht).1
  filters := fun j hj t ht => (hv.refers_inside j hj t ht).2
  selects := by
    rw [hv.selects_part]
    exact (hv.named_filters g.environment.maxDate).selects
  texts := by
    rw [hv.texts_part]
    exact (hv.named_filters g.environment.maxDate).texts
  onTexts := hv.named_on.texts

end Visits

end Graph

end ObjectQuery.Query
