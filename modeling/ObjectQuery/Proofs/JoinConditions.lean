import ObjectQuery.Proofs.QualifiedParts

/-!
# The conditions of a join

A node is joined in line, or as a derived table; the two ways put the conditions of the join in
different places and reach the columns by different names.  Apart from that they impose the
same conditions, each once.

The conditions are written down once, over columns that say which side of the join they are of.
A way of joining is then a choice of places, and a spelling of the three sides at each place.

## Main Definitions

* `JoinColumn`, `JoinCondition` — a condition of a join, before its columns are spelled
* `PlannedJoin.rowConditions`, `PlannedJoin.partnerConditions` — the conditions of a planned join
* `PlannedJoin.beside`, `PlannedJoin.outside` — columns beside the tables of the node and
  outside of its derived table
* `PlannedJoin.inward` — what a reference to the derived table stands for inside

## Main Statements

* `on_inlineJoins_perm` — all conditions, beside the tables
* `linkOn_derivedTable`, `derivedOn_eq_spelled` — the conditions inside of a derived table and
  outside
* `PlannedJoin.inward_outside` — replacing references to the derived table
* `Graph.inlineJoins_perm_derivedJoin` — the two ways impose the same conditions
-/

namespace ObjectQuery.Sql

/-! ### Replaced columns -/

mutual

/-- The condition with its columns replaced; selects inside keep theirs. -/
def Expr.replaced (f : ColumnRef → ColumnRef) : Expr → Expr
  | .compare column comparison value => .compare (f column) comparison value
  | .compareColumns left comparison right => .compareColumns (f left) comparison (f right)
  | .isNull column => .isNull (f column)
  | .between column low high => .between (f column) low high
  | .valueBetween value low high => .valueBetween value (f low) (f high)
  | .touches column box => .touches (f column) box
  | .inList column values => .inList (f column) values
  | .inSelect column query => .inSelect (f column) query
  | .linked table aliasName conditions => .linked table aliasName (conditions.replaced f)
  | .hasId column id => .hasId (f column) id
  | .hasStatus column statuses => .hasStatus (f column) statuses
  | .raw sql values => .raw sql values
  | .group members => .group (members.replaced f)
  | .not members => .not (members.replaced f)

/-- Conditions with connectives, with their columns replaced. -/
def Chain.replaced (f : ColumnRef → ColumnRef) : Chain → Chain
  | .last condition => .last (condition.replaced f)
  | .more condition connective rest => .more (condition.replaced f) connective (rest.replaced f)

end

/-- The conditions of the link row inside a derived table. -/
def DerivedTable.linkOn (t : DerivedTable) : List Expr := t.link.elim [] (·.2)

end ObjectQuery.Sql

namespace ObjectQuery.Query

open ObjectQuery.Sql

/-! ### Conditions before spelling -/

/-- A column of a join, by the side that it is of. -/
inductive JoinColumn
  | previous (name : String)
  | next (name : String)
  | link (name : String)

/-- A condition of a join. -/
inductive JoinCondition
  | equal (left right : JoinColumn)
  | linkType (column : JoinColumn) (id : Int64)
  | status (column : JoinColumn) (statuses : List String)
  | freeText (sql : String)

namespace JoinCondition

/-- A condition of a join, with its columns spelled. -/
def spelled (spell : JoinColumn → ColumnRef) : JoinCondition → Expr
  | equal left right => equality (spell left) (spell right)
  | linkType column id => .hasId (spell column) id
  | status column statuses => .hasStatus (spell column) statuses
  | freeText sql => .raw sql []

/-- The columns of a condition. -/
def columns : JoinCondition → List JoinColumn
  | equal left right => [left, right]
  | linkType column _ => [column]
  | status column _ => [column]
  | freeText _ => []

/-- Replacing the columns of a spelled condition is spelling them otherwise. -/
theorem replaced_spelled {spell spell' : JoinColumn → ColumnRef} {f : ColumnRef → ColumnRef}
    {c : JoinCondition} (h : ∀ column ∈ c.columns, f (spell column) = spell' column) :
    (c.spelled spell).replaced f = c.spelled spell' := by
  cases c with
  | equal left right =>
    have hleft := h left (List.mem_cons_self ..)
    have hright := h right (List.mem_cons_of_mem _ (List.mem_singleton_self _))
    show Expr.compareColumns _ _ _ = Expr.compareColumns _ _ _
    rw [hleft, hright]
  | linkType column id => exact congrArg (Expr.hasId · id) (h column (List.mem_singleton_self _))
  | status column statuses =>
    exact congrArg (Expr.hasStatus · statuses) (h column (List.mem_singleton_self _))
  | freeText sql => rfl

end JoinCondition

/-- The conditions of a link without a link table. -/
def JoinPlan.joinConditions : JoinPlan → List JoinCondition
  | .columns pairs nextFirst =>
    pairs.map fun (p, n) =>
      if nextFirst then .equal (.next n) (.previous p) else .equal (.previous p) (.next n)
  | .freeText sql => [.freeText sql]
  | .linkTable _ _ => []

namespace PlannedJoin

/-- The conditions between the link row and the node, and on the kind of the link row; none
without a link row. -/
def rowConditions (j : PlannedJoin) (statuses : List String) : List JoinCondition :=
  match j.row with
  | none => []
  | some row =>
    .equal (.link row.farColumn) (.next Catalog.objectId) ::
      .linkType (.link row.table.columns.linkType) row.linkType ::
      if statuses.isEmpty then [] else [.status (.link row.table.columns.status) statuses]

/-- The conditions on the node in front: that the link row leads from it, or those of a link
without a link row. -/
def partnerConditions (j : PlannedJoin) : List JoinCondition :=
  match j.row with
  | none => j.plan.joinConditions
  | some row => [.equal (.previous Catalog.objectId) (.link row.nearColumn)]

/-- The columns of a join, beside the tables of the node. -/
def beside (j : PlannedJoin) (scope : Scope) : JoinColumn → ColumnRef
  | .previous name => j.previous.column name
  | .next name => scope.column name
  | .link name => ⟨LinkTable.aliasTo scope.aliasName, name⟩

/-- The columns of a join, outside of the derived table of the node. -/
def outside (j : PlannedJoin) (scope : Scope) : JoinColumn → ColumnRef
  | .previous name => j.previous.column name
  | .next name => ⟨scope.aliasName, name⟩
  | .link name => ⟨scope.aliasName, LinkTable.aliasTo scope.aliasName ++ "_" ++ name⟩

/-- The names of the columns of the link row, if there is one. -/
def linkColumns (j : PlannedJoin) : List String :=
  j.row.elim [] fun row => row.table.columns.all

/-- What a column stands for inside the derived table of a node: the column of the link row that
is shown under its name, or else the column of the node.  Other columns stand for themselves. -/
def inward (j : PlannedJoin) (scope : Scope) (c : ColumnRef) : ColumnRef :=
  if c.qualifier = scope.aliasName then
    match j.linkColumns.find? fun name =>
        LinkTable.aliasTo scope.aliasName ++ "_" ++ name == c.column with
    | some name => ⟨LinkTable.aliasTo scope.aliasName, name⟩
    | none => scope.column c.column
  else c

end PlannedJoin

/-! ### The two ways -/

/-- The conditions of a link are spelled by the two scopes. -/
theorem JoinPlan.conditions_eq_spelled (plan : JoinPlan) {spell : JoinColumn → ColumnRef}
    (previous next : Scope)
    (hprevious : ∀ name, spell (.previous name) = previous.column name)
    (hnext : ∀ name, spell (.next name) = next.column name) :
    plan.conditions previous next = plan.joinConditions.map (·.spelled spell) := by
  cases plan with
  | linkTable linkType near => rfl
  | freeText sql => rfl
  | columns pairs nextFirst =>
    rw [conditions, joinConditions, List.map_map]
    refine List.map_congr_left fun pair _ => ?_
    cases nextFirst with
    | false => exact congrArg₂ equality (hprevious pair.1).symm (hnext pair.2).symm
    | true => exact congrArg₂ equality (hnext pair.2).symm (hprevious pair.1).symm

/-- A link without a link row compares columns of the two nodes. -/
theorem JoinPlan.columns_joinConditions {plan : JoinPlan} {c : JoinCondition}
    (hc : c ∈ plan.joinConditions) :
    ∀ column ∈ c.columns, (∃ name, column = .previous name) ∨ ∃ name, column = .next name := by
  cases plan with
  | linkTable linkType near => cases hc
  | freeText sql =>
    rw [List.mem_singleton.mp hc]
    exact List.forall_mem_nil _
  | columns pairs nextFirst =>
    obtain ⟨⟨p, n⟩, -, rfl⟩ := List.mem_map.mp hc
    cases nextFirst with
    | false =>
      exact List.forall_mem_cons.mpr
        ⟨Or.inl ⟨p, rfl⟩, List.forall_mem_singleton.mpr (Or.inr ⟨n, rfl⟩)⟩
    | true =>
      exact List.forall_mem_cons.mpr
        ⟨Or.inr ⟨n, rfl⟩, List.forall_mem_singleton.mpr (Or.inl ⟨p, rfl⟩)⟩

/-- The first item and the last one of a list exchanged. -/
theorem perm_exchange {α : Type} (a b : α) (xs : List α) :
    (a :: (xs ++ [b])).Perm (b :: (xs ++ [a])) := by
  have hfirst : (a :: (xs ++ [b])).Perm (a :: b :: xs) := (List.perm_append_singleton b xs).cons a
  have hlast : (b :: (xs ++ [a])).Perm (b :: a :: xs) := (List.perm_append_singleton a xs).cons b
  exact (hfirst.trans (List.Perm.swap b a xs)).trans hlast.symm

section Joins

variable {cx : Context} {n : NodeSettings} {source : Source} {scope : Scope} {j : PlannedJoin}

namespace PlannedJoin

/-- The link row of a planned join has the alias that goes with the node. -/
def RowNamed (j : PlannedJoin) (scope : Scope) : Prop :=
  ∀ row, j.row = some row → row.aliasName = LinkTable.aliasTo scope.aliasName

/-- The link row is joined to the node beside the tables. -/
theorem linkOn_eq_spelled (hnamed : j.RowNamed scope) {row : LinkRow} (hrow : j.row = some row)
    (statuses : List String) :
    equality (row.column row.farColumn) (scope.column Catalog.objectId) ::
        row.conditions statuses =
      (j.rowConditions statuses).map (·.spelled (j.beside scope)) := by
  unfold rowConditions LinkRow.conditions LinkTable.statusFilter LinkRow.column
  rw [hrow, hnamed row hrow]
  cases statuses <;> rfl

end PlannedJoin

/-- Joined in line, a node is under all conditions of the join. -/
theorem on_inlineJoins_perm (hnamed : j.RowNamed scope) :
    ((inlineJoins cx n source scope j).flatMap Join.on).Perm
      ((j.rowConditions cx.statuses ++ j.partnerConditions).map (·.spelled (j.beside scope))) := by
  rw [List.map_append]
  cases hrow : j.row with
  | none =>
    have hinner : j.rowConditions cx.statuses = [] := by
      rw [PlannedJoin.rowConditions, hrow]
    have houter : j.plan.conditions j.previous scope =
        j.partnerConditions.map (·.spelled (j.beside scope)) := by
      rw [PlannedJoin.partnerConditions, hrow]
      exact j.plan.conditions_eq_spelled j.previous scope (fun _ => rfl) (fun _ => rfl)
    rw [inlineJoins, hrow, hinner, ← houter]
    show (j.plan.conditions j.previous scope ++ []).Perm _
    rw [List.append_nil]
    exact List.Perm.refl _
  | some row =>
    have houter : j.partnerConditions.map (·.spelled (j.beside scope)) =
        [equality (j.previous.column Catalog.objectId) (row.column row.nearColumn)] := by
      rw [PlannedJoin.partnerConditions, hrow, LinkRow.column, hnamed row hrow]
      rfl
    rw [← PlannedJoin.linkOn_eq_spelled hnamed hrow, houter, inlineJoins, hrow]
    exact perm_exchange _ _ (row.conditions cx.statuses)

/-- Inside of the derived table, the link row is joined to the node. -/
theorem linkOn_derivedTable (hnamed : j.RowNamed scope) (filters : List Expr) :
    (derivedTable cx n source scope j filters).linkOn =
      (j.rowConditions cx.statuses).map (·.spelled (j.beside scope)) := by
  unfold DerivedTable.linkOn derivedTable
  cases hrow : j.row with
  | none =>
    rw [PlannedJoin.rowConditions, hrow]
    rfl
  | some row => exact PlannedJoin.linkOn_eq_spelled hnamed hrow cx.statuses

/-- Outside, the derived table is joined to the node in front. -/
theorem derivedOn_eq_spelled (hnamed : j.RowNamed scope) :
    j.derivedOn scope = j.partnerConditions.map (·.spelled (j.outside scope)) := by
  unfold PlannedJoin.derivedOn PlannedJoin.partnerConditions
  cases hrow : j.row with
  | none =>
    exact j.plan.conditions_eq_spelled j.previous (.uniform scope.aliasName) (fun _ => rfl)
      (fun _ => rfl)
  | some row =>
    show [equality _ ⟨_, row.aliasName ++ "_" ++ row.nearColumn⟩] = _
    rw [hnamed row hrow]
    rfl

/-! ### References to the derived table -/

namespace PlannedJoin

/-- Columns of other tables stand for themselves. -/
theorem inward_of_ne {c : ColumnRef} (h : c.qualifier ≠ scope.aliasName) :
    j.inward scope c = c := if_neg h

/-- Without a link row the derived table shows the columns of the node. -/
theorem inward_next (hrow : j.row = none) (name : String) :
    j.inward scope ⟨scope.aliasName, name⟩ = scope.column name := by
  rw [inward, if_pos rfl, linkColumns, hrow]
  rfl

/-- A column of the link row is shown under a name of its own. -/
theorem inward_link {name : String} (hname : name ∈ j.linkColumns) :
    j.inward scope ⟨scope.aliasName, LinkTable.aliasTo scope.aliasName ++ "_" ++ name⟩ =
      ⟨LinkTable.aliasTo scope.aliasName, name⟩ := by
  rw [inward, if_pos rfl]
  cases hfound : j.linkColumns.find? fun column =>
      LinkTable.aliasTo scope.aliasName ++ "_" ++ column ==
        LinkTable.aliasTo scope.aliasName ++ "_" ++ name with
  | none =>
    have hmissed := List.find?_eq_none.mp hfound name hname
    exact absurd (beq_self_eq_true _) hmissed
  | some column =>
    have hbeq := List.find?_some hfound
    have hsame : column = name := (String.append_right_inj _).mp (eq_of_beq hbeq)
    rw [hsame]

/-- Seen from the node, the columns of the join conditions outside stand for the columns beside
its tables: a column of the node in front for itself, for it is not mistaken for one of the
derived table. -/
theorem inward_outside (hprevious : ∀ name, (j.previous.column name).qualifier ≠ scope.aliasName) :
    ∀ c ∈ j.partnerConditions, ∀ column ∈ c.columns,
      j.inward scope (j.outside scope column) = j.beside scope column := by
  intro c hc column hcolumn
  unfold partnerConditions at hc
  cases hrow : j.row with
  | none =>
    rw [hrow] at hc
    rcases JoinPlan.columns_joinConditions hc column hcolumn with ⟨name, rfl⟩ | ⟨name, rfl⟩
    · exact inward_of_ne (hprevious name)
    · exact inward_next hrow name
  | some row =>
    rw [hrow] at hc
    rw [List.mem_singleton.mp hc] at hcolumn
    have hnear : row.nearColumn ∈ j.linkColumns := by
      rw [linkColumns, hrow]
      exact row.table.columns.endColumn_mem row.near
    rcases List.mem_pair.mp hcolumn with rfl | rfl
    · exact inward_of_ne (hprevious Catalog.objectId)
    · exact inward_link hnear

end PlannedJoin

end Joins

/-! ### Planned joins of a graph -/

namespace Graph

variable {g : Graph} {mode : Mode} {id : Nat} {n : NodeSettings} {j : PlannedJoin}

/-- The link row of a planned join is named after the node. -/
theorem rowNamed_of_planJoin (hj : g.planJoin mode id n = .ok (some j)) :
    j.RowNamed (n.scope n.aliasName mode.physical) := by
  intro row hrow
  obtain ⟨partner, hp⟩ := Option.isSome_iff_exists.mp ((planJoin_isSome_iff hj).mp rfl)
  obtain ⟨previous, _, _, plan, found, -, -, -, -, hfound, hsome⟩ := (planJoin_eq_ok_iff hp).mp hj
  cases hsome
  cases hrow
  obtain ⟨linkType, near, rfl⟩ := (linkRow_isSome_iff hfound).mp rfl
  obtain ⟨table, -, hfound⟩ := linkRow_linkTable_eq_ok_iff.mp hfound
  cases hfound
  rw [NodeSettings.aliasName_scope]

/-- However a planned join is written, its conditions are the same: in line they stand beside the
tables of the node; of a derived table those of the link row stand inside, and those on the node
in front outside, where the columns are reached through the derived table.  So replacing each
reference to the derived table by what it stands for inside gives the conditions in line, as long
as the columns of the node in front are not mistaken for such references. -/
theorem inlineJoins_perm_derivedJoin (hj : g.planJoin mode id n = .ok (some j)) (source : Source)
    (filters : List Expr) :
    let cx := g.context mode
    let scope := n.scope n.aliasName mode.physical
    let inline := (inlineJoins cx n source scope j).flatMap Join.on
    ∃ table on, derivedJoin cx n source scope j filters = .derived table n.aliasName on ∧
      inline.Perm ((j.rowConditions g.statuses ++ j.partnerConditions).map
        (·.spelled (j.beside scope))) ∧
      table.linkOn = (j.rowConditions g.statuses).map (·.spelled (j.beside scope)) ∧
      on = j.partnerConditions.map (·.spelled (j.outside scope)) ∧
      ((∀ name, (j.previous.column name).qualifier ≠ n.aliasName) →
        inline.Perm (table.linkOn ++ on.map (Expr.replaced (j.inward scope)))) := by
  intro cx scope inline
  have hnamed : j.RowNamed scope := rowNamed_of_planJoin hj
  have halias : scope.aliasName = n.aliasName := n.aliasName_scope n.aliasName mode.physical
  have hinline : inline.Perm ((j.rowConditions g.statuses ++ j.partnerConditions).map
      (·.spelled (j.beside scope))) := on_inlineJoins_perm hnamed
  have hlink : (derivedTable cx n source scope j filters).linkOn =
      (j.rowConditions g.statuses).map (·.spelled (j.beside scope)) :=
    linkOn_derivedTable hnamed filters
  have houter := derivedOn_eq_spelled hnamed
  refine ⟨_, _, by rw [derivedJoin_eq, halias], hinline, hlink, houter, fun hprevious => ?_⟩
  rw [hlink, houter, List.map_map]
  rw [List.map_append] at hinline
  have hreplaced : j.partnerConditions.map (Expr.replaced (j.inward scope) ∘
      (·.spelled (j.outside scope))) = j.partnerConditions.map (·.spelled (j.beside scope)) := by
    refine List.map_congr_left fun c hc => JoinCondition.replaced_spelled ?_
    exact PlannedJoin.inward_outside (by rwa [halias]) c hc
  rw [hreplaced]
  exact hinline

/-- The stalls, which are joined as a derived table, would be joined under the same conditions in
line. -/
theorem inlineJoins_perm_derivedJoin_farm :
    let cx := Farm.graph.context ⟨true, false⟩
    let n : NodeSettings := { Farm.stall.toNodeSettings with position := 1 }
    let scope := n.scope n.aliasName true
    ∃ j table on, Farm.graph.planJoin ⟨true, false⟩ 1 n = .ok (some j) ∧
      derivedJoin cx n (.table Farm.stalls) scope j [] = .derived table n.aliasName on ∧
      ((inlineJoins cx n (.table Farm.stalls) scope j).flatMap Join.on).Perm
        (table.linkOn ++ on.map (Expr.replaced (j.inward scope))) := by
  intro cx n scope
  obtain ⟨j, hj⟩ : ∃ j, Farm.graph.planJoin ⟨true, false⟩ 1 n = .ok (some j) := ⟨_, rfl⟩
  obtain ⟨table, on, hderived, -, -, -, hinline⟩ :=
    inlineJoins_perm_derivedJoin hj (.table Farm.stalls) []
  refine ⟨j, table, on, hj, hderived, hinline fun name => ?_⟩
  -- The animals in front are reached under the aliases of their two tables.
  have hqualifier : (j.previous.column name).qualifier = "rt0" ∨
      (j.previous.column name).qualifier = "t0" := by
    cases hj
    exact ite_eq_or_eq _ "rt0" "t0"
  have halias : n.aliasName = "t1" := by
    show NodeSettings.aliasName { Farm.stall.toNodeSettings with position := 1 } = "t1"
    decide
  rw [halias]
  rcases hqualifier with h | h
  · rw [h]
    decide
  · rw [h]
    decide

end Graph

end ObjectQuery.Query
