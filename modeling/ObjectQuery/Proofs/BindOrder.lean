import ObjectQuery.Proofs.RenderedValues
import ObjectQuery.Proofs.Visit

/-!
# The order of bind values

The bind values of a compiled graph in closed form, without reference to any text: first what
the nodes contribute to the tables, then what they contribute to the filter, both in the order
of the walk.

## Main Definitions

* `Condition.leafValues`, `Node.nestedValues` — values of the leaves of a criterion
* `Node.ownValues`, `Graph.linkValues` — values of a node's rows and of the link row it keeps
* `Graph.tableValues`, `Graph.filterValues` — what a node contributes to tables and filter

## Main Statements

* `Condition.values_resolve` — resolution keeps the values of the leaves in order
* `Graph.compile_values` — the closed form
-/

namespace ObjectQuery.Query

open ObjectQuery.Sql ObjectQuery.Calendar ObjectQuery.Outcome

/-! ### Values of nodes and criteria -/

/-- The values of the sub-query that a node reads; none for tables. -/
def NodeSettings.subQueryValues (n : NodeSettings) : List Value :=
  match n.source with
  | some (.subQuery q) => q.values
  | _ => []

/-- The date at which the rows of a node have to be valid; none for sub-queries and
histories. -/
def NodeSettings.validityValues (n : NodeSettings) (maxDate : DateTime) : List Value :=
  if n.history || n.table?.isNone then [] else [.date (n.referenceDate.getD maxDate)]

/-- The date of a link filter, then the related objects. -/
def LinkFilter.values (f : LinkFilter) (maxDate : DateTime) : List Value :=
  .date (f.referenceDate.getD maxDate) :: f.related.map .integer

mutual

/-- The values of the leaves of a condition, from left to right. -/
def Condition.leafValues (e : Environment) : Condition → List Value
  | .compare _ _ value => [value]
  | .compareFields _ _ _ => []
  | .isNull _ => []
  | .between _ low high => [low, high]
  | .valueBetween value _ _ => [value]
  | .touches _ box => e.geometry.boxValues box
  | .inList _ values => values
  | .inSubquery _ query => query.nestedValues e
  | .linked _ filter => filter.values e.maxDate
  | .freeText _ values => values
  | .group members => Criterion.memberValues e members

/-- The values of the leaves of a criterion. -/
def Criterion.leafValues (e : Environment) : Criterion → List Value
  | ⟨condition, _, _⟩ => condition.leafValues e

/-- The values of the members of a group, member by member. -/
def Criterion.memberValues (e : Environment) : List Criterion → List Value
  | [] => []
  | member :: rest => member.leafValues e ++ Criterion.memberValues e rest

/-- The values of a node inside a condition: those of its sub-query, then those of its rows. -/
def Node.nestedValues (e : Environment) : Node → List Value
  | ⟨settings, predicate⟩ => settings.subQueryValues ++ Criterion.rowValues e settings predicate

/-- The validity date of a node, then the values of its criterion. -/
def Criterion.rowValues (e : Environment) (n : NodeSettings) : Option Criterion → List Value
  | none => n.validityValues e.maxDate
  | some predicate => n.validityValues e.maxDate ++ predicate.leafValues e

end

/-- The values of the conditions on the rows of a node. -/
def Node.ownValues (e : Environment) (n : Node) : List Value :=
  Criterion.rowValues e n.toNodeSettings n.predicate

namespace Graph

/-- The date at which the link row that a node keeps has to be valid. -/
def linkValues (g : Graph) (id : Nat) (n : NodeSettings) : List Value :=
  if !n.history && g.holdsLinkRow id n then
    [.date (n.linkReferenceDate.getD g.environment.maxDate)]
  else []

/-- The values of the conditions of a node, wherever they stand. -/
def conditionValues (g : Graph) (id : Nat) (n : Node) : List Value :=
  n.ownValues g.environment ++ g.linkValues id n.toNodeSettings

/-- What a node contributes to the values of the tables: its sub-query, and its conditions if
it is isolated. -/
def tableValues (g : Graph) (id : Nat) : List Value :=
  match g.node? id with
  | none => []
  | some n =>
    n.subQueryValues ++
      if g.isolated id n.toNodeSettings then g.conditionValues id n else []

/-- What a node contributes to the values of the filter: its conditions unless it is
isolated. -/
def filterValues (g : Graph) (id : Nat) : List Value :=
  match g.node? id with
  | none => []
  | some n => if g.isolated id n.toNodeSettings then [] else g.conditionValues id n

end Graph

/-! ### Values of expressions -/

section Expressions

variable (geometry : Geometry)

theorem exprValues_append (first rest : List Expr) :
    exprValues geometry (first ++ rest) = exprValues geometry first ++ exprValues geometry rest :=
  List.flatMap_append

theorem exprValues_cons (condition : Expr) (rest : List Expr) :
    exprValues geometry (condition :: rest) =
      condition.values geometry ++ exprValues geometry rest := rfl

/-- Conditions on columns alone have no values. -/
theorem exprValues_eq_nil {conditions : List Expr}
    (h : ∀ e ∈ conditions, e.values geometry = []) : exprValues geometry conditions = [] :=
  List.flatMap_eq_nil_iff.mpr h

theorem values_enclosed (e : Expr) : e.enclosed.values geometry = e.values geometry := by
  cases e <;> simp [Expr.enclosed, Expr.values, Chain.values]

theorem values_negated (e : Expr) : e.negated.values geometry = e.values geometry := by
  cases e <;> simp [Expr.negated, Expr.values, Chain.values]

theorem values_conjunction (first : Expr) (rest : List Expr) :
    (Chain.conjunction first rest).values geometry = exprValues geometry (first :: rest) := by
  induction rest generalizing first with
  | nil => simp [Chain.conjunction, Chain.values, exprValues]
  | cons next rest ih =>
    rw [Chain.conjunction, Chain.values, ih]
    rfl

/-- Parts put into a chain keep their values; without parts there is nothing. -/
theorem values_ofParts? (parts : List (Expr × Connective)) :
    ((Chain.ofParts? parts).elim [] (Chain.values geometry)) =
      exprValues geometry (parts.map (·.1)) := by
  induction parts with
  | nil => rfl
  | cons part rest ih =>
    obtain ⟨condition, connective⟩ := part
    rw [List.map_cons, exprValues_cons, ← ih, Chain.ofParts?]
    cases Chain.ofParts? rest with
    | none => simp [Chain.values]
    | some chain => simp [Chain.values]

theorem values_groupOf? (parts : List (Expr × Connective)) :
    exprValues geometry (groupOf? parts).toList = exprValues geometry (parts.map (·.1)) := by
  rw [← values_ofParts?, groupOf?]
  cases Chain.ofParts? parts with
  | none => rfl
  | some chain => simp [exprValues, Expr.values]

/-- A validity condition has one value: the reference date, or else the end of time. -/
theorem values_validityExpr (validFrom validTo : ColumnRef) (date : Option DateTime)
    (leftJoined : Bool) (maxDate : DateTime) :
    (validityExpr validFrom validTo date leftJoined maxDate).values geometry =
      [.date (date.getD maxDate)] := by
  cases date with
  | some date => simp [validityExpr, Expr.values]
  | none => cases leftJoined <;> simp [validityExpr, Expr.values, Chain.values]

theorem values_validityExpr? (n : NodeSettings) (cx : Context) (scope : Scope) :
    exprValues geometry (n.validityExpr? cx scope).toList = n.validityValues cx.maxDate := by
  unfold NodeSettings.validityExpr? NodeSettings.validityValues
  split
  · rfl
  · rw [Option.toList_some, exprValues_cons, values_validityExpr]
    rfl

/-- Validity in front of a node's own condition: the values of both, in this order. -/
theorem values_withValidity (validity : Option Expr) (own : Option (Option Expr)) :
    exprValues geometry (withValidity validity own).toList =
      exprValues geometry validity.toList ++ exprValues geometry own.join.toList := by
  rcases validity with _ | validity <;> rcases own with _ | _ | own <;>
    simp [withValidity, exprValues, values_enclosed, Expr.values, Chain.values]

end Expressions

/-- A table reference has the values of the sub-query that it stands for. -/
theorem NodeSettings.values_tableRef {n : NodeSettings} {source : Source}
    (h : n.requireSource = .ok source) (aliasName : String) (physical : Bool) :
    (source.tableRef aliasName physical).values = n.subQueryValues := by
  rw [NodeSettings.subQueryValues, NodeSettings.requireSource_eq_ok_iff.mp h]
  cases source with
  | table t => cases physical <;> rfl
  | subQuery q => rfl

/-! ### Resolution keeps the values -/

section Resolution

variable {cx : Context} {e : Environment}

/-- A resolved link filter has the date of the filter and the related objects. -/
theorem values_resolve_linkFilter (hmax : cx.maxDate = e.maxDate) {scope : Scope} {near : LinkEnd}
    {f : LinkFilter} {expr : Expr} (h : f.resolve cx scope near = .ok expr) :
    expr.values e.geometry = f.values e.maxDate := by
  unfold LinkFilter.resolve at h
  cases htable : cx.linkTable with
  | none =>
    rw [htable] at h
    cases h
  | some table =>
    rw [htable] at h
    cases h
    have hstatus : exprValues e.geometry
        (table.statusFilter (LinkTable.aliasTo scope.aliasName ++ "_f") cx.statuses).toList =
          [] := by
      unfold LinkTable.statusFilter
      split
      · rfl
      · simp [exprValues, Expr.values]
    rw [Expr.values, values_conjunction, exprValues_cons, exprValues_append, exprValues_append,
      exprValues_cons, exprValues_cons, hstatus, values_validityExpr, hmax, LinkFilter.values]
    cases hrelated : f.related with
    | nil => simp [equality, Expr.values, exprValues]
    | cons id related => simp [equality, Expr.values, exprValues]

mutual

/-- Resolution keeps the values of the leaves of a condition in order.  By recursion on the
condition: a group passes through its members, a nested node through its own criterion. -/
theorem Condition.values_resolve (hmax : cx.maxDate = e.maxDate) (scope : Scope) :
    ∀ (c : Condition) {r : Option Expr}, c.resolve cx scope = .ok r →
      exprValues e.geometry r.toList = c.leafValues e
  | .compare _ _ _, r, h => by
    cases h
    simp [exprValues, Expr.values, Condition.leafValues]
  | .compareFields _ _ _, r, h => by
    cases h
    simp [exprValues, Expr.values, Condition.leafValues]
  | .isNull _, r, h => by
    cases h
    simp [exprValues, Expr.values, Condition.leafValues]
  | .between _ _ _, r, h => by
    cases h
    simp [exprValues, Expr.values, Condition.leafValues]
  | .valueBetween _ _ _, r, h => by
    cases h
    simp [exprValues, Expr.values, Condition.leafValues]
  | .touches _ _, r, h => by
    cases h
    simp [exprValues, Expr.values, Condition.leafValues]
  | .inList _ _, r, h => by
    cases h
    simp [exprValues, Expr.values, Condition.leafValues]
  | .inSubquery _ query, r, h => by
    obtain ⟨select, hselect, rfl⟩ := map_eq_ok_iff.mp h
    rw [Option.toList_some, exprValues_cons, Expr.values, Condition.leafValues,
      Node.values_resolveNested hmax _ query hselect]
    exact List.append_nil _
  | .linked _ filter, r, h => by
    obtain ⟨expr, hexpr, rfl⟩ := map_eq_ok_iff.mp h
    rw [Option.toList_some, exprValues_cons, values_resolve_linkFilter hmax hexpr,
      Condition.leafValues]
    exact List.append_nil _
  | .freeText _ _, r, h => by
    cases h
    simp [exprValues, Expr.values, Condition.leafValues]
  | .group members, r, h => by
    obtain ⟨parts, hparts, rfl⟩ := map_eq_ok_iff.mp h
    rw [values_groupOf?, Condition.leafValues,
      Criterion.values_resolveParts hmax scope members hparts]

theorem Criterion.values_resolve (hmax : cx.maxDate = e.maxDate) (scope : Scope) :
    ∀ (c : Criterion) {r : Option Expr}, c.resolve cx scope = .ok r →
      exprValues e.geometry r.toList = c.leafValues e
  | ⟨condition, negated, _⟩, r, h => by
    obtain ⟨resolved, hresolved, rfl⟩ := map_eq_ok_iff.mp h
    rw [Criterion.leafValues, ← Condition.values_resolve hmax scope condition hresolved]
    cases negated with
    | false => rfl
    | true =>
      cases resolved with
      | none => rfl
      | some expr => simp [exprValues, values_negated]

theorem Criterion.values_resolveParts (hmax : cx.maxDate = e.maxDate) (scope : Scope) :
    ∀ (members : List Criterion) {parts : List (Expr × Connective)},
      Criterion.resolveParts cx scope members = .ok parts →
      exprValues e.geometry (parts.map (·.1)) = Criterion.memberValues e members
  | [], parts, h => by
    cases h
    rfl
  | member :: rest, parts, h => by
    obtain ⟨resolved, hresolved, h⟩ := bind_eq_ok_iff.mp h
    obtain ⟨others, hothers, h⟩ := bind_eq_ok_iff.mp h
    rw [Criterion.memberValues, ← Criterion.values_resolve hmax scope member hresolved,
      ← Criterion.values_resolveParts hmax scope rest hothers]
    cases resolved with
    | none =>
      cases h
      rfl
    | some expr =>
      cases h
      rw [List.map_cons, exprValues_cons, Option.toList_some, exprValues_cons]
      exact congrArg (· ++ _) (List.append_nil _).symm

theorem Node.values_resolveNested (hmax : cx.maxDate = e.maxDate) (defaultAlias : String) :
    ∀ (n : Node) {select : Subselect}, n.resolveNested cx defaultAlias = .ok select →
      select.values e.geometry = n.nestedValues e
  | ⟨settings, predicate⟩, select, h => by
    obtain ⟨source, hsource, h⟩ := bind_eq_ok_iff.mp h
    obtain ⟨filter, hfilter, h⟩ := bind_eq_ok_iff.mp h
    cases h
    rw [Node.nestedValues, ← Criterion.values_resolveOwn hmax _ settings predicate hfilter,
      ← NodeSettings.values_tableRef hsource]
    cases filter with
    | none => exact (List.append_nil _).symm
    | some filter => rw [Subselect.values, Option.toList_some, exprValues_cons, exprValues,
        List.flatMap_nil, List.append_nil]

theorem Criterion.values_resolveOwn (hmax : cx.maxDate = e.maxDate) (scope : Scope)
    (settings : NodeSettings) :
    ∀ (predicate : Option Criterion) {r : Option Expr},
      Criterion.resolveOwn cx scope settings predicate = .ok r →
      exprValues e.geometry r.toList = Criterion.rowValues e settings predicate
  | none, r, h => by
    cases h
    rw [values_withValidity, values_validityExpr?, Criterion.rowValues, hmax]
    exact List.append_nil _
  | some predicate, r, h => by
    obtain ⟨own, hown, rfl⟩ := map_eq_ok_iff.mp h
    rw [values_withValidity, values_validityExpr?, Criterion.rowValues, hmax,
      ← Criterion.values_resolve hmax scope predicate hown]
    rfl

end

end Resolution

/-! ### One visit -/

section Joins

variable (geometry : Geometry)

@[simp] theorem values_equality (left right : ColumnRef) :
    (equality left right).values geometry = [] := by
  rw [equality, Expr.values]

/-- The columns that a join without a link table compares have no values, and neither has a
condition taken as it is. -/
theorem values_planConditions (plan : JoinPlan) (previous next : Scope) :
    exprValues geometry (plan.conditions previous next) = [] := by
  refine exprValues_eq_nil geometry fun e he => ?_
  cases plan with
  | columns pairs nextFirst =>
    obtain ⟨pair, -, rfl⟩ := List.mem_map.mp he
    cases nextFirst with
    | false => exact values_equality geometry _ _
    | true => exact values_equality geometry _ _
  | freeText sql =>
    rw [JoinPlan.conditions, List.mem_singleton] at he
    rw [he, Expr.values]
  | linkTable linkType near => exact absurd he List.not_mem_nil

/-- The conditions on the kind of a link row are written into the text. -/
theorem values_linkConditions (row : LinkRow) (statuses : List String) :
    exprValues geometry (row.conditions statuses) = [] := by
  unfold LinkRow.conditions LinkTable.statusFilter
  split <;> simp [exprValues, Expr.values]

theorem values_linkTableRef (row : LinkRow) : row.tableRef.values = [] := rfl

variable (cx : Context) {n : NodeSettings} {source : Source} (scope : Scope) (j : PlannedJoin)

theorem values_inlineJoins (h : n.requireSource = .ok source) :
    (inlineJoins cx n source scope j).flatMap (Join.values geometry) = n.subQueryValues := by
  unfold inlineJoins
  cases j.row with
  | none =>
    simp [Join.values, values_planConditions, NodeSettings.values_tableRef h]
  | some row =>
    have hnone : exprValues geometry [] = [] := rfl
    simp [Join.values, exprValues_cons, values_linkConditions, NodeSettings.values_tableRef h,
      values_linkTableRef, hnone]

theorem values_derivedJoin (h : n.requireSource = .ok source) (filters : List Expr) :
    (derivedJoin cx n source scope j filters).values geometry =
      n.subQueryValues ++ exprValues geometry filters := by
  unfold derivedJoin
  cases j.row with
  | none =>
    simp [Join.values, DerivedTable.values, DerivedTable.tableValues, values_planConditions,
      NodeSettings.values_tableRef h]
  | some row =>
    have hnone : exprValues geometry [] = [] := rfl
    simp [Join.values, DerivedTable.values, DerivedTable.tableValues, exprValues_cons,
      values_linkConditions, NodeSettings.values_tableRef h, values_linkTableRef, hnone]

end Joins

namespace Graph

variable {g : Graph} {mode : Mode} {id : Nat} {v : Visit}

theorem tableValues_eq {n : Node} (h : g.node? id = some n) :
    g.tableValues id = n.subQueryValues ++
      if g.isolated id n.toNodeSettings then g.conditionValues id n else [] := by
  rw [tableValues, h]

theorem filterValues_eq {n : Node} (h : g.node? id = some n) :
    g.filterValues id =
      if g.isolated id n.toNodeSettings then [] else g.conditionValues id n := by
  rw [filterValues, h]

/-- The link row that a visited node keeps has the date of `linkValues`. -/
theorem Visits.values_held (h : g.Visits mode id v) :
    exprValues g.environment.geometry
      (v.held.bind fun row =>
        row.validity v.node.toNodeSettings g.environment.maxDate).toList =
      g.linkValues id v.node.toNodeSettings := by
  -- Both sides ask the same question, once of the looked-up row and once of the graph.
  have hheld := heldRow_isSome_iff h.node h.join h.held
  unfold linkValues
  cases hrow : v.held with
  | none =>
    have hnot : g.holdsLinkRow id v.node.toNodeSettings = false := by
      simpa [hrow] using hheld
    rw [hnot, Bool.and_false]
    rfl
  | some row =>
    rw [hrow] at hheld
    rw [hheld.mp rfl, Option.bind_some, LinkRow.validity, Bool.and_true]
    cases v.node.history with
    | true => rfl
    | false => simp [exprValues, values_enclosed, values_validityExpr]

/-- The conditions of a visited node have the values of its rows, then the date of the link
row it keeps. -/
theorem Visits.values_filters (h : g.Visits mode id v) :
    exprValues g.environment.geometry (v.filters g.environment.maxDate) =
      g.conditionValues id v.node := by
  have hown : exprValues g.environment.geometry v.predicate.toList =
      v.node.ownValues g.environment :=
    Criterion.values_resolveOwn rfl _ v.node.toNodeSettings v.node.predicate h.predicate
  rw [Visit.filters, exprValues_append, hown, h.values_held, conditionValues]

/-- The joins of a visited node have its values for the tables. -/
theorem Visits.values_joins (h : g.Visits mode id v) {partner : Nat}
    (hp : g.partner? id = some partner) :
    (v.joins g mode id).flatMap (Join.values g.environment.geometry) = g.tableValues id := by
  have hjoined : v.join.isSome = true := (planJoin_isSome_iff h.join).mpr (by rw [hp]; rfl)
  obtain ⟨j, hj⟩ := Option.isSome_iff_exists.mp hjoined
  rw [tableValues_eq h.node]
  cases hiso : g.isolated id v.node.toNodeSettings with
  | false =>
    rw [Visit.joins_of_inline hj hiso, values_inlineJoins _ _ _ _ h.source,
      if_neg Bool.false_ne_true, List.append_nil]
  | true =>
    rw [Visit.joins_of_isolated hj hiso, List.flatMap_singleton,
      values_derivedJoin _ _ _ _ h.source, h.values_filters, if_pos rfl]

/-- The first node has no joins. -/
theorem Visits.joins_zero (h : g.Visits mode 0 v) : v.joins g mode 0 = [] := by
  have hjoin := h.join
  rw [planJoin_of_none partner?_zero] at hjoin
  exact Visit.joins_of_none (Except.ok.inj hjoin).symm

/-- The first node is never isolated, so only its sub-query counts for the tables. -/
theorem tableValues_zero {n : Node} (h : g.node? 0 = some n) :
    g.tableValues 0 = n.subQueryValues := by
  have hiso : g.isolated 0 n.toNodeSettings = false := by
    simp [isolated, partner?_zero]
  rw [tableValues_eq h, hiso, if_neg Bool.false_ne_true, List.append_nil]

/-- The conditions that a visited node adds to the filter have its values for the filter. -/
theorem Visits.values_conditions (h : g.Visits mode id v) :
    exprValues g.environment.geometry ((v.part g mode id).conditions.map (·.1)) =
      g.filterValues id := by
  rw [filterValues_eq h.node, Visit.part]
  cases hiso : g.isolated id v.node.toNodeSettings with
  | true => rfl
  | false =>
    rw [if_neg Bool.false_ne_true]
    exact (congrArg _ (map_fst_connected _ _)).trans h.values_filters

/-! ### Whole graphs -/

theorem values_assembled (geometry : Geometry) (root : TableRef) (parts : List Part) :
    (assemble root parts).tableValues geometry =
      root.values ++ parts.flatMap fun p => p.joins.flatMap (Join.values geometry) := by
  rw [Statement.tableValues, assemble, List.flatMap_assoc]

/-- The tables of a statement have the values of the first node's sub-query, then those of
the joins of all other nodes. -/
theorem values_tables {root : Node} {source : Source} {parts : List Part} (hpos : 0 < g.size)
    (hroot : g.node? 0 = some root) (hsource : root.requireSource = .ok source)
    (hparts : g.walk.mapM (g.part mode) = .ok parts) :
    (assemble (source.tableRef root.aliasName mode.physical) parts).tableValues
      g.environment.geometry = g.walk.flatMap g.tableValues := by
  -- The root table stands in front of the joins and takes the place of the first node's own.
  obtain ⟨rest, hwalk, hjoined⟩ := walk_eq_cons hpos
  rw [hwalk] at hparts ⊢
  obtain ⟨p, others, hp, hothers, rfl⟩ :=
    List.forall₂_cons_left_iff.mp (mapM_eq_ok_iff.mp hparts)
  obtain ⟨v, hv, rfl⟩ := part_eq_ok_iff.mp hp
  have hrest : others.flatMap (fun p => p.joins.flatMap (Join.values g.environment.geometry)) =
      rest.flatMap g.tableValues := by
    refine flatMap_of_forall₂ hothers fun id hid p hp => ?_
    obtain ⟨partner, hpartner⟩ := hjoined id hid
    obtain ⟨v, hv, rfl⟩ := part_eq_ok_iff.mp hp
    exact hv.values_joins hpartner
  have hfirst : (v.part g mode 0).joins = [] := hv.joins_zero
  rw [values_assembled, List.flatMap_cons, hfirst, hrest, NodeSettings.values_tableRef hsource,
    List.flatMap_cons, tableValues_zero hroot]
  rfl

/-- The filter of a statement has the values of the conditions of all nodes. -/
theorem values_filter {root : TableRef} {parts : List Part}
    (hparts : g.walk.mapM (g.part mode) = .ok parts) :
    (assemble root parts).filterValues g.environment.geometry =
      g.walk.flatMap g.filterValues := by
  -- Connectives have no values, so the chain has those of the conditions it is made of.
  have hchain : (assemble root parts).filterValues g.environment.geometry =
      exprValues g.environment.geometry ((parts.flatMap (·.conditions)).map (·.1)) := by
    rw [← values_ofParts?, Statement.filterValues, assemble]
    cases Chain.ofParts? (parts.flatMap (·.conditions)) <;> rfl
  rw [hchain, List.map_flatMap, exprValues, List.flatMap_assoc]
  refine flatMap_of_forall₂ (mapM_eq_ok_iff.mp hparts) fun id _ p hp => ?_
  obtain ⟨v, hv, rfl⟩ := part_eq_ok_iff.mp hp
  exact hv.values_conditions

/-- The bind values of a compiled graph: node by node in the order of the walk, first those of
the tables, with the conditions of the isolated nodes, then those of the filter, with the
conditions of all others. -/
theorem compile_values {f : Fragment} (h : g.compile mode = .ok f) :
    f.values = g.walk.flatMap g.tableValues ++ g.walk.flatMap g.filterValues := by
  obtain ⟨hpos, words, q, -, hq, rfl⟩ := compile_eq_ok_iff.mp h
  obtain ⟨root, source, parts, hroot, hsource, hparts, rfl⟩ := statement_eq_ok_iff.mp hq
  rw [Statement.values_render, Statement.values, values_tables hpos hroot hsource hparts,
    values_filter hparts]

/-- For the farm: the condition and the link date of the isolated stalls, the score of the
joined sub-query, then the conditions on the animals. -/
theorem compile_values_farm : ∃ f, Farm.graph.compile {} = .ok f ∧
    f.values = [.date .endOfTime, .integer 4, .date Farm.inspection, .integer 3] ++
      [.date .endOfTime, .text "angus", .integer 3] := by
  obtain ⟨f, hf⟩ := Farm.exists_compile_eq_ok
  exact ⟨f, hf, compile_values hf⟩

end Graph

end ObjectQuery.Query
