import ObjectQuery.Proofs.Building
import ObjectQuery.Proofs.FragmentAlgebra
import ObjectQuery.Proofs.QualifiedParts

/-!
# The selects behind `IN`

Every node inside a criterion gives one select of the statement, and no select comes from
anywhere else.  What such a select shows follows from the definition of its node alone: the list
of the node, else the first column of its sub-query, else the object identifier.  How many
columns these are is checked neither when a graph is built nor when it is compiled, so the
definition decides whether the select fits behind `IN`.

## Main Definitions

* `Subselect.columns`, `Columns.names?` — what a select shows
* `Node.ResolvesTo` — the select of a node inside a condition
* `NodeDefinition.nested` — the definitions of the nodes inside criteria, at any depth
* `NodeSource.subselected` — the columns that the select of such a node shows
* `NodeSource.AsksForOne` — the definitions whose selects show one column

## Main Statements

* `Statement.partOf_render` — a select stands in the text of its statement
* `Condition.resolvesTo_selects` — the selects of a condition are those of the nodes inside
* `NodeDefinition.Mirrors.nested` — the nodes inside criteria mirror the definitions inside
* `QueryDefinition.compile_selects` — the selects of a compiled definition, one by one
-/

namespace ObjectQuery.Sql

open Fragment (PartOf)

/-! ### The columns and the text of a select -/

/-- The columns that a select shows. -/
def Subselect.columns : Subselect → Columns
  | .mk columns _ _ => columns

/-- The names of columns; none for everything under an alias. -/
def Columns.names? : Columns → Option (List String)
  | .every _ => none
  | .listed columns => some (columns.map (·.column))

/-- A list of columns has one column if it has one name. -/
theorem Columns.exists_listed_singleton_iff {columns : Columns} :
    (∃ column, columns = .listed [column]) ↔ ∃ name, columns.names? = some [name] := by
  cases columns with
  | every aliasName => simp [names?]
  | listed columns =>
    simp only [names?, listed.injEq, Option.some.injEq, List.map_eq_singleton_iff]
    constructor
    · rintro ⟨column, rfl⟩
      exact ⟨column.column, column, rfl, rfl⟩
    · rintro ⟨_, column, rfl, -⟩
      exact ⟨column, rfl⟩

section

variable (s : Spelling) {select : Subselect}

mutual

/-- A select inside a condition stands in the text of the condition. -/
theorem Expr.partOf_render : ∀ (e : Expr), select ∈ e.selects →
    (select.render s).PartOf (e.render s)
  | .inSelect _ query, h => by
    have hquery : (select.render s).PartOf (query.render s) := by
      rcases List.mem_cons.mp h with rfl | hinside
      · exact .refl _
      · exact Subselect.partOf_render query hinside
    exact (hquery.behind _).before _
  | .linked _ _ conditions, h => ((Chain.partOf_render conditions h).behind _).before _
  | .group members, h => ((Chain.partOf_render members h).behind _).before _
  | .not members, h => ((Chain.partOf_render members h).behind _).before _
  | .compare _ _ _, h => nomatch h
  | .compareColumns _ _ _, h => nomatch h
  | .isNull _, h => nomatch h
  | .between _ _ _, h => nomatch h
  | .valueBetween _ _ _, h => nomatch h
  | .touches _ _, h => nomatch h
  | .inList _ _, h => nomatch h
  | .hasId _ _, h => nomatch h
  | .hasStatus _ _, h => nomatch h
  | .raw _ _, h => nomatch h

theorem Chain.partOf_render : ∀ (chain : Chain), select ∈ chain.selects →
    (select.render s).PartOf (chain.render s)
  | .last condition, h => Expr.partOf_render condition h
  | .more condition _ rest, h => by
    rcases List.mem_append.mp h with hfirst | hrest
    · exact ((Expr.partOf_render condition hfirst).before _).before _
    · exact (Chain.partOf_render rest hrest).behind _

theorem Subselect.partOf_render : ∀ (outer : Subselect), select ∈ outer.selects →
    (select.render s).PartOf (outer.render s)
  | .mk _ _ none, h => nomatch h
  | .mk _ _ (some filter), h => (Expr.partOf_render filter h).behind _

end

theorem partOf_renderAll {conditions : List Expr} (h : select ∈ conditions.flatMap Expr.selects) :
    (select.render s).PartOf (renderAll s conditions) := by
  obtain ⟨e, he, hselect⟩ := List.mem_flatMap.mp h
  exact (e.partOf_render s hselect).trans (.join _ (List.mem_map_of_mem he))

/-- A select inside the conditions of a join stands in the text of the join. -/
theorem Join.partOf_render {j : Join} (h : select ∈ j.selects) :
    (select.render s).PartOf (j.render s) := by
  cases j with
  | plain kind source on => exact (partOf_renderAll s h).behind _
  | derived table aliasName on =>
    rcases List.mem_append.mp h with hinside | hon
    · refine PartOf.before (PartOf.before (PartOf.behind ?_ _) _) _
      have htables (hlink : select ∈ table.link.elim [] fun link =>
          link.2.flatMap Expr.selects) : (select.render s).PartOf (table.renderTables s) := by
        unfold DerivedTable.renderTables
        cases hl : table.link with
        | none =>
          rw [hl] at hlink
          cases hlink
        | some link =>
          rw [hl] at hlink
          exact (partOf_renderAll s hlink).behind _
      unfold DerivedTable.render
      rcases List.mem_append.mp hinside with hlink | hfilters
      · split
        · exact (htables hlink).behind _
        · exact (((htables hlink).behind _).before _).before _
      · have hnonempty : table.filters.isEmpty = false := by
          obtain ⟨e, he, -⟩ := List.mem_flatMap.mp hfilters
          exact List.isEmpty_eq_false_iff.mpr (List.ne_nil_of_mem he)
        rw [hnonempty]
        exact (partOf_renderAll s hfilters).behind _
    · exact (partOf_renderAll s hon).behind _

/-- A select inside the conditions of a statement stands in the text of the statement. -/
theorem Statement.partOf_render {q : Statement} (h : select ∈ q.selects) :
    (select.render s).PartOf (q.render s) := by
  refine PartOf.before ?_ _
  rcases List.mem_append.mp h with hjoins | hfilter
  · obtain ⟨j, hj, hselect⟩ := List.mem_flatMap.mp hjoins
    have htables : (j.render s).PartOf (q.renderTables s) :=
      .join "" (List.mem_cons_of_mem _ (List.mem_map_of_mem hj))
    exact (((j.partOf_render s hselect).trans htables).behind _).before _
  · refine PartOf.behind ?_ _
    unfold renderFilter
    cases hf : q.filter with
    | none =>
      rw [hf] at hfilter
      cases hfilter
    | some chain =>
      rw [hf] at hfilter
      exact (chain.partOf_render s hfilter).behind _

end

end ObjectQuery.Sql

namespace ObjectQuery.Query

open ObjectQuery.Sql ObjectQuery.Outcome

/-! ### Conditions without and with selects -/

/-- A group has the selects of its members. -/
theorem selects_groupOf? (parts : List (Expr × Connective)) :
    (groupOf? parts).toList.flatMap Expr.selects = parts.flatMap fun p => p.1.selects := by
  rw [← Chain.selects_ofParts?, groupOf?]
  cases Chain.ofParts? parts with
  | none => rfl
  | some chain => exact List.append_nil chain.selects

/-- A negated condition has the selects of the condition. -/
theorem selects_map_negated (r : Option Expr) :
    (r.map Expr.negated).toList.flatMap Expr.selects = r.toList.flatMap Expr.selects := by
  cases r with
  | none => rfl
  | some e =>
    rw [Option.map_some, Option.toList_some, Option.toList_some, List.flatMap_singleton,
      List.flatMap_singleton, e.selects_negated]

/-- Validity adds no select to a node's own condition. -/
theorem selects_withValidity {validity : Option Expr}
    (hvalidity : validity.toList.flatMap Expr.selects = []) (own : Option (Option Expr)) :
    (withValidity validity own).toList.flatMap Expr.selects =
      own.join.toList.flatMap Expr.selects := by
  cases validity with
  | none =>
    rcases own with _ | _ | e
    · rfl
    · rfl
    · show e.enclosed.selects ++ [] = e.selects ++ []
      rw [e.selects_enclosed]
  | some validity =>
    have hnone : validity.selects = [] := by
      rwa [Option.toList_some, List.flatMap_singleton] at hvalidity
    rcases own with _ | _ | e
    · show validity.enclosed.selects ++ [] = []
      rw [validity.selects_enclosed, hnone, List.nil_append]
    · show validity.selects ++ [] = []
      rw [hnone, List.nil_append]
    · show (validity.selects ++ e.selects) ++ [] = e.selects ++ []
      rw [hnone, List.nil_append]

/-- Validity has no select inside. -/
theorem selects_validityExpr? (cx : Context) (n : NodeSettings) (scope : Scope) :
    (n.validityExpr? cx scope).toList.flatMap Expr.selects = [] := by
  have hvalidity : Named cx.physical (fun _ => True) [] [] (n.validityExpr? cx scope).toList :=
    named_validityExpr? n fun _ => trivial
  exact hvalidity.selects_eq_nil

/-! ### The selects of nodes -/

/-- A select is that of a node inside a condition. -/
def Node.ResolvesTo (cx : Context) (n : Node) (select : Subselect) : Prop :=
  ∃ defaultAlias, n.resolveNested cx defaultAlias = .ok select

section Resolution

variable {cx : Context}

mutual

/-- The selects of a condition are those of the nodes inside, in order.  By recursion on the
condition: a nested node stands in front of the nodes inside it. -/
theorem Condition.resolvesTo_selects : ∀ (c : Condition) {scope : Scope} {r : Option Expr},
    c.resolve cx scope = .ok r →
      List.Forall₂ (Node.ResolvesTo cx) c.nestedNodes (r.toList.flatMap Expr.selects)
  | .compare _ _ _, _, _, h => by cases h; exact .nil
  | .compareFields _ _ _, _, _, h => by cases h; exact .nil
  | .isNull _, _, _, h => by cases h; exact .nil
  | .between _ _ _, _, _, h => by cases h; exact .nil
  | .valueBetween _ _ _, _, _, h => by cases h; exact .nil
  | .touches _ _, _, _, h => by cases h; exact .nil
  | .inList _ _, _, _, h => by cases h; exact .nil
  | .freeText _ _, _, _, h => by cases h; exact .nil
  | .inSubquery _ query, _, _, h => by
    obtain ⟨select, hselect, rfl⟩ := map_eq_ok_iff.mp h
    rw [Option.toList_some, List.flatMap_singleton]
    exact .cons ⟨_, hselect⟩ (Node.resolvesTo_selects query hselect)
  | .linked _ _, _, _, h => by
    obtain ⟨e, he, rfl⟩ := map_eq_ok_iff.mp h
    have hleaf : Named cx.physical (fun _ => True) [] [] [e] :=
      named_resolve_linkFilter (fun _ => trivial) he
    rw [Option.toList_some, hleaf.selects_eq_nil]
    exact .nil
  | .group members, _, _, h => by
    obtain ⟨parts, hparts, rfl⟩ := map_eq_ok_iff.mp h
    rw [selects_groupOf?]
    exact Criterion.resolvesTo_selectsAll members hparts

theorem Criterion.resolvesTo_selects : ∀ (c : Criterion) {scope : Scope} {r : Option Expr},
    c.resolve cx scope = .ok r →
      List.Forall₂ (Node.ResolvesTo cx) c.nestedNodes (r.toList.flatMap Expr.selects)
  | ⟨condition, negated, _⟩, _, _, h => by
    obtain ⟨own, hown, rfl⟩ := map_eq_ok_iff.mp h
    have hcondition := Condition.resolvesTo_selects condition hown
    cases negated with
    | false => exact hcondition
    | true =>
      rw [if_pos rfl, selects_map_negated]
      exact hcondition

theorem Criterion.resolvesTo_selectsAll : ∀ (members : List Criterion) {scope : Scope}
    {parts : List (Expr × Connective)}, Criterion.resolveParts cx scope members = .ok parts →
      List.Forall₂ (Node.ResolvesTo cx) (Criterion.nestedNodesAll members)
        (parts.flatMap fun p => p.1.selects)
  | [], _, _, h => by
    cases h
    exact .nil
  | member :: rest, _, _, h => by
    obtain ⟨resolved, hresolved, h⟩ := bind_eq_ok_iff.mp h
    obtain ⟨others, hothers, h⟩ := bind_eq_ok_iff.mp h
    have hboth := List.rel_append (Criterion.resolvesTo_selects member hresolved)
      (Criterion.resolvesTo_selectsAll rest hothers)
    cases resolved with
    | none =>
      cases h
      exact hboth
    | some e =>
      cases h
      rw [Option.toList_some, List.flatMap_singleton] at hboth
      exact hboth

/-- The selects inside the select of a node are those of the nodes inside its criterion. -/
theorem Node.resolvesTo_selects : ∀ (n : Node) {defaultAlias : String} {select : Subselect},
    n.resolveNested cx defaultAlias = .ok select →
      List.Forall₂ (Node.ResolvesTo cx) n.nestedNodes select.selects
  | ⟨settings, predicate⟩, _, _, h => by
    obtain ⟨source, -, h⟩ := bind_eq_ok_iff.mp h
    obtain ⟨filter, hfilter, h⟩ := bind_eq_ok_iff.mp h
    cases h
    have hselects := Criterion.resolvesTo_selectsOwn settings predicate hfilter
    cases filter with
    | none => exact hselects
    | some e =>
      rw [Option.toList_some, List.flatMap_singleton] at hselects
      exact hselects

theorem Criterion.resolvesTo_selectsOwn (settings : NodeSettings) :
    ∀ (predicate : Option Criterion) {scope : Scope} {r : Option Expr},
      Criterion.resolveOwn cx scope settings predicate = .ok r →
        List.Forall₂ (Node.ResolvesTo cx) (Criterion.nestedNodesOf predicate)
          (r.toList.flatMap Expr.selects)
  | none, scope, _, h => by
    cases h
    rw [selects_withValidity (selects_validityExpr? cx settings scope)]
    exact .nil
  | some predicate, scope, _, h => by
    obtain ⟨own, hown, rfl⟩ := map_eq_ok_iff.mp h
    rw [selects_withValidity (selects_validityExpr? cx settings scope)]
    exact Criterion.resolvesTo_selects predicate hown

end

/-- What the rows of a node have to meet has the selects of the nodes inside its criterion. -/
theorem Node.resolvesTo_resolvePredicate {n : Node} {scope : Scope} {r : Option Expr}
    (h : n.resolvePredicate cx scope = .ok r) :
    List.Forall₂ (Node.ResolvesTo cx) n.nestedNodes (r.toList.flatMap Expr.selects) := by
  cases n with
  | mk settings predicate => exact Criterion.resolvesTo_selectsOwn settings predicate h

end Resolution

/-! ### The selects of statements -/

namespace Graph

variable {g : Graph} {mode : Mode} {id : Nat}

/-- What a node contributes has the selects of the nodes inside its criterion. -/
theorem Visits.resolvesTo_selects {v : Visit} (hv : g.Visits mode id v) :
    List.Forall₂ (Node.ResolvesTo (g.context mode)) v.node.nestedNodes
      (v.part g mode id).selects := by
  have hheld : (v.held.bind fun row => row.validity v.node.toNodeSettings
      g.environment.maxDate).toList.flatMap Expr.selects = [] := by
    cases v.held with
    | none => rfl
    | some row =>
      have hvalidity : Named mode.physical (fun _ => True) [] []
          (row.validity v.node.toNodeSettings g.environment.maxDate).toList :=
        row.named_validity (fun _ _ => trivial) v.node.toNodeSettings g.environment.maxDate
      exact hvalidity.selects_eq_nil
  rw [hv.selects_part, Visit.filters, List.flatMap_append, hheld, List.append_nil]
  exact Node.resolvesTo_resolvePredicate hv.predicate

/-- An assembled statement has the selects of its parts, those in joins in front of those in
the filter. -/
theorem selects_assemble_perm (root : TableRef) (parts : List Part) :
    (parts.flatMap Part.selects).Perm (assemble root parts).selects := by
  have hfilter : (assemble root parts).filter.elim [] Chain.selects =
      parts.flatMap fun p => p.conditions.flatMap fun q => q.1.selects := by
    rw [← List.flatMap_assoc]
    exact Chain.selects_ofParts? _
  have hjoins : (assemble root parts).joins.flatMap Join.selects =
      parts.flatMap fun p => p.joins.flatMap Join.selects :=
    List.flatMap_assoc
  rw [Statement.selects, hfilter, hjoins]
  exact (List.flatMap_append_perm parts _ _).symm

end Graph

end ObjectQuery.Query

namespace ObjectQuery.Definition

open ObjectQuery.Query ObjectQuery.Sql ObjectQuery.Outcome

variable {c : Catalog} {g : Graph}

/-! ### Definitions of nested nodes -/

mutual

/-- The definitions of the nodes inside a condition, at any depth, each in front of those inside
it. -/
def ConditionDefinition.nested : ConditionDefinition → List NodeDefinition
  | .inSubquery _ query => query :: query.nested
  | .all members => CriterionDefinition.nestedAll members
  | .any members => CriterionDefinition.nestedAll members
  | .group members => CriterionDefinition.nestedAll members
  | .compare _ _ _ _ => []
  | .isNull _ => []
  | .between _ _ _ => []
  | .valueBetween _ _ _ => []
  | .touches _ _ => []
  | .inList _ _ => []
  | .linked _ _ _ => []
  | .freeText _ _ => []

/-- The definitions of the nodes inside a criterion, at any depth. -/
def CriterionDefinition.nested : CriterionDefinition → List NodeDefinition
  | ⟨condition, _, _⟩ => condition.nested

/-- The definitions of the nodes inside several criteria. -/
def CriterionDefinition.nestedAll : List CriterionDefinition → List NodeDefinition
  | [] => []
  | criterion :: rest => criterion.nested ++ CriterionDefinition.nestedAll rest

/-- The definitions of the nodes inside the criteria of a node, at any depth. -/
def NodeDefinition.nested : NodeDefinition → List NodeDefinition
  | ⟨_, criteria, _⟩ => CriterionDefinition.nestedAll criteria

end

/-- The definitions of the nodes inside the criteria of all nodes of a query. -/
def QueryDefinition.nested (q : QueryDefinition) : List NodeDefinition :=
  q.all.flatMap NodeDefinition.nested

mutual

/-- The nodes inside a condition mirror the definitions inside its definition, in order.  By
recursion on the definition. -/
theorem ConditionDefinition.Mirrors.nested : ∀ {d : ConditionDefinition} {condition : Condition},
    d.Mirrors c condition →
      List.Forall₂ (NodeDefinition.Mirrors c) d.nested condition.nestedNodes
  | _, _, .compare _ _ _ => .nil
  | _, _, .compareFields _ _ _ => .nil
  | _, _, .isNull _ => .nil
  | _, _, .between _ _ _ => .nil
  | _, _, .valueBetween _ _ _ => .nil
  | _, _, .touches _ _ => .nil
  | _, _, .inList _ _ => .nil
  | _, _, .freeText _ _ => .nil
  | _, _, .linked _ _ _ => .nil
  | .inSubquery _ _, _, .inSubquery _ hquery _ _ =>
    .cons hquery (NodeDefinition.Mirrors.nested hquery)
  | .group _, _, .group hmembers => CriterionDefinition.Mirrors.nestedAll hmembers
  | .all _, _, .all hmembers => by
    show List.Forall₂ _ _ (Criterion.nestedNodesAll _)
    rw [(nestedNodesAll_connectedBy .and _).1]
    exact CriterionDefinition.Mirrors.nestedAll hmembers
  | .any _, _, .any hmembers => by
    show List.Forall₂ _ _ (Criterion.nestedNodesAll _)
    rw [(nestedNodesAll_connectedBy .or _).1]
    exact CriterionDefinition.Mirrors.nestedAll hmembers

theorem CriterionDefinition.Mirrors.nested : ∀ {d : CriterionDefinition} {criterion : Criterion},
    d.Mirrors c criterion →
      List.Forall₂ (NodeDefinition.Mirrors c) d.nested criterion.nestedNodes
  | _, _, .mk _ _ hcondition => ConditionDefinition.Mirrors.nested hcondition

theorem CriterionDefinition.Mirrors.nestedAll : ∀ {ds : List CriterionDefinition}
    {criteria : List Criterion}, List.Forall₂ (CriterionDefinition.Mirrors c) ds criteria →
      List.Forall₂ (NodeDefinition.Mirrors c) (CriterionDefinition.nestedAll ds)
        (Criterion.nestedNodesAll criteria)
  | [], _, .nil => .nil
  | _ :: _, _, .cons hfirst hrest =>
    List.rel_append (CriterionDefinition.Mirrors.nested hfirst)
      (CriterionDefinition.Mirrors.nestedAll hrest)

/-- The nodes inside the criterion of a node mirror the definitions inside its criteria. -/
theorem NodeDefinition.Mirrors.nested : ∀ {d : NodeDefinition} {n : Node}, d.Mirrors c n →
    List.Forall₂ (NodeDefinition.Mirrors c) d.nested n.nestedNodes
  | ⟨_, criteria, _⟩, ⟨_, predicate⟩, h => by
    obtain ⟨built, hcriteria, hnodes, -⟩ := h.exists_criteria
    show List.Forall₂ _ (CriterionDefinition.nestedAll criteria)
      (Criterion.nestedNodesOf predicate)
    rw [hnodes]
    exact CriterionDefinition.Mirrors.nestedAll hcriteria

end

/-! ### The columns of nested nodes -/

/-- The columns that the select of a node behind `IN` shows; none if it shows everything that
its sub-query has. -/
def NodeSource.subselected (d : NodeSource) : Option (List String) :=
  match d.fields, d.subQuery with
  | some fields, _ => some fields
  | none, some query => query.fields.head?.map fun first => [first]
  | none, none => some [Catalog.objectId]

/-- A definition asks for one column: its own list has one name, or it has no list, and its
sub-query, if it has one, names a column. -/
structure NodeSource.AsksForOne (d : NodeSource) : Prop where
  own : ∀ fields, d.fields = some fields → fields.length = 1
  default : d.fields = none → ∀ query, d.subQuery = some query → query.fields ≠ []

/-- What it means to ask for one column. -/
theorem NodeSource.asksForOne_iff {d : NodeSource} :
    (∃ name, d.subselected = some [name]) ↔ d.AsksForOne := by
  unfold subselected
  constructor
  · rintro ⟨name, hname⟩
    constructor
    · intro fields hfields
      rw [hfields] at hname
      rw [Option.some.inj hname]
      rfl
    · rintro hfields query hquery hnil
      simp [hfields, hquery, hnil] at hname
  · rintro ⟨hown, hdefault⟩
    cases hfields : d.fields with
    | some fields =>
      obtain ⟨name, rfl⟩ := List.length_eq_one_iff.mp (hown fields hfields)
      exact ⟨name, rfl⟩
    | none =>
      cases hquery : d.subQuery with
      | none => exact ⟨Catalog.objectId, rfl⟩
      | some query =>
        obtain ⟨first, rest, hfirst⟩ := List.exists_cons_of_ne_nil (hdefault hfields query hquery)
        refine ⟨first, ?_⟩
        simp [hfirst]

/-- A nested node shows what its definition says. -/
theorem NodeSource.Sets.names?_nestedColumns {d : NodeSource} {n : NodeSettings}
    (h : d.Sets c n) {source : Source} (hsource : n.requireSource = .ok source) (scope : Scope) :
    (n.nestedColumns scope source).names? = d.subselected := by
  obtain ⟨source', hsource', hnames⟩ := h.source
  cases (NodeSettings.requireSource_eq_ok_iff.mp hsource).symm.trans hsource'
  have hlisted (names : List String) : (names.map scope.column).map (·.column) = names := by
    rw [List.map_map]
    exact List.map_id names
  unfold NodeSettings.nestedColumns NodeSource.subselected
  rw [h.fields]
  cases d.fields with
  | some fields => exact congrArg some (hlisted fields)
  | none =>
    cases hnames with
    | byName _ _ hquery _ | byType _ _ hquery _ =>
      rw [hquery]
      exact congrArg some (hlisted [Catalog.objectId])
    | @written query _ _ hquery =>
      rw [hquery]
      cases hfields : query.fields with
      | nil => simp [hfields, Columns.names?]
      | cons first rest => simp [hfields, Columns.names?, Scope.column]

/-- The settings of a node that mirrors a definition. -/
theorem NodeDefinition.Mirrors.sets {d : NodeDefinition} {n : Node} (h : d.Mirrors c n) :
    d.toNodeSource.Sets c n.toNodeSettings := by
  cases h with
  | bare _ hsets | single _ hsets _ | several _ hsets _ _ => exact hsets

/-- The select of a node that mirrors a definition shows what the definition says. -/
theorem NodeDefinition.Mirrors.names?_columns {d : NodeDefinition} {n : Node}
    (h : d.Mirrors c n) {cx : Context} {select : Subselect} (hselect : n.ResolvesTo cx select) :
    select.columns.names? = d.subselected := by
  obtain ⟨defaultAlias, hselect⟩ := hselect
  have hsets := h.sets
  obtain ⟨settings, predicate⟩ := n
  obtain ⟨source, hsource, hselect⟩ := bind_eq_ok_iff.mp hselect
  obtain ⟨filter, -, hselect⟩ := bind_eq_ok_iff.mp hselect
  cases hselect
  exact hsets.names?_nestedColumns hsource _

/-! ### Whole queries -/

/-- The definitions of a query stand, in order, at the nodes that are walked. -/
theorem QueryDefinition.MirroredBy.stands_walk {q : QueryDefinition} (h : q.MirroredBy c g) :
    List.Forall₂ (fun d id => ∃ n, NodeDefinition.Stands c g d id n) q.all g.walk := by
  rw [h.walk, List.forall₂_iff_get]
  refine ⟨by rw [List.length_range, h.size], fun id hid hid' => ?_⟩
  rw [List.get_eq_getElem, List.get_eq_getElem, List.getElem_range]
  exact h.stands id q.all[id] (List.getElem?_eq_getElem hid)

/-- What a node contributes has the selects of the definitions inside its own. -/
theorem NodeDefinition.Stands.selects_part {d : NodeDefinition} {id : Nat} {n : Node}
    (h : d.Stands c g id n) {mode : Mode} {p : Part} (hp : g.part mode id = .ok p) :
    List.Forall₂ (fun d select => select.columns.names? = d.subselected) d.nested p.selects := by
  obtain ⟨v, hv, rfl⟩ := Graph.part_eq_ok_iff.mp hp
  cases hv.node.symm.trans h.node
  exact forall₂_trans (fun _ _ _ hmirrors hselect => hmirrors.names?_columns hselect)
    h.mirrors.nested hv.resolvesTo_selects

/-- The statement of a graph has one select for each definition inside a criterion. -/
theorem QueryDefinition.MirroredBy.selects_statement {q : QueryDefinition}
    (h : q.MirroredBy c g) {mode : Mode} {s : Statement} (hs : g.statement mode = .ok s) :
    ∃ selects : List Subselect, selects.Perm s.selects ∧
      List.Forall₂ (fun d select => select.columns.names? = d.subselected) q.nested selects := by
  obtain ⟨root, source, parts, -, -, hparts, rfl⟩ := Graph.statement_eq_ok_iff.mp hs
  have hall : List.Forall₂ (fun d p => List.Forall₂
      (fun d select => select.columns.names? = d.subselected) d.nested p.selects) q.all parts := by
    refine forall₂_trans (fun d id p hd hp => ?_) h.stands_walk (mapM_eq_ok_iff.mp hparts)
    obtain ⟨n, hstands⟩ := hd
    exact hstands.selects_part hp
  refine ⟨parts.flatMap Part.selects, Graph.selects_assemble_perm _ parts, ?_⟩
  exact List.rel_flatMap hall fun _ _ hpart => hpart

/-- In what a definition compiles to there is one select behind `IN` for each node inside a
criterion, at any depth, and there are no others.  It shows the columns that the definition of
the node says, and it shows exactly one column exactly when the definition asks for one; nothing
else of the definition, of the graph or of the mode has a say in it. -/
theorem QueryDefinition.compile_selects {q : QueryDefinition} {config : Config} {e : Environment}
    (hg : q.build c config e = .ok g) {mode : Mode} {f : Fragment} (hf : g.compile mode = .ok f) :
    ∃ words s selects, vocabulary e.dialect = .ok words ∧ g.statement mode = .ok s ∧
      f = s.render ⟨words, e.geometry⟩ ∧ selects.Perm s.selects ∧
      (∀ select ∈ selects, (select.render ⟨words, e.geometry⟩).PartOf f) ∧
      List.Forall₂ (fun d select => select.columns.names? = d.subselected ∧
        ((∃ column, select.columns = .listed [column]) ↔ d.AsksForOne)) q.nested selects := by
  obtain ⟨-, words, s, hwords, hs, rfl⟩ := Graph.compile_eq_ok_iff.mp hf
  obtain ⟨selects, hperm, hselects⟩ := (mirrored_build hg).selects_statement hs
  have henvironment : g.environment = e := (assembled_build hg).environment
  rw [henvironment] at hwords
  rw [henvironment]
  refine ⟨words, s, selects, hwords, hs, rfl, hperm, fun select hselect => ?_, ?_⟩
  · exact s.partOf_render ⟨words, e.geometry⟩ (hperm.mem_iff.mp hselect)
  · refine hselects.imp fun d select hcolumns => ⟨hcolumns, ?_⟩
    rw [Columns.exists_listed_singleton_iff, hcolumns]
    exact NodeSource.asksForOne_iff

namespace Farm

/-- The animals among those with a score, of which some are among the guests. -/
def ranked : QueryDefinition where
  nodes :=
    [{ table := some "ANIMAL"
       criteria :=
        [⟨.all
          [⟨.inSubquery "object_id"
              { subQuery := some Query.Farm.highScores
                criteria := [⟨.inSubquery "object_id" { table := some "ANIMAL" }, true, .and⟩] },
            false, .and⟩],
          false, .and⟩] }]

/-- The best animals with their breeds, by a sub-query that names no columns. -/
def best : SubQuery := ⟨"SELECT object_id, breed FROM farm.best", [], []⟩

/-- The animals whose identifiers are among the rows of a node. -/
def among (d : NodeDefinition) : QueryDefinition where
  nodes := [{ table := some "ANIMAL", criteria := [⟨.inSubquery "object_id" d, false, .and⟩] }]

/-- The definition is built and compiles, and the select of the node shows certain columns. -/
def AmongShows (d : NodeDefinition) (columns : Columns) : Prop :=
  ∃ g f s select, (among d).build catalog {} .standard = .ok g ∧ g.compile {} = .ok f ∧
    g.statement {} = .ok s ∧ s.selects = [select] ∧ select.columns = columns

end Farm

/-- A sub-query inside a criterion and a table inside the criterion of that sub-query. -/
theorem QueryDefinition.compile_selects_farm :
    ∃ g f s, Farm.ranked.build Farm.catalog {} .standard = .ok g ∧ g.compile {} = .ok f ∧
      g.statement {} = .ok s ∧ (∀ d ∈ Farm.ranked.nested, d.AsksForOne) ∧
      s.selects.length = 2 ∧
        ∀ select ∈ s.selects, ∃ column, select.columns = .listed [column] := by
  obtain ⟨g, hg⟩ : ∃ g, Farm.ranked.build Farm.catalog {} .standard = .ok g := ⟨_, rfl⟩
  obtain ⟨f, hf⟩ : ∃ f, g.compile {} = .ok f := by
    cases hg
    exact ⟨_, rfl⟩
  have hone : ∀ d ∈ Farm.ranked.nested, d.AsksForOne := by
    show ∀ d ∈ [_, _], _
    rw [List.forall_mem_cons, List.forall_mem_singleton]
    constructor <;> rw [← NodeSource.asksForOne_iff]
    · exact ⟨"object_id", rfl⟩
    · exact ⟨"object_id", rfl⟩
  obtain ⟨words, s, selects, -, hs, -, hperm, -, hselects⟩ :=
    QueryDefinition.compile_selects hg hf
  refine ⟨g, f, s, hg, hf, hs, hone, ?_, fun select hselect => ?_⟩
  · exact hperm.length_eq.symm.trans hselects.length_eq.symm
  · obtain ⟨d, hd, -, hiff⟩ := exists_of_forall₂ hselects (hperm.mem_iff.mpr hselect)
    exact hiff.mpr (hone d hd)

/-- A definition may list two columns inside a criterion, or none, and it may leave out what the
columns of a sub-query are: it is built and compiles, and the select behind `IN` shows two columns,
no column, or everything that the sub-query has. -/
theorem QueryDefinition.exists_select_without_one_column :
    Farm.AmongShows { table := some "ANIMAL", fields := some ["object_id", "breed"] }
        (.listed [⟨"t0_sq", "object_id"⟩, ⟨"t0_sq", "breed"⟩]) ∧
      Farm.AmongShows { table := some "ANIMAL", fields := some [] } (.listed []) ∧
      Farm.AmongShows { subQuery := some Farm.best } (.every "t0_sq") := by
  refine ⟨?_, ?_, ?_⟩
  · exact ⟨_, _, _, _, rfl, rfl, rfl, rfl, rfl⟩
  · exact ⟨_, _, _, _, rfl, rfl, rfl, rfl, rfl⟩
  · exact ⟨_, _, _, _, rfl, rfl, rfl, rfl, rfl⟩

end ObjectQuery.Definition
