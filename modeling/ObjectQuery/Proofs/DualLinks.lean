import Mathlib.Data.Sym.Sym2
import ObjectQuery.Proofs.JoinConditions

/-!
# Links from both sides

A link is read from the node in front to the node behind it.  Read the other way it is another
link: a child is joined to its parent as the parent is to its child, and a link row is entered
at its other end.  Joining either of two nodes to the other requires the same columns to be
equal.

What a link requires is written down once for each kind of link, as equalities without an
orientation over columns that say which side they are of.  Planned joins are compared with that
list, and not with each other.

## Main Definitions

* `Join.equalities` — the equalities of columns that joins require
* `Link.Dual` — the link that leads the other way
* `Link.required` — the equalities that a link stands for
* `Graph.JoinsBy` — a node is joined to another by a link

## Main Statements

* `equalities_inlineJoins` — a planned join requires what its link stands for
* `Graph.equalities_planJoin` — so does the join that a graph plans for a node
* `Link.Dual.required_perm` — a link and its dual stand for the same equalities
* `Link.Dual.equalities_perm` — two nodes joined from either side
-/

namespace ObjectQuery.Sql

/-- The two columns that a condition requires to be equal, whichever is written first. -/
def Expr.equality? : Expr → Option (Sym2 ColumnRef)
  | .compareColumns left .equal right => some s(left, right)
  | _ => none

/-- The equalities of columns that joins require. -/
def Join.equalities (joins : List Join) : List (Sym2 ColumnRef) :=
  (joins.flatMap Join.on).filterMap Expr.equality?

end ObjectQuery.Sql

namespace ObjectQuery.Query

open ObjectQuery.Sql ObjectQuery.Outcome

/-! ### The two sides of a join -/

namespace JoinColumn

/-- A column of a join seen from the other side. -/
def turned : JoinColumn → JoinColumn
  | .previous name => .next name
  | .next name => .previous name
  | .link name => .link name

/-- A column of a join of two nodes; those of the link row are shown under an alias. -/
def between (previous next : Scope) (row : String) : JoinColumn → ColumnRef
  | .previous name => previous.column name
  | .next name => next.column name
  | .link name => ⟨row, name⟩

theorem between_turned (previous next : Scope) (row : String) (c : JoinColumn) :
    c.turned.between next previous row = c.between previous next row := by
  cases c <;> rfl

end JoinColumn

/-- Two nodes in exchanged roles show the same columns to the equalities of a join seen from the
other side. -/
theorem map_between_turned (previous next : Scope) (row : String)
    (required : List (Sym2 JoinColumn)) :
    (required.map (Sym2.map JoinColumn.turned)).map
        (Sym2.map (JoinColumn.between next previous row)) =
      required.map (Sym2.map (JoinColumn.between previous next row)) := by
  rw [List.map_map]
  refine List.map_congr_left fun columns _ => ?_
  rw [Function.comp_apply, Sym2.map_map]
  exact Sym2.map_congr fun c _ => JoinColumn.between_turned previous next row c

namespace Link

/-- The link between the same two nodes that is read from the other side. -/
inductive Dual : Link → Link → Prop
  | child : Dual .child .parent
  | parent : Dual .parent .child
  | custom (left right : List String) : Dual (.custom left right) (.custom right left)
  | linkRow (near : LinkEnd) (linkType : Option Int64) :
      Dual (.linkRow near linkType) (.linkRow near.opposite linkType)
  | denormalized (field : String) : Dual (.denormalized field) (.denormalizedReverse field)
  | denormalizedReverse (field : String) :
      Dual (.denormalizedReverse field) (.denormalized field)
  | denormalizedFull (left right : String) :
      Dual (.denormalizedFull left right) (.denormalizedFull right left)

/-- The equalities that a link stands for, with the columns of the link table. -/
def required (columns : LinkColumns) : Link → List (Sym2 JoinColumn)
  | .child => [s(.previous Catalog.parentId, .next Catalog.objectId)]
  | .parent => [s(.previous Catalog.objectId, .next Catalog.parentId)]
  | .custom left right => List.zipWith (fun p n => s(.previous p, .next n)) left right
  | .freeText _ => []
  | .linkRow near _ =>
    [s(.previous Catalog.objectId, .link (columns.endColumn near)),
      s(.link (columns.endColumn near.opposite), .next Catalog.objectId)]
  | .denormalized field => [s(.previous Catalog.objectId, .next field)]
  | .denormalizedReverse field => [s(.previous field, .next Catalog.objectId)]
  | .denormalizedFull left right => [s(.previous left, .next right)]

namespace Dual

variable {link dual : Link}

theorem symm (h : link.Dual dual) : dual.Dual link := by
  cases h with
  | child => exact .parent
  | parent => exact .child
  | custom left right => exact .custom right left
  | linkRow near linkType => cases near <;> exact .linkRow _ linkType
  | denormalized field => exact .denormalizedReverse field
  | denormalizedReverse field => exact .denormalized field
  | denormalizedFull left right => exact .denormalizedFull right left

/-- A link can be planned if its dual can. -/
theorem wellFormed (h : link.Dual dual) (hwell : link.WellFormed) : dual.WellFormed := by
  cases h with
  | custom left right =>
    obtain ⟨hlength, hne⟩ := hwell
    refine ⟨hlength.symm, fun hnil => hne (List.eq_nil_of_length_eq_zero ?_)⟩
    rw [hlength, hnil, List.length_nil]
  | linkRow near linkType => exact hwell
  | child | parent | denormalized | denormalizedReverse | denormalizedFull => trivial

/-- Both go through the link table, or neither does. -/
theorem usesLinkTable_eq (h : link.Dual dual) : dual.usesLinkTable = link.usesLinkTable := by
  cases h <;> rfl

/-- A link and its dual stand for the same equalities, with the sides exchanged. -/
theorem required_perm (h : link.Dual dual) (columns : LinkColumns) :
    (dual.required columns).Perm ((link.required columns).map (Sym2.map JoinColumn.turned)) := by
  cases h with
  | custom left right =>
    have hpairs : List.zipWith (fun p n => s(JoinColumn.previous p, JoinColumn.next n)) right left =
        (List.zipWith (fun p n => s(JoinColumn.previous p, JoinColumn.next n)) left right).map
          (Sym2.map JoinColumn.turned) := by
      rw [List.map_zipWith, List.zipWith_comm]
      exact congrArg (List.zipWith · left right) (funext₂ fun _ _ => Sym2.eq_swap)
    exact List.Perm.of_eq hpairs
  | linkRow near linkType =>
    -- The row is entered at the other end, so its two equalities change places.
    have hnear : near.opposite.opposite = near := by cases near <;> rfl
    rw [required, hnear, Sym2.eq_swap, Sym2.eq_swap (a := JoinColumn.link (columns.endColumn near))]
    exact List.Perm.swap _ _ []
  | child | parent | denormalized | denormalizedReverse | denormalizedFull =>
    exact List.Perm.of_eq (congrArg (fun e => [e]) Sym2.eq_swap)

end Dual

end Link

/-! ### Planned joins -/

namespace Graph

/-- The names of the columns of the link table, if there is one. -/
def linkColumns (g : Graph) : LinkColumns := g.linkTable.elim {} (·.columns)

/-- A node is joined by a link to the node in front of it, which is reached through a scope. -/
structure JoinsBy (g : Graph) (link : Link) (previous next : NodeSettings) (scope : Scope)
    (j : PlannedJoin) : Prop where
  plan : link.plan = .ok j.plan
  row : g.linkRow j.plan next previous.aliasName = .ok j.row
  scope : j.previous = scope

variable {g : Graph} {link : Link} {previous next : NodeSettings} {scope : Scope}

/-- The join of a node of a graph is one by the link that the node or its partner keeps. -/
theorem planJoin_eq_some_iff {mode : Mode} {id partner : Nat} (h : g.partner? id = some partner)
    {n : NodeSettings} {j : PlannedJoin} :
    g.planJoin mode id n = .ok (some j) ↔
      ∃ previous holder link, g.node partner = .ok previous ∧
        g.node (g.direction.linkHolder id partner) = .ok holder ∧ holder.link = some link ∧
        g.JoinsBy link previous.toNodeSettings n
          (g.outerScope mode partner previous.toNodeSettings) j := by
  rw [planJoin_eq_ok_iff h]
  constructor
  · rintro ⟨previous, holder, link, plan, row, hprevious, hholder, hlink, hplan, hrow, hj⟩
    cases hj
    exact ⟨previous, holder, link, hprevious, hholder, hlink, hplan, hrow, rfl⟩
  · rintro ⟨previous, holder, link, hprevious, hholder, hlink, hplan, hrow, hscope⟩
    refine ⟨previous, holder, link, j.plan, j.row, hprevious, hholder, hlink, hplan, hrow, ?_⟩
    rw [← hscope]

/-- Two nodes are joined by a link exactly when it is well-formed and finds the link table. -/
theorem exists_joinsBy_iff :
    (∃ j, g.JoinsBy link previous next scope j) ↔
      link.WellFormed ∧ (link.usesLinkTable = true → g.linkTable.isSome = true) := by
  rw [← exists_plannedRow_iff]
  constructor
  · rintro ⟨j, hplan, hrow, -⟩
    exact ⟨j.plan, j.row, hplan, hrow⟩
  · rintro ⟨plan, row, hplan, hrow⟩
    exact ⟨⟨scope, plan, row⟩, hplan, hrow, rfl⟩

end Graph

/-- Pairs of columns are compared, whichever side is written first. -/
theorem equalities_conditions (pairs : List (String × String)) (nextFirst : Bool)
    (previous next : Scope) :
    ((JoinPlan.columns pairs nextFirst).conditions previous next).filterMap Expr.equality? =
      pairs.map fun (p, n) => s(previous.column p, next.column n) := by
  rw [JoinPlan.conditions, List.filterMap_map, ← List.filterMap_eq_map]
  refine congrArg (pairs.filterMap ·) (funext fun pair => ?_)
  cases nextFirst with
  | false => rfl
  | true => exact congrArg some Sym2.eq_swap

section Joins

variable {cx : Context} {n : NodeSettings} {source : Source} {scope : Scope}

/-- A join without a link row requires the equalities of its plan. -/
theorem equalities_inlineJoins_columns (before : Scope) (pairs : List (String × String))
    (nextFirst : Bool) :
    Join.equalities (inlineJoins cx n source scope ⟨before, .columns pairs nextFirst, none⟩) =
      pairs.map fun (p, n) => s(before.column p, scope.column n) := by
  rw [← equalities_conditions pairs nextFirst, Join.equalities, inlineJoins]
  exact congrArg (List.filterMap Expr.equality?) (List.append_nil _)

/-- A link row is held to both nodes; the conditions on its kind compare no columns. -/
theorem equalities_inlineJoins_row (before : Scope) (plan : JoinPlan) (row : LinkRow) :
    Join.equalities (inlineJoins cx n source scope ⟨before, plan, some row⟩) =
      [s(before.column Catalog.objectId, row.column row.nearColumn),
        s(row.column row.farColumn, scope.column Catalog.objectId)] := by
  unfold Join.equalities inlineJoins LinkRow.conditions LinkTable.statusFilter
  cases cx.statuses <;> rfl

end Joins

/-- The joins of a node in line require what the link to it stands for, between the columns that
the two scopes show. -/
theorem equalities_inlineJoins {g : Graph} {link : Link} {previous next : NodeSettings}
    {before scope : Scope} {j : PlannedJoin} (h : g.JoinsBy link previous next before j)
    (cx : Context) (source : Source) :
    Join.equalities (inlineJoins cx next source scope j) =
      (link.required g.linkColumns).map
        (Sym2.map (JoinColumn.between before scope (LinkTable.aliasTo next.aliasName))) := by
  obtain ⟨before, plan, row⟩ := j
  obtain ⟨hplan, hrow, rfl⟩ := h
  cases link with
  | custom left right =>
    obtain ⟨_, -, hplan⟩ := bind_eq_ok_iff.mp hplan
    cases hplan
    cases hrow
    rw [equalities_inlineJoins_columns, Link.required, List.map_zip_eq_zipWith, List.map_zipWith]
    rfl
  | linkRow near linkType =>
    cases linkType with
    | none => cases hplan
    | some linkType =>
      cases hplan
      obtain ⟨table, htable, rfl⟩ := Graph.linkRow_linkTable_eq_ok_iff.mp hrow
      rw [equalities_inlineJoins_row, Graph.linkColumns, htable]
      rfl
  | freeText sql =>
    cases hplan
    cases hrow
    rfl
  | child | parent | denormalized | denormalizedReverse | denormalizedFull =>
    cases hplan
    cases hrow
    exact equalities_inlineJoins_columns before _ _

/-- The join that a graph plans for a node requires what the link that the node or its partner keeps
stands for, between the columns that the partner shows to other nodes and those of the node. -/
theorem Graph.equalities_planJoin {g : Graph} {mode : Mode} {id partner : Nat}
    (h : g.partner? id = some partner) {n : NodeSettings} {j : PlannedJoin}
    (hj : g.planJoin mode id n = .ok (some j)) (cx : Context) (source : Source) (scope : Scope) :
    ∃ previous holder link, g.node partner = .ok previous ∧
      g.node (g.direction.linkHolder id partner) = .ok holder ∧ holder.link = some link ∧
      g.JoinsBy link previous.toNodeSettings n (g.outerScope mode partner previous.toNodeSettings) j ∧
      Join.equalities (inlineJoins cx n source scope j) =
        (link.required g.linkColumns).map
          (Sym2.map (JoinColumn.between (g.outerScope mode partner previous.toNodeSettings) scope
            (LinkTable.aliasTo n.aliasName))) := by
  obtain ⟨previous, holder, link, hprevious, hholder, hlink, hjoins⟩ :=
    (planJoin_eq_some_iff h).mp hj
  exact ⟨previous, holder, link, hprevious, hholder, hlink, hjoins,
    equalities_inlineJoins hjoins cx source⟩

namespace Link.Dual

/-- Joining one of two nodes to the other by a link, and the other to the one by its dual, are
possible at once.  Both then require the equalities that the link stands for, whatever the
scopes of the two nodes: the link row has an alias of its own either way, and apart from it the
columns are the same.  A custom join requires one equality for each pair of its lists, none of
them cut short. -/
theorem equalities_perm {link dual : Link} (h : link.Dual dual) (g : Graph) (cx : Context)
    (a b : NodeSettings) (sourceA sourceB : Source) (scopeA scopeB : Scope) :
    ((∃ j, g.JoinsBy link a b scopeA j) ↔ ∃ j, g.JoinsBy dual b a scopeB j) ∧
      ∀ j j', g.JoinsBy link a b scopeA j → g.JoinsBy dual b a scopeB j' →
        (Join.equalities (inlineJoins cx b sourceB scopeB j)).Perm
            ((link.required g.linkColumns).map
              (Sym2.map (JoinColumn.between scopeA scopeB (LinkTable.aliasTo b.aliasName)))) ∧
          (Join.equalities (inlineJoins cx a sourceA scopeA j')).Perm
            ((link.required g.linkColumns).map
              (Sym2.map (JoinColumn.between scopeA scopeB (LinkTable.aliasTo a.aliasName)))) ∧
          ∀ left right, link = .custom left right →
            left.length = right.length ∧
              (link.required g.linkColumns).length = left.length := by
  refine ⟨?_, fun j j' hj hj' => ⟨?_, ?_, ?_⟩⟩
  · rw [Graph.exists_joinsBy_iff, Graph.exists_joinsBy_iff, h.usesLinkTable_eq]
    exact and_congr_left' ⟨h.wellFormed, h.symm.wellFormed⟩
  · exact List.Perm.of_eq (equalities_inlineJoins hj cx sourceB)
  · rw [equalities_inlineJoins hj' cx sourceA, ← map_between_turned scopeA scopeB]
    exact (h.required_perm g.linkColumns).map _
  · rintro left right rfl
    obtain ⟨hlength, -⟩ : (Link.custom left right).WellFormed :=
      (Graph.exists_joinsBy_iff.mp ⟨j, hj⟩).1
    refine ⟨hlength, ?_⟩
    rw [required, List.length_zipWith, ← hlength, Nat.min_self]

/-- The stalls, which the sample tree joins to the animals by a link row, and the animals joined to
the stalls by its other end. -/
theorem equalities_perm_farm :
    let g := Farm.graph
    let cx := g.context ⟨true, false⟩
    let a : NodeSettings := Farm.animal.toNodeSettings
    let b : NodeSettings := { Farm.stall.toNodeSettings with position := 1 }
    let scopeA := a.scope a.aliasName true
    let scopeB := b.scope b.aliasName true
    let ends (row : String) : List (Sym2 ColumnRef) :=
      [s(scopeA.column "object_id", ⟨row, "link_obj_id_1"⟩),
        s(⟨row, "link_obj_id_2"⟩, scopeB.column "object_id")]
    ∃ j j', g.planJoin ⟨true, false⟩ 1 b = .ok (some j) ∧
      g.JoinsBy (.linkRow .first (some 5)) a b scopeA j ∧
      g.JoinsBy (.linkRow .second (some 5)) b a scopeB j' ∧
      (Join.equalities (inlineJoins cx b (.table Farm.stalls) scopeB j)).Perm
        (ends (LinkTable.aliasTo b.aliasName)) ∧
      (Join.equalities (inlineJoins cx a (.table Farm.animals) scopeA j')).Perm
        (ends (LinkTable.aliasTo a.aliasName)) := by
  intro g cx a b scopeA scopeB ends
  -- The tree itself plans the join of the stalls; it has none the other way round.
  obtain ⟨j, hplanned⟩ : ∃ j, g.planJoin ⟨true, false⟩ 1 b = .ok (some j) := ⟨_, rfl⟩
  obtain ⟨_, _, _, hprevious, hholder, hlink, hj, -⟩ :=
    Graph.equalities_planJoin rfl hplanned cx (.table Farm.stalls) scopeB
  cases hprevious
  cases hholder
  cases hlink
  obtain ⟨hiff, hperm⟩ := equalities_perm (.linkRow .first (some 5)) g cx a b
    (.table Farm.animals) (.table Farm.stalls) scopeA scopeB
  obtain ⟨j', hj'⟩ := hiff.mp ⟨j, hj⟩
  obtain ⟨hb, ha, -⟩ := hperm j j' hj hj'
  exact ⟨j, j', hplanned, hj, hj', hb, ha⟩

end Link.Dual

end ObjectQuery.Query
