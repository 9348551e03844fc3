import ObjectQuery.Proofs.FragmentAlgebra
import ObjectQuery.Sql.Rendering

/-!
# The values of rendered statements

Rendering a statement gives its bind values in the order in which `Statement.values` lists
them: the order of the statement's tree, not of any dialect's words.

## Main Statements

* `Expr.values_render`, `Chain.values_render`, `Subselect.values_render` — conditions
* `Join.values_render` — joins
* `Statement.values_render` — whole statements
-/

namespace ObjectQuery.Sql

variable (s : Spelling)

theorem TableRef.values_render (w : Vocabulary) (t : TableRef) :
    (t.render w).values = t.values := by
  cases t with
  | named name aliasName => rfl
  | paired repository repositoryAlias table aliasName key rowKey => rfl
  | subQuery sql values aliasName => simp [TableRef.render, TableRef.values]

mutual

/-- A rendered condition has the values of its leaves, from left to right. -/
theorem Expr.values_render : ∀ e : Expr, (e.render s).values = e.values s.geometry
  | .compare _ _ _ => by simp [Expr.render, Expr.values]
  | .compareColumns _ _ _ => by simp [Expr.render, Expr.values]
  | .isNull _ => by simp [Expr.render, Expr.values]
  | .between _ _ _ => by simp [Expr.render, Expr.values]
  | .valueBetween _ _ _ => by simp [Expr.render, Expr.values]
  | .touches _ _ => by simp [Expr.render, Expr.values]
  | .inList _ values => by
    cases values with
    | nil => simp [Expr.render, Expr.values]
    | cons v values => simp [Expr.render, Expr.values, List.flatMap_map]
  | .inSelect _ query => by simp [Expr.render, Expr.values, Subselect.values_render query]
  | .linked _ _ conditions => by simp [Expr.render, Expr.values, Chain.values_render conditions]
  | .hasId _ _ => by simp [Expr.render, Expr.values]
  | .hasStatus _ _ => by simp [Expr.render, Expr.values]
  | .raw _ _ => by simp [Expr.render, Expr.values]
  | .group members => by simp [Expr.render, Expr.values, Chain.values_render members]
  | .not members => by simp [Expr.render, Expr.values, Chain.values_render members]

theorem Chain.values_render : ∀ c : Chain, (c.render s).values = c.values s.geometry
  | .last condition => by
    rw [Chain.render, Chain.values, Expr.values_render condition]
  | .more condition _ rest => by
    simp [Chain.render, Chain.values, Expr.values_render condition, Chain.values_render rest]

theorem Subselect.values_render :
    ∀ q : Subselect, (q.render s).values = q.values s.geometry
  | .mk _ source none => by
    simp [Subselect.render, Subselect.values, TableRef.values_render]
  | .mk _ source (some filter) => by
    simp [Subselect.render, Subselect.values, TableRef.values_render, Expr.values_render filter]

end

theorem values_renderAll (conditions : List Expr) :
    (renderAll s conditions).values = exprValues s.geometry conditions := by
  rw [renderAll, Fragment.values_join, List.flatMap_map, exprValues]
  simp only [Expr.values_render]

theorem DerivedTable.values_renderTables (t : DerivedTable) :
    (t.renderTables s).values = t.tableValues s.geometry := by
  unfold DerivedTable.renderTables DerivedTable.tableValues
  cases t.link with
  | none => exact TableRef.values_render _ _
  | some link => simp [TableRef.values_render, values_renderAll]

theorem DerivedTable.values_render (t : DerivedTable) :
    (t.render s).values = t.values s.geometry := by
  unfold DerivedTable.render DerivedTable.values
  cases hf : t.filters with
  | nil => simp [DerivedTable.values_renderTables, exprValues]
  | cons filter filters => simp [DerivedTable.values_renderTables, values_renderAll]

theorem Join.values_render (j : Join) : (j.render s).values = j.values s.geometry := by
  cases j with
  | plain kind source on =>
    simp [Join.render, Join.values, TableRef.values_render, values_renderAll]
  | derived table aliasName on =>
    simp [Join.render, Join.values, DerivedTable.values_render, values_renderAll]

theorem Statement.values_renderTables (q : Statement) :
    (q.renderTables s).values = q.tableValues s.geometry := by
  rw [renderTables, Fragment.values_join, List.flatMap_cons, List.flatMap_map, tableValues,
    TableRef.values_render]
  simp only [Join.values_render]

theorem Statement.values_renderFilter (q : Statement) :
    (q.renderFilter s).values = q.filterValues s.geometry := by
  unfold renderFilter filterValues
  cases q.filter with
  | none => rfl
  | some chain => simp [Chain.values_render]

/-- A rendered statement has the values of its tables, then those of its filter. -/
theorem Statement.values_render (q : Statement) : (q.render s).values = q.values s.geometry := by
  rw [values, ← values_renderTables, ← values_renderFilter]
  simp [render]

end ObjectQuery.Sql
