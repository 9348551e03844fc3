import ObjectQuery.Proofs.Compilable
import ObjectQuery.Proofs.FragmentAlgebra

/-!
# Select lists

Which nodes are returned, whether they show their link columns and which of their fields are
asked for decides nothing but the select list.  The proof erases these settings: every step of
a compilation except for the choice of the select items gives the same result for a graph and
for the graph without them.

## Main Definitions

* `Graph.unprojected` — a graph without everything that decides about its select list
* `Part.bare`, `Statement.bare` — a contribution and a statement without select items
* `Statement.tail` — the text of a statement behind its select list

## Main Statements

* `Graph.planJoin_unprojected`, `Graph.heldRow_unprojected` — joins and link rows
* `Graph.bare_part_unprojected` — what one node contributes besides select items
* `Graph.compile_of_unprojected` — two graphs, and two modes, that differ in nothing else
  compile to texts that differ in the select list
-/

namespace ObjectQuery.Sql

open Fragment (text)

namespace Statement

/-- The statement with another select list. -/
def selecting (q : Statement) (items : List SelectItem) : Statement := { q with items }

/-- The statement without its select list. -/
def bare (q : Statement) : Statement := q.selecting []

/-- A statement behind its select list: its tables, its filter and its order. -/
def tail (s : Spelling) (q : Statement) : Fragment :=
  text ("\n" ++ s.words .fromTables ++ " ") ++ q.renderTables s ++ q.renderFilter s ++
    text (q.renderOrder s)

/-- The select list has no values, and stands between its keyword and the rest. -/
theorem render_eq_tail (s : Spelling) (q : Statement) :
    q.render s = ⟨s.words .select ++ " " ++ renderItems s q.items ++ (q.tail s).sql,
      (q.tail s).values⟩ := by
  apply Fragment.eq_of_sql_of_values
  · simp only [render, tail, Fragment.sql_append, Fragment.sql_text, String.append_assoc]
  · rfl

/-- Statements that agree without their select lists. -/
theorem eq_selecting_of_bare_eq {q q' : Statement} (h : q.bare = q'.bare) :
    q' = q.selecting q'.items := by
  cases q
  cases q'
  cases h
  rfl

end Statement

end ObjectQuery.Sql

namespace ObjectQuery.Query

open ObjectQuery.Sql ObjectQuery.Outcome

/-! ### Erased settings -/

/-- The node without what decides about its select items. -/
def NodeSettings.unprojected (n : NodeSettings) : NodeSettings :=
  { n with returned := false, showsLinkColumns := false, fields := none }

/-- The node without what decides about its select items; nodes inside its criterion keep
theirs. -/
def Node.unprojected (n : Node) : Node :=
  { n with toNodeSettings := n.toNodeSettings.unprojected }

/-- The rows of a node do not depend on its select items. -/
theorem Node.resolvePredicate_unprojected (cx : Context) (scope : Scope) (n : Node) :
    n.unprojected.resolvePredicate cx scope = n.resolvePredicate cx scope := by
  cases n with
  | mk settings predicate => cases predicate <;> rfl

namespace Graph

/-- The graph without everything that decides about its select list. -/
def unprojected (g : Graph) : Graph :=
  { g with
    slots := g.slots.map fun slot => { slot with node := slot.node.unprojected }
    returnType := none
    admitted := by
      intro id s hs
      rw [List.getElem?_map, Option.map_eq_some_iff] at hs
      obtain ⟨slot, hslot, rfl⟩ := hs
      exact g.admitted id slot hslot }

variable (g : Graph) (m : Mode)

theorem size_unprojected : g.unprojected.size = g.size := List.length_map _

theorem partner?_unprojected (id : Nat) : g.unprojected.partner? id = g.partner? id := by
  unfold partner? unprojected
  rw [List.getElem?_map, Option.bind_map]
  rfl

theorem node_unprojected (id : Nat) :
    g.unprojected.node id = (g.node id).map Node.unprojected := by
  have hnode : g.unprojected.node? id = (g.node? id).map Node.unprojected := by
    unfold node? unprojected
    rw [List.getElem?_map, Option.map_map, Option.map_map]
    rfl
  unfold Graph.node
  rw [hnode]
  cases g.node? id <;> rfl

theorem children_unprojected (id : Nat) : g.unprojected.children id = g.children id := by
  unfold children
  simp only [size_unprojected, partner?_unprojected]

/-- The nodes are walked in the same order. -/
theorem walk_unprojected : g.unprojected.walk = g.walk :=
  walk_congr g.size_unprojected g.partner?_unprojected

theorem isolated_unprojected (id : Nat) (n : NodeSettings) :
    g.unprojected.isolated id n.unprojected = g.isolated id n := by
  rw [isolated, partner?_unprojected]
  rfl

theorem outerScope_unprojected (id : Nat) (n : NodeSettings) :
    g.unprojected.outerScope ⟨m.physical, false⟩ id n.unprojected = g.outerScope m id n := by
  rw [outerScope, isolated_unprojected]
  rfl

/-- Joins are planned from sources, aliases and links alone. -/
theorem planJoin_unprojected (id : Nat) (n : NodeSettings) :
    g.unprojected.planJoin ⟨m.physical, false⟩ id n.unprojected = g.planJoin m id n := by
  unfold planJoin
  rw [partner?_unprojected]
  cases g.partner? id with
  | none => rfl
  | some partner =>
    simp only [node_unprojected]
    cases g.node partner with
    | error e => rfl
    | ok previous =>
      have hscope : g.unprojected.outerScope ⟨m.physical, false⟩ partner
          previous.unprojected.toNodeSettings = g.outerScope m partner previous.toNodeSettings :=
        g.outerScope_unprojected m partner previous.toNodeSettings
      show (Except.map Node.unprojected (g.node (g.direction.linkHolder id partner)) >>= _) =
        (g.node (g.direction.linkHolder id partner) >>= _)
      rw [← hscope]
      cases g.node (g.direction.linkHolder id partner) <;> rfl

/-- So is the link row that a node answers for. -/
theorem heldRow_unprojected (id : Nat) (n : NodeSettings) (join : Option PlannedJoin) :
    g.unprojected.heldRow id n.unprojected join = g.heldRow id n join := by
  have hdirection : g.unprojected.direction = g.direction := rfl
  have hlink : n.unprojected.link = n.link := rfl
  unfold heldRow
  rw [hdirection]
  cases g.direction with
  | reverse => rfl
  | forward =>
    show g.unprojected.outgoingRow id n.unprojected = g.outgoingRow id n
    unfold outgoingRow
    rw [children_unprojected, hlink]
    cases (g.children id).head? with
    | none => rfl
    | some next =>
      cases n.link with
      | none => rfl
      | some link =>
        show (g.unprojected.node next >>= _) = (g.node next >>= _)
        rw [node_unprojected]
        cases g.node next <;> rfl

/-! ### Contributions without select items -/

end Graph

/-- The contribution of a node without its select items. -/
def Part.bare (p : Part) : Part := { p with items := [] }

namespace Graph

variable (g : Graph) (m : Mode)

/-- Whatever a node contributes besides select items does not depend on the erased settings:
the look-ups agree one by one, and the last one, which does not agree, only finds the select
items and never fails. -/
theorem bare_part_unprojected (id : Nat) :
    (g.unprojected.part ⟨m.physical, false⟩ id).map Part.bare = (g.part m id).map Part.bare := by
  unfold part
  rw [node_unprojected]
  cases g.node id with
  | error e => rfl
  | ok n =>
    have hplan := g.planJoin_unprojected m id n.toNodeSettings
    have hheld := g.heldRow_unprojected id n.toNodeSettings
    have hpredicate := n.resolvePredicate_unprojected (g.context m)
      (n.scope n.aliasName m.physical)
    refine map_bind_congr (x := n.requireSource) rfl fun source hsource => ?_
    refine map_bind_congr hplan fun join _ => ?_
    refine map_bind_congr (hheld join) fun held _ => ?_
    refine map_bind_congr hpredicate fun predicate _ => ?_
    have hsome : n.source.isSome = true := by
      rw [NodeSettings.requireSource_eq_ok_iff.mp hsource]
      rfl
    obtain ⟨own, hown⟩ := n.toNodeSettings.exists_items hsome
      (g.outerScope m id n.toNodeSettings) m.geometry
    obtain ⟨own', hown'⟩ := n.unprojected.toNodeSettings.exists_items hsome
      (g.outerScope m id n.toNodeSettings) false
    have houter : g.unprojected.outerScope ⟨m.physical, false⟩ id n.unprojected.toNodeSettings =
        g.outerScope m id n.toNodeSettings := g.outerScope_unprojected m id n.toNodeSettings
    have hisolated : g.unprojected.isolated id n.unprojected.toNodeSettings =
        g.isolated id n.toNodeSettings := g.isolated_unprojected id n.toNodeSettings
    simp only [houter, hisolated, hown, hown']
    rfl

/-! ### Whole graphs -/

/-- Without its select list a statement is made of contributions without select items. -/
theorem bare_assemble (root : TableRef) (parts : List Part) :
    (assemble root parts).bare = assemble root (parts.map Part.bare) := by
  have hitems : (parts.map Part.bare).flatMap (·.items) = [] := by
    rw [List.flatMap_map]
    exact List.flatMap_eq_nil_iff.mpr fun _ _ => rfl
  unfold assemble
  rw [hitems]
  simp only [List.flatMap_map]
  rfl

theorem bare_statement_unprojected :
    (g.unprojected.statement ⟨m.physical, false⟩).map Statement.bare =
      (g.statement m).map Statement.bare := by
  have hparts : (g.walk.mapM (g.unprojected.part ⟨m.physical, false⟩)).map (List.map Part.bare) =
      (g.walk.mapM (g.part m)).map (List.map Part.bare) := by
    rw [map_mapM, map_mapM]
    exact mapM_congr fun id _ => g.bare_part_unprojected m id
  unfold statement
  rw [node_unprojected, walk_unprojected]
  cases g.node 0 with
  | error e => rfl
  | ok root =>
    refine map_bind_congr (x := root.requireSource) rfl fun source _ => ?_
    rcases error_or_ok_of_map_eq hparts with ⟨e, herror, herror'⟩ | ⟨parts, parts', h, h', hbare⟩
    · rw [herror, herror']
      rfl
    · rw [h, h']
      have hassembled := bare_assemble (source.tableRef root.aliasName m.physical)
      exact congrArg Except.ok ((hassembled parts).trans (hbare ▸ (hassembled parts').symm))

end Graph

/-- Two graphs that differ in what decides about their select lists, compiled in modes that
differ in whether geometry is shown, fail with the same error; or both have statements that
differ in the select list, and their texts differ in what stands between the keyword in front
of it and the tables, the filter and the order behind it, where all values are. -/
theorem Graph.compile_of_unprojected {g g' : Graph} {m m' : Mode}
    (hg : g.unprojected = g'.unprojected) (hm : m.physical = m'.physical) :
    (∃ e, g.compile m = .error e ∧ g'.compile m' = .error e) ∨
      ∃ words q items',
        let s : Spelling := ⟨words, g.environment.geometry⟩
        vocabulary g.environment.dialect = .ok words ∧
          g.statement m = .ok q ∧ g'.statement m' = .ok (q.selecting items') ∧
          g.compile m = .ok ⟨words .select ++ " " ++ renderItems s q.items ++ (q.tail s).sql,
            (q.tail s).values⟩ ∧
          g'.compile m' = .ok ⟨words .select ++ " " ++ renderItems s items' ++ (q.tail s).sql,
            (q.tail s).values⟩ := by
  have henvironment : g'.environment = g.environment :=
    (congrArg Graph.environment hg).symm
  have hsize : g'.size = g.size := by
    rw [← g'.size_unprojected, ← hg, g.size_unprojected]
  have hbare : (g.statement m).map Statement.bare = (g'.statement m').map Statement.bare := by
    rw [← g.bare_statement_unprojected, ← g'.bare_statement_unprojected, hg, hm]
  unfold compile
  rw [henvironment, hsize]
  by_cases hempty : g.size = 0
  · rw [if_pos hempty, if_pos hempty]
    exact Or.inl ⟨_, rfl, rfl⟩
  · rw [if_neg hempty, if_neg hempty]
    cases hwords : vocabulary g.environment.dialect with
    | error e => exact Or.inl ⟨e, rfl, rfl⟩
    | ok words =>
      rcases error_or_ok_of_map_eq hbare with ⟨e, h, h'⟩ | ⟨q, q', h, h', hq⟩
      · rw [h, h']
        exact Or.inl ⟨e, rfl, rfl⟩
      · have hselecting := Statement.eq_selecting_of_bare_eq hq
        refine Or.inr ⟨words, q, q'.items, rfl, h, h'.trans (congrArg _ hselecting), ?_, ?_⟩
        · rw [h]
          exact congrArg Except.ok (q.render_eq_tail _)
        · rw [h', hselecting]
          exact congrArg Except.ok ((q.selecting q'.items).render_eq_tail _)

/-- The sample tree, asked for the places of the stalls and for their link columns. -/
def Farm.places : Graph :=
  let herd := (Graph.reverse .standard animal).push
    { stall with returned := true, showsLinkColumns := true, fields := some ["places"] }
    (some 0) admits_stall
  { herd.push score (some 0) admits_score with
    linkTable := Farm.graph.linkTable
    statuses := Farm.graph.statuses
    returnType := some 3 }

/-- The sample tree, and the same tree asked for its places, with geometry: behind the select
lists the texts agree. -/
theorem Graph.compile_of_unprojected_farm :
    Farm.graph.unprojected = Farm.places.unprojected ∧
      ∃ list list' tail values,
        Farm.graph.compile ⟨true, false⟩ = .ok ⟨"SELECT " ++ list ++ tail, values⟩ ∧
          Farm.places.compile ⟨true, true⟩ = .ok ⟨"SELECT " ++ list' ++ tail, values⟩ := by
  have hsame : Farm.graph.unprojected = Farm.places.unprojected := rfl
  have hmodes : (⟨true, false⟩ : Mode).physical = (⟨true, true⟩ : Mode).physical := rfl
  refine ⟨hsame, ?_⟩
  rcases compile_of_unprojected hsame hmodes with
    ⟨e, herror, -⟩ | ⟨words, q, items', hwords, -, -, h, h'⟩
  · cases herror
  · have hselect : words .select ++ " " = "SELECT " := by
      cases hwords
      rfl
    rw [hselect] at h h'
    exact ⟨_, _, _, _, h, h'⟩

end ObjectQuery.Query
