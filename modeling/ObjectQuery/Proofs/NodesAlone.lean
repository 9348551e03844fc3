import ObjectQuery.Proofs.Compilable
import ObjectQuery.Proofs.FragmentAlgebra

/-!
# Nodes inside conditions and nodes alone

A node inside a condition is written by a select of its own, a node alone by the chain that holds
nothing else.  Both select from the same tables and keep the same rows: the table reference and
the condition behind `WHERE` are the same fragments, and no value is anywhere else.

## Main Definitions

* `Condition.compileIn` — the text and values of a condition
* `Node.standing` — a node that is compiled alone with given link settings
* `Node.single` — the statement of a node without joins
* `Sql.whereClause` — a filter behind its keyword

## Main Statements

* `Node.resolveNested_eq_ok_iff` — the select of a node inside a condition
* `Node.statement_alone_eq_ok_iff` — the statement of a node alone
* `Subselect.render_mk`, `Statement.render_single` — where the two differ
* `Node.nested_iff_alone` — the node inside a condition filters as it does alone
-/

namespace ObjectQuery.Sql

open Fragment (text)

/-- A filter behind its keyword; nothing if there is none. -/
def whereClause (s : Spelling) (lead : String) (filter : Option Expr) : Fragment :=
  filter.elim Fragment.empty fun e => text (lead ++ s.words .whereFilter ++ " ") ++ e.render s

/-- What leads to a filter has no values. -/
theorem values_whereClause {s : Spelling} (lead lead' : String) (filter : Option Expr) :
    (whereClause s lead filter).values = (whereClause s lead' filter).values := by
  cases filter <;> rfl

variable {s : Spelling} {source : TableRef} {filter : Option Expr}

/-- The select behind `IN` is written on one line. -/
theorem Subselect.render_mk (columns : Columns) :
    (Subselect.mk columns source filter).render s =
      text (s.words .select ++ " " ++ columns.render s.words ++ " " ++ s.words .fromTables ++ " ")
        ++ source.render s.words ++ whereClause s " " filter := by
  cases filter with
  | none => exact (Fragment.append_empty _).symm
  | some e =>
    rw [render, whereClause, Option.elim_some]
    simp only [Fragment.append_assoc]

/-- A statement of one table is written on several lines. -/
theorem Statement.render_single {q : Statement} (hroot : q.root = source) (hjoins : q.joins = [])
    (hfilter : q.filter = filter.map .last) :
    q.render s =
      text (s.words .select ++ " " ++ renderItems s q.items ++ "\n" ++ s.words .fromTables ++ " ")
        ++ source.render s.words ++ whereClause s "\n" filter ++ text (q.renderOrder s) := by
  have htables : q.renderTables s = source.render s.words := by
    rw [renderTables, hroot, hjoins]
    rfl
  have hwhere : q.renderFilter s = whereClause s "\n" filter := by
    rw [renderFilter, hfilter]
    cases filter <;> rfl
  rw [render, htables, hwhere]

end ObjectQuery.Sql

namespace ObjectQuery.Query

open ObjectQuery.Sql ObjectQuery.Outcome
open Fragment (text)

/-- The text and values of a condition on the rows of a node; nothing for an empty group. -/
def Condition.compileIn (c : Condition) (environment : Environment)
    (linkTable : Option LinkTable) (statuses : List String) (mode : Mode) (scope : Scope) :
    Except CompileError (Option Fragment) := do
  let words ← vocabulary environment.dialect
  let resolved ← c.resolve ⟨environment.maxDate, mode.physical, linkTable, statuses⟩ scope
  return resolved.map (Expr.render ⟨words, environment.geometry⟩)

namespace Node

/-- The node under an alias, with the link settings of a graph for itself. -/
def standing (n : Node) (aliasName : String) (linkTable : Option LinkTable)
    (statuses : List String) : Node :=
  { n with
    givenAlias := some aliasName
    standalone := { n.standalone with linkTable, statuses } }

variable {n : Node}

/-! ### Inside a condition -/

/-- A node inside a condition is selected from its source, under its own alias or a default one,
and filtered by what its rows have to meet. -/
theorem resolveNested_eq_ok_iff {cx : Context} {defaultAlias : String} {select : Subselect} :
    n.resolveNested cx defaultAlias = .ok select ↔
      ∃ source predicate,
        let scope := n.scope (n.givenAlias.getD defaultAlias) cx.physical
        n.source = some source ∧ n.resolvePredicate cx scope = .ok predicate ∧
          select = .mk (n.nestedColumns scope source)
            (source.tableRef (n.givenAlias.getD defaultAlias) cx.physical) predicate := by
  obtain ⟨settings, predicate⟩ := n
  rw [resolveNested]
  simp only [bind_eq_ok_iff, NodeSettings.requireSource_eq_ok_iff]
  constructor
  · rintro ⟨source, hsource, filter, hfilter, h⟩
    cases h
    exact ⟨source, filter, hsource, hfilter, rfl⟩
  · rintro ⟨source, filter, hsource, hfilter, rfl⟩
    exact ⟨source, hsource, filter, hfilter, rfl⟩

/-! ### Alone -/

/-- The node at the place that it has in a chain of its own. -/
def first (n : Node) : Node := { n with position := 0 }

/-- The statement of a node without joins. -/
def single (n : Node) (mode : Mode) (source : Source) (predicate : Option Expr)
    (items : List SelectItem) : Statement :=
  let scope := n.scope n.aliasName mode.physical
  { items
    root := source.tableRef n.aliasName mode.physical
    joins := []
    filter := predicate.map .last
    order := n.sort.map fun field => ⟨scope.column field.field, field.descending⟩ }

section Alone

variable {environment : Environment} {mode : Mode}

theorem environment_alone : (n.alone environment).environment = environment := rfl

theorem size_alone : (n.alone environment).size = 1 := rfl

/-- The node of a chain of one node is shown, whether it is marked or not. -/
theorem projected_alone : (n.alone environment).projected 0 = true := by
  cases h : n.returned <;>
    simp [alone, Graph.push, Graph.forward, Graph.projected, Graph.anyReturned, Graph.pinned?,
      Graph.node?, h]

/-- What is looked up for a node alone: it has no join and no link row. -/
theorem visits_alone_iff {v : Visit} :
    (n.alone environment).Visits mode 0 v ↔ ∃ source predicate items,
      n.first.requireSource = .ok source ∧
        n.first.resolvePredicate ((n.alone environment).context mode)
          (n.first.scope n.first.aliasName mode.physical) = .ok predicate ∧
        n.first.items (n.first.scope n.first.aliasName mode.physical) mode.geometry = .ok items ∧
        v = ⟨n.first, source, none, none, predicate, items⟩ := by
  constructor
  · intro hv
    obtain ⟨node, source, join, held, predicate, items⟩ := v
    cases hv.node
    cases hv.join
    cases hv.held
    exact ⟨source, predicate, items, hv.source, hv.predicate, hv.own, rfl⟩
  · rintro ⟨source, predicate, items, hsource, hpredicate, hitems, rfl⟩
    exact ⟨rfl, hsource, rfl, rfl, hpredicate, hitems⟩

/-- A node alone contributes all of its statement but the table. -/
theorem assemble_alone (source : Source) (predicate : Option Expr) (items : List SelectItem) :
    Graph.assemble (source.tableRef n.first.aliasName mode.physical)
        [Visit.part ⟨n.first, source, none, none, predicate, items⟩ (n.alone environment) mode 0] =
      n.first.single mode source predicate items := by
  let scope := n.first.scope n.first.aliasName mode.physical
  -- No join, and at most one filter with nothing behind it to connect to.
  have hpart : Visit.part ⟨n.first, source, none, none, predicate, items⟩ (n.alone environment)
      mode 0 = ⟨[], predicate.toList.map fun e => (e, n.first.connectiveAfter), items,
        n.sort.map fun field => ⟨scope.column field.field, field.descending⟩⟩ := by
    have hitems : items ++ [] = items := List.append_nil items
    unfold Visit.part
    rw [projected_alone, if_pos rfl]
    cases predicate with
    | none => exact congrArg (Part.mk [] [] · _) hitems
    | some e => exact congrArg (Part.mk [] [(e, _)] · _) hitems
  rw [hpart]
  cases predicate with
  | none => simp [Graph.assemble, single, Chain.ofParts?, scope, first]
  | some e => simp [Graph.assemble, single, Chain.ofParts?, scope, first]

/-- A node alone is selected from its source and filtered by what its rows have to meet. -/
theorem statement_alone_eq_ok_iff {q : Statement} :
    (n.alone environment).statement mode = .ok q ↔
      ∃ source predicate items, n.source = some source ∧
        n.first.resolvePredicate ((n.alone environment).context mode)
          (n.first.scope n.first.aliasName mode.physical) = .ok predicate ∧
        n.first.items (n.first.scope n.first.aliasName mode.physical) mode.geometry = .ok items ∧
        q = n.first.single mode source predicate items := by
  rw [Graph.statement_eq_ok_iff]
  simp only [mapM_eq_ok_iff]
  show (∃ root source parts, _ ∧ _ ∧ List.Forall₂ _ [0] parts ∧ _) ↔ _
  constructor
  · rintro ⟨root, source, parts, hroot, hsource, hparts, rfl⟩
    cases hroot
    obtain ⟨p, rest, hp, hrest, rfl⟩ := List.forall₂_cons_left_iff.mp hparts
    cases hrest
    obtain ⟨v, hv, rfl⟩ := Graph.part_eq_ok_iff.mp hp
    obtain ⟨found, predicate, items, hfound, hpredicate, hitems, rfl⟩ := visits_alone_iff.mp hv
    cases hsource.symm.trans hfound
    have hown := NodeSettings.requireSource_eq_ok_iff.mp hsource
    exact ⟨source, predicate, items, hown, hpredicate, hitems, assemble_alone _ _ _⟩
  · rintro ⟨source, predicate, items, hown, hpredicate, hitems, rfl⟩
    have hsource : n.first.requireSource = .ok source :=
      NodeSettings.requireSource_eq_ok_iff.mpr hown
    have hv := visits_alone_iff.mpr ⟨source, predicate, items, hsource, hpredicate, hitems, rfl⟩
    exact ⟨n.first, source, _, rfl, hsource, .cons (Graph.part_eq_ok_iff.mpr ⟨_, hv, rfl⟩) .nil,
      (assemble_alone _ _ _).symm⟩

end Alone

/-! ### Both -/

section Both

variable {environment : Environment} {linkTable : Option LinkTable} {statuses : List String}
  {mode : Mode}

/-- A condition on the select of a node is written if the dialect has all keywords, the node has
a source, and what its rows have to meet resolves. -/
theorem compileIn_inSubquery_eq_ok_iff {outer : Scope} {field : String} {r : Option Fragment} :
    (Condition.inSubquery field n).compileIn environment linkTable statuses mode outer = .ok r ↔
      ∃ words source predicate,
        let s : Spelling := ⟨words, environment.geometry⟩
        let aliasName := n.givenAlias.getD (outer.aliasName ++ "_sq")
        let scope := n.scope aliasName mode.physical
        vocabulary environment.dialect = .ok words ∧ n.source = some source ∧
          n.resolvePredicate ⟨environment.maxDate, mode.physical, linkTable, statuses⟩ scope =
            .ok predicate ∧
          r = some (text ((outer.column field).render words ++ " " ++ words .membership ++ " (") ++
            (text (words .select ++ " " ++ (n.nestedColumns scope source).render words ++ " " ++
                words .fromTables ++ " ") ++
              (source.tableRef aliasName mode.physical).render words ++
              whereClause s " " predicate) ++ text ")") := by
  simp only [Condition.compileIn, Condition.resolve, bind_eq_ok_iff, map_eq_ok_iff,
    resolveNested_eq_ok_iff]
  constructor
  · rintro ⟨words, hwords, _, ⟨_, ⟨source, predicate, hsource, hpredicate, rfl⟩, rfl⟩, h⟩
    cases h
    refine ⟨words, source, predicate, hwords, hsource, hpredicate, ?_⟩
    rw [Option.map_some, Expr.render, Subselect.render_mk]
  · rintro ⟨words, source, predicate, hwords, hsource, hpredicate, rfl⟩
    refine ⟨words, hwords, _, ⟨_, ⟨source, predicate, hsource, hpredicate, rfl⟩, rfl⟩, ?_⟩
    rw [Option.map_some, Expr.render, Subselect.render_mk]
    rfl

/-- Where a node stands does not matter for its rows. -/
theorem resolvePredicate_standing (aliasName : String) (cx : Context) (scope : Scope) :
    (n.standing aliasName linkTable statuses).first.resolvePredicate cx scope =
      n.resolvePredicate cx scope := by
  obtain ⟨settings, predicate⟩ := n
  cases predicate <;> rfl

variable {aliasName : String}

/-- The statement of a node alone has one table, and what the rows of the node have to meet as
its filter. -/
theorem statement_standing {q : Statement}
    (h : ((n.standing aliasName linkTable statuses).alone environment).statement mode = .ok q) :
    ∃ source predicate, n.source = some source ∧
      n.resolvePredicate ⟨environment.maxDate, mode.physical, linkTable, statuses⟩
        (n.scope aliasName mode.physical) = .ok predicate ∧
      q.root = source.tableRef aliasName mode.physical ∧ q.joins = [] ∧
      q.filter = predicate.map .last := by
  obtain ⟨source, predicate, items, hsource, hpredicate, -, rfl⟩ := statement_alone_eq_ok_iff.mp h
  rw [resolvePredicate_standing] at hpredicate
  exact ⟨source, predicate, hsource, hpredicate, rfl, rfl, rfl⟩

theorem exists_statement_standing {source : Source} {predicate : Option Expr}
    (hsource : n.source = some source)
    (hpredicate : n.resolvePredicate ⟨environment.maxDate, mode.physical, linkTable, statuses⟩
      (n.scope aliasName mode.physical) = .ok predicate) :
    ∃ q, ((n.standing aliasName linkTable statuses).alone environment).statement mode = .ok q := by
  let m := (n.standing aliasName linkTable statuses).first
  have hsome : m.source.isSome = true := by
    show n.source.isSome = true
    rw [hsource]
    rfl
  obtain ⟨items, hitems⟩ := m.toNodeSettings.exists_items hsome
    (m.scope m.aliasName mode.physical) mode.geometry
  rw [← resolvePredicate_standing aliasName] at hpredicate
  exact ⟨_, statement_alone_eq_ok_iff.mpr ⟨source, predicate, items, hsource, hpredicate, hitems,
    rfl⟩⟩

/-- A node alone is written if the dialect has all keywords, the node has a source, and what its
rows have to meet resolves. -/
theorem compileIn_standing_eq_ok_iff {f : Fragment} :
    (n.standing aliasName linkTable statuses).compileIn environment mode = .ok f ↔
      ∃ words source predicate q,
        let s : Spelling := ⟨words, environment.geometry⟩
        vocabulary environment.dialect = .ok words ∧ n.source = some source ∧
          n.resolvePredicate ⟨environment.maxDate, mode.physical, linkTable, statuses⟩
            (n.scope aliasName mode.physical) = .ok predicate ∧
          ((n.standing aliasName linkTable statuses).alone environment).statement mode = .ok q ∧
          f = text (words .select ++ " " ++ renderItems s q.items ++ "\n" ++ words .fromTables ++
            " ") ++ (source.tableRef aliasName mode.physical).render words ++
              whereClause s "\n" predicate ++ text (q.renderOrder s) := by
  rw [compileIn, Graph.compile_eq_ok_iff, environment_alone, size_alone]
  constructor
  · rintro ⟨-, words, q, hwords, hq, rfl⟩
    obtain ⟨source, predicate, hsource, hpredicate, hroot, hjoins, hfilter⟩ :=
      statement_standing hq
    exact ⟨words, source, predicate, q, hwords, hsource, hpredicate, hq,
      Statement.render_single hroot hjoins hfilter⟩
  · rintro ⟨words, source, predicate, q, hwords, hsource, hpredicate, hq, rfl⟩
    obtain ⟨source', predicate', hsource', hpredicate', hroot, hjoins, hfilter⟩ :=
      statement_standing hq
    cases hsource.symm.trans hsource'
    cases hpredicate.symm.trans hpredicate'
    have hrender :=
      Statement.render_single (s := ⟨words, environment.geometry⟩) hroot hjoins hfilter
    exact ⟨Nat.zero_lt_one, words, q, hwords, hq, hrender.symm⟩

end Both

/-- A node inside a condition, under its own alias or the default one, and the same node alone
under that alias with the link settings of the graph: one is written exactly when the other is.
Then both read the same tables and have the same filter or none, with the same values. -/
theorem nested_iff_alone (n : Node) (environment : Environment) (linkTable : Option LinkTable)
    (statuses : List String) (mode : Mode) (outer : Scope) (field : String) :
    let aliasName := n.givenAlias.getD (outer.aliasName ++ "_sq")
    let cx : Context := ⟨environment.maxDate, mode.physical, linkTable, statuses⟩
    let nested := (Condition.inSubquery field n).compileIn environment linkTable statuses mode outer
    let alone := n.standing aliasName linkTable statuses
    ((∃ r, nested = .ok r) ↔ ∃ f, alone.compileIn environment mode = .ok f) ∧
      ∀ r f, nested = .ok r → alone.compileIn environment mode = .ok f →
        ∃ words source predicate q,
          let s : Spelling := ⟨words, environment.geometry⟩
          let scope := n.scope aliasName mode.physical
          let table := (source.tableRef aliasName mode.physical).render words
          let columns := (n.nestedColumns scope source).render words
          vocabulary environment.dialect = .ok words ∧ n.source = some source ∧
            n.resolvePredicate cx scope = .ok predicate ∧
            (alone.alone environment).statement mode = .ok q ∧
            r = some (
              text ((outer.column field).render words ++ " " ++ words .membership ++ " (") ++
                (text (words .select ++ " " ++ columns ++ " " ++ words .fromTables ++ " ") ++
                  table ++ whereClause s " " predicate) ++ text ")") ∧
            f = text (words .select ++ " " ++ renderItems s q.items ++ "\n" ++
                words .fromTables ++ " ") ++
              table ++ whereClause s "\n" predicate ++ text (q.renderOrder s) ∧
            r.map (·.values) = some f.values := by
  intro aliasName cx nested alone
  refine ⟨?_, fun r f hr hf => ?_⟩
  · constructor
    · rintro ⟨r, hr⟩
      obtain ⟨words, source, predicate, hwords, hsource, hpredicate, -⟩ :=
        compileIn_inSubquery_eq_ok_iff.mp hr
      obtain ⟨q, hq⟩ := exists_statement_standing hsource hpredicate
      exact ⟨_, compileIn_standing_eq_ok_iff.mpr
        ⟨words, source, predicate, q, hwords, hsource, hpredicate, hq, rfl⟩⟩
    · rintro ⟨f, hf⟩
      obtain ⟨words, source, predicate, -, hwords, hsource, hpredicate, -⟩ :=
        compileIn_standing_eq_ok_iff.mp hf
      exact ⟨_, compileIn_inSubquery_eq_ok_iff.mpr
        ⟨words, source, predicate, hwords, hsource, hpredicate, rfl⟩⟩
  · obtain ⟨words, source, predicate, hwords, hsource, hpredicate, rfl⟩ :=
      compileIn_inSubquery_eq_ok_iff.mp hr
    obtain ⟨words', source', predicate', q, hwords', hsource', hpredicate', hq, rfl⟩ :=
      compileIn_standing_eq_ok_iff.mp hf
    cases hwords.symm.trans hwords'
    cases hsource.symm.trans hsource'
    cases hpredicate.symm.trans hpredicate'
    refine ⟨words, source, predicate, q, hwords, hsource, hpredicate, hq, rfl, rfl, ?_⟩
    have hwhere := values_whereClause (s := ⟨words, environment.geometry⟩) " " "\n" predicate
    simp [hwhere, aliasName]

/-- The sample animals inside a condition on the first node, and alone. -/
theorem nested_iff_alone_farm :
    ∃ r f, (Condition.inSubquery "object_id" Farm.animal).compileIn .standard none [] {}
        (.uniform "t0") = .ok (some r) ∧
      (Farm.animal.standing "t0_sq" none []).compileIn .standard {} = .ok f ∧
      r.values = f.values := by
  obtain ⟨hiff, hboth⟩ :=
    nested_iff_alone Farm.animal .standard none [] {} (.uniform "t0") "object_id"
  obtain ⟨r, hr⟩ : ∃ r, (Condition.inSubquery "object_id" Farm.animal).compileIn .standard none []
      {} (.uniform "t0") = .ok (some r) := ⟨_, rfl⟩
  obtain ⟨f, hf⟩ := hiff.mp ⟨_, hr⟩
  obtain ⟨_, _, _, _, -, -, -, -, -, -, hvalues⟩ := hboth (some r) f hr hf
  exact ⟨r, f, hr, hf, Option.some.inj hvalues⟩

end Node

end ObjectQuery.Query
