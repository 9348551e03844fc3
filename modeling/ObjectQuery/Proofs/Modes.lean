import ObjectQuery.Proofs.BindOrder
import ObjectQuery.Proofs.Compilable

/-!
# Modes

A mode changes the text of a compiled graph, never its bind values and never the error of a
graph that does not compile: views and physical tables are joined, filtered and looked up
alike, and no alias that an error shows depends on the mode.  So the values asked for after a
run of texts bind each of these texts, although only the mode of the last one is kept.

## Main Definitions

* `Context.Alike` — contexts in which the same nodes resolve
* `texts` — a run of texts, each in a mode of its own
* `Compiles` — the way in which graphs and nodes are asked for texts and values

## Main Statements

* `Condition.failAlike_resolve`, `Graph.failAlike_part` — errors do not depend on the mode
* `Graph.map_values_compile` — neither do the values
* `Compiles.snd_texts`, `Compiles.values_texts` — the texts of a run, and the values after it
* `compile_mode_irrelevant` — the values after a run bind every text of it
-/

namespace ObjectQuery.Query

open ObjectQuery.Sql ObjectQuery.Calendar ObjectQuery.Outcome

/-! ### Resolution -/

/-- Two contexts with the same link table; whether a criterion resolves depends on nothing
else. -/
def Context.Alike (cx cx' : Context) : Prop := cx.linkTable = cx'.linkTable

section Resolution

variable {cx cx' : Context} {scope scope' : Scope}

theorem failAlike_resolve_linkFilter (hcx : cx.Alike cx') (hs : scope.aliasName = scope'.aliasName)
    (near : LinkEnd) (f : LinkFilter) :
    FailAlike (f.resolve cx scope near) (f.resolve cx' scope' near) := by
  unfold LinkFilter.resolve
  rw [← hcx, ← hs]
  cases cx.linkTable with
  | none => exact FailAlike.error _
  | some table => exact FailAlike.ok _ _

mutual

/-- Under scopes of one alias a condition resolves with the same error, if any.  By recursion on
the condition: nested nodes get the same aliases, and all other leaves always resolve. -/
theorem Condition.failAlike_resolve (hcx : cx.Alike cx') :
    ∀ (c : Condition) {scope scope' : Scope}, scope.aliasName = scope'.aliasName →
      FailAlike (c.resolve cx scope) (c.resolve cx' scope')
  | .compare _ _ _, _, _, _ => FailAlike.ok _ _
  | .compareFields _ _ _, _, _, _ => FailAlike.ok _ _
  | .isNull _, _, _, _ => FailAlike.ok _ _
  | .between _ _ _, _, _, _ => FailAlike.ok _ _
  | .valueBetween _ _ _, _, _, _ => FailAlike.ok _ _
  | .touches _ _, _, _, _ => FailAlike.ok _ _
  | .inList _ _, _, _, _ => FailAlike.ok _ _
  | .freeText _ _, _, _, _ => FailAlike.ok _ _
  | .inSubquery _ query, scope, scope', hs => by
    rw [Condition.resolve, Condition.resolve, hs]
    exact (Node.failAlike_resolveNested hcx query _).map _ _
  | .linked near filter, _, _, hs => (failAlike_resolve_linkFilter hcx hs near filter).map _ _
  | .group members, _, _, hs => (Criterion.failAlike_resolveParts hcx members hs).map _ _

theorem Criterion.failAlike_resolve (hcx : cx.Alike cx') :
    ∀ (c : Criterion) {scope scope' : Scope}, scope.aliasName = scope'.aliasName →
      FailAlike (c.resolve cx scope) (c.resolve cx' scope')
  | ⟨condition, _, _⟩, _, _, hs => (Condition.failAlike_resolve hcx condition hs).map _ _

theorem Criterion.failAlike_resolveParts (hcx : cx.Alike cx') :
    ∀ (members : List Criterion) {scope scope' : Scope}, scope.aliasName = scope'.aliasName →
      FailAlike (Criterion.resolveParts cx scope members)
        (Criterion.resolveParts cx' scope' members)
  | [], _, _, _ => FailAlike.ok _ _
  | member :: rest, _, _, hs => by
    refine (Criterion.failAlike_resolve hcx member hs).bind fun _ _ _ _ => ?_
    exact (Criterion.failAlike_resolveParts hcx rest hs).bind fun _ _ _ _ => FailAlike.ok _ _

theorem Node.failAlike_resolveNested (hcx : cx.Alike cx') :
    ∀ (n : Node) (defaultAlias : String),
      FailAlike (n.resolveNested cx defaultAlias) (n.resolveNested cx' defaultAlias)
  | ⟨settings, predicate⟩, defaultAlias => by
    refine (FailAlike.refl settings.requireSource).bind fun _ _ _ _ => ?_
    refine (Criterion.failAlike_resolveOwn hcx settings predicate ?_).bind fun _ _ _ _ =>
      FailAlike.ok _ _
    rw [NodeSettings.aliasName_scope, NodeSettings.aliasName_scope]

theorem Criterion.failAlike_resolveOwn (hcx : cx.Alike cx') (settings : NodeSettings) :
    ∀ (predicate : Option Criterion) {scope scope' : Scope},
      scope.aliasName = scope'.aliasName →
      FailAlike (Criterion.resolveOwn cx scope settings predicate)
        (Criterion.resolveOwn cx' scope' settings predicate)
  | none, _, _, _ => FailAlike.ok _ _
  | some predicate, _, _, hs => (Criterion.failAlike_resolve hcx predicate hs).map _ _

end

end Resolution

/-! ### Graphs -/

/-- The select items of a node are found under every scope or under none. -/
theorem NodeSettings.failAlike_items (n : NodeSettings) (scope scope' : Scope)
    (geometry geometry' : Bool) :
    FailAlike (n.items scope geometry) (n.items scope' geometry') := by
  unfold NodeSettings.items
  cases n.fields with
  | some fields => exact FailAlike.ok _ _
  | none => exact (FailAlike.refl n.requireSource).map _ _

namespace Graph

variable (g : Graph) (m m' : Mode)

theorem failAlike_planJoin (id : Nat) (n : NodeSettings) :
    FailAlike (g.planJoin m id n) (g.planJoin m' id n) := by
  unfold planJoin
  cases g.partner? id with
  | none => exact FailAlike.ok _ _
  | some partner =>
    refine (FailAlike.refl (g.node partner)).bind fun previous previous' hp hp' => ?_
    refine (FailAlike.refl (g.node (g.direction.linkHolder id partner))).bind
      fun holder holder' hh hh' => ?_
    -- Both modes find the same partner and the same link; only scopes differ from here on.
    obtain rfl : previous = previous' := Except.ok.inj (hp.symm.trans hp')
    obtain rfl : holder = holder' := Except.ok.inj (hh.symm.trans hh')
    cases holder.link with
    | none => exact FailAlike.error _
    | some link =>
      refine (FailAlike.refl link.plan).bind fun plan plan' hplan hplan' => ?_
      obtain rfl : plan = plan' := Except.ok.inj (hplan.symm.trans hplan')
      exact (FailAlike.refl (g.linkRow plan n previous.aliasName)).bind fun _ _ _ _ =>
        FailAlike.ok _ _

/-- The link row that a node answers for is looked up without the mode. -/
theorem failAlike_heldRow (id : Nat) (n : NodeSettings) (join join' : Option PlannedJoin) :
    FailAlike (g.heldRow id n join) (g.heldRow id n join') := by
  unfold heldRow
  cases g.direction with
  | forward => exact FailAlike.refl _
  | reverse => exact FailAlike.ok _ _

/-- Every node is visited with the same error, if any. -/
theorem failAlike_part (id : Nat) : FailAlike (g.part m id) (g.part m' id) := by
  unfold part
  refine (FailAlike.refl (g.node id)).bind fun n n' hn hn' => ?_
  obtain rfl : n = n' := Except.ok.inj (hn.symm.trans hn')
  refine (FailAlike.refl n.requireSource).bind fun _ _ _ _ => ?_
  refine (g.failAlike_planJoin m m' id n.toNodeSettings).bind fun join join' _ _ => ?_
  refine (g.failAlike_heldRow id n.toNodeSettings join join').bind fun _ _ _ _ => ?_
  refine (Criterion.failAlike_resolveOwn (show (g.context m).Alike (g.context m') from rfl)
    n.toNodeSettings n.predicate ?_).bind fun _ _ _ _ => ?_
  · rw [NodeSettings.aliasName_scope, NodeSettings.aliasName_scope]
  · exact (n.failAlike_items _ _ _ _).bind fun _ _ _ _ => FailAlike.ok _ _

theorem failAlike_statement : FailAlike (g.statement m) (g.statement m') := by
  unfold statement
  refine (FailAlike.refl (g.node 0)).bind fun root root' hroot hroot' => ?_
  obtain rfl : root = root' := Except.ok.inj (hroot.symm.trans hroot')
  refine (FailAlike.refl root.requireSource).bind fun _ _ _ _ => ?_
  exact (FailAlike.mapM fun id _ => g.failAlike_part m m' id).bind fun _ _ _ _ =>
    FailAlike.ok _ _

/-- A graph that does not compile fails with the same error in every mode. -/
theorem failAlike_compile : FailAlike (g.compile m) (g.compile m') := by
  unfold compile
  split
  · exact FailAlike.error _
  · refine (FailAlike.refl (vocabulary g.environment.dialect)).bind fun _ _ _ _ => ?_
    exact (g.failAlike_statement m m').bind fun _ _ _ _ => FailAlike.ok _ _

/-- The values of a statement are those of the nodes, in which no mode occurs. -/
theorem values_statement {q : Statement} (hpos : 0 < g.size) (hq : g.statement m = .ok q) :
    q.values g.environment.geometry =
      g.walk.flatMap g.tableValues ++ g.walk.flatMap g.filterValues := by
  obtain ⟨root, source, parts, hroot, hsource, hparts, rfl⟩ := statement_eq_ok_iff.mp hq
  rw [Statement.values, values_tables hpos hroot hsource hparts, values_filter hparts]

/-- Compiled in two modes, a graph fails with the same error or has the same values. -/
theorem map_values_compile :
    (g.compile m).map (·.values) = (g.compile m').map (·.values) := by
  refine (g.failAlike_compile m m').map_eq fun f f' hf hf' => ?_
  obtain ⟨hpos, words, q, -, hq, rfl⟩ := compile_eq_ok_iff.mp hf
  obtain ⟨-, words', q', -, hq', rfl⟩ := compile_eq_ok_iff.mp hf'
  rw [Statement.values_render, Statement.values_render, g.values_statement m hpos hq,
    g.values_statement m' hpos hq']

/-! ### The mode of the last text -/

/-- The mode of the last text is not read by a compilation. -/
theorem compile_lastMode : { g with lastMode := m }.compile m' = g.compile m' := by
  have hwalk : { g with lastMode := m }.walk = g.walk := walk_congr rfl fun _ => rfl
  have hstatement : { g with lastMode := m }.statement m' = g.statement m' := by
    unfold statement
    rw [hwalk]
    rfl
  unfold compile
  rw [hstatement]
  rfl

end Graph

/-- Neither is that of a node that is compiled alone. -/
theorem Node.compileIn_lastMode (n : Node) (environment : Environment) (m m' : Mode) :
    { n with lastMode := m }.compileIn environment m' = n.compileIn environment m' := by
  cases n with
  | mk settings predicate => cases predicate <;> rfl

/-! ### Runs of texts -/

/-- Asks for texts one after the other, each in a mode of its own. -/
def texts {α β : Type} (next : α → Mode → α × β) (a : α) : List Mode → α × List β
  | [] => (a, [])
  | m :: modes =>
    let (b, text) := next a m
    let (last, rest) := texts next b modes
    (last, text :: rest)

/-- What is compiled, and asked for its text and its values, in the way of graphs and nodes:
asking for a text keeps only its mode, and the values are those of the mode kept. -/
structure Compiles {α : Type} (compile : α → Mode → Except CompileError Fragment)
    (next : α → Mode → α × Except CompileError String)
    (values : α → Except CompileError (List Value)) : Prop where
  text : ∀ a m, (next a m).2 = (compile a m).map (·.sql)
  kept : ∀ a m m', compile (next a m).1 m' = compile a m'
  values : ∀ a m, values (next a m).1 = (compile a m).map (·.values)
  modes : ∀ a m m', (compile a m).map (·.values) = (compile a m').map (·.values)

namespace Compiles

variable {α : Type} {compile : α → Mode → Except CompileError Fragment}
  {next : α → Mode → α × Except CompileError String}
  {values : α → Except CompileError (List Value)}

/-- A run gives the text of each of its modes. -/
theorem snd_texts (h : Compiles compile next values) (a : α) (modes : List Mode) :
    (texts next a modes).2 = modes.map fun m => (compile a m).map (·.sql) := by
  induction modes generalizing a with
  | nil => rfl
  | cons m modes ih =>
    show (next a m).2 :: (texts next (next a m).1 modes).2 = _
    rw [h.text, ih, List.map_cons]
    simp only [h.kept]

/-- After a run that asked for a text at all, the values are those of any mode. -/
theorem values_texts (h : Compiles compile next values) (a : α) {modes : List Mode}
    (hne : modes ≠ []) (m : Mode) :
    values (texts next a modes).1 = (compile a m).map (·.values) := by
  induction modes generalizing a with
  | nil => exact absurd rfl hne
  | cons m' modes ih =>
    show values (texts next (next a m').1 modes).1 = _
    cases modes with
    | nil => exact (h.values a m').trans (h.modes a m' m)
    | cons m'' modes => rw [ih _ (List.cons_ne_nil _ _), h.kept]

/-- The values after a run bind every text of it. -/
theorem binds (h : Compiles compile next values) {a : α} {modes : List Mode} {k : Nat}
    {sql : String} (hk : (texts next a modes).2[k]? = some (.ok sql)) :
    ∃ m f, modes[k]? = some m ∧ compile a m = .ok f ∧ f.sql = sql ∧
      values (texts next a modes).1 = .ok f.values := by
  rw [h.snd_texts, List.getElem?_map, Option.map_eq_some_iff] at hk
  obtain ⟨m, hm, htext⟩ := hk
  obtain ⟨f, hf, rfl⟩ := map_eq_ok_iff.mp htext
  have hne : modes ≠ [] := by
    rintro rfl
    cases hm
  refine ⟨m, f, hm, hf, rfl, ?_⟩
  rw [h.values_texts a hne m, hf]
  rfl

end Compiles

/-- Graphs are asked for their texts and values in this way. -/
theorem Graph.compiles : Compiles Graph.compile Graph.compileText Graph.values where
  text _ _ := rfl
  kept g m m' := g.compile_lastMode m m'
  values g m := congrArg _ (g.compile_lastMode m m)
  modes g m m' := g.map_values_compile m m'

/-- And so are nodes that are compiled alone. -/
theorem Node.compiles :
    Compiles (fun n m => n.compileIn n.ownEnvironment m) Node.compileText Node.values where
  text _ _ := rfl
  kept n m m' := n.compileIn_lastMode n.ownEnvironment m m'
  values n m := congrArg _ (n.compileIn_lastMode n.ownEnvironment m m)
  modes n m m' := (n.alone n.ownEnvironment).map_values_compile m m'

/-- Compiled in any two modes, a graph or a node fails with the same error or has the same
values; and the values asked for after a run of texts bind each of the texts. -/
theorem compile_mode_irrelevant :
    (∀ (g : Graph) (m m' : Mode),
        (g.compile m).map (·.values) = (g.compile m').map (·.values)) ∧
      (∀ (g : Graph) (modes : List Mode) (k : Nat) (sql : String),
        (texts Graph.compileText g modes).2[k]? = some (.ok sql) →
          ∃ m f, modes[k]? = some m ∧ g.compile m = .ok f ∧ f.sql = sql ∧
            (texts Graph.compileText g modes).1.values = .ok f.values) ∧
      (∀ (n : Node) (environment : Environment) (m m' : Mode),
        (n.compileIn environment m).map (·.values) =
          (n.compileIn environment m').map (·.values)) ∧
      ∀ (n : Node) (modes : List Mode) (k : Nat) (sql : String),
        (texts Node.compileText n modes).2[k]? = some (.ok sql) →
          ∃ m f, modes[k]? = some m ∧ n.compileIn n.ownEnvironment m = .ok f ∧ f.sql = sql ∧
            (texts Node.compileText n modes).1.values = .ok f.values := by
  refine ⟨Graph.map_values_compile, ?_, ?_, ?_⟩
  · intro g modes k sql hk
    exact Graph.compiles.binds hk
  · intro n environment m m'
    exact (n.alone environment).map_values_compile m m'
  · intro n modes k sql hk
    exact Node.compiles.binds hk

/-- The sample tree and its first node, asked for a text of views and then for one of physical
tables with geometry: the values left at the end bind the first text. -/
theorem compile_mode_irrelevant_farm :
    (∃ sql f, (texts Graph.compileText Farm.graph [{}, ⟨true, true⟩]).2[0]? = some (.ok sql) ∧
        Farm.graph.compile {} = .ok f ∧ f.sql = sql ∧
        (texts Graph.compileText Farm.graph [{}, ⟨true, true⟩]).1.values = .ok f.values) ∧
      ∃ sql f, (texts Node.compileText Farm.animal [{}, ⟨true, true⟩]).2[0]? = some (.ok sql) ∧
        Farm.animal.compileIn Farm.animal.ownEnvironment {} = .ok f ∧ f.sql = sql ∧
        (texts Node.compileText Farm.animal [{}, ⟨true, true⟩]).1.values = .ok f.values := by
  obtain ⟨-, hgraph, -, hnode⟩ := compile_mode_irrelevant
  constructor
  · obtain ⟨m, f, hm, hf, hsql, hvalues⟩ := hgraph Farm.graph [{}, ⟨true, true⟩] 0 _ rfl
    cases hm
    exact ⟨_, f, rfl, hf, hsql, hvalues⟩
  · obtain ⟨m, f, hm, hf, hsql, hvalues⟩ := hnode Farm.animal [{}, ⟨true, true⟩] 0 _ rfl
    cases hm
    exact ⟨_, f, rfl, hf, hsql, hvalues⟩

end ObjectQuery.Query
