import ObjectQuery.Proofs.FragmentAlgebra
import ObjectQuery.Proofs.Visit

/-!
# Isolated nodes

The conditions of a left-joined node of a tree stay inside its derived table.  Two graphs that
differ in nothing but how the rows of such a node are filtered compile to texts and values
that differ only between the tables of the derived table and its closing parenthesis.

## Main Definitions

* `RowFilter`, `Node.filteredBy` — all that decides which rows of a node count
* `Graph.Refiltered` — graphs that differ in the row filter of one node
* `DerivedTable.opening`, `filterClause`, `closing` — a derived table around its conditions

## Main Statements

* `Statement.exists_render_joined` — the text of a statement around one of its joins
* `Graph.Refiltered.part_eq`, `Graph.Refiltered.part_of_isolated` — the parts of the other
  nodes agree, and so does that of the node outside its derived table
* `Graph.compile_filteredBy` — the conditions of an isolated node stay inside
-/

namespace ObjectQuery.Sql

open Fragment (text join)

/-! ### Around a derived table -/

/-- The derived table with other conditions inside. -/
def DerivedTable.filtered (t : DerivedTable) (filters : List Expr) : DerivedTable :=
  { t with filters }

/-- A derived table up to its conditions, on a line of its own. -/
def DerivedTable.opening (s : Spelling) (t : DerivedTable) : Fragment :=
  text ("\n" ++ s.words .leftJoin ++ " (") ++ (t.filtered []).render s

/-- The conditions at the end of a derived table. -/
def filterClause (s : Spelling) (filters : List Expr) : Fragment :=
  if filters.isEmpty then Fragment.empty
  else text (" " ++ s.words .whereFilter ++ " ") ++ renderAll s filters

/-- The end of a derived table, up to the conditions of its join. -/
def closing (s : Spelling) (aliasName : String) : Fragment :=
  text (") " ++ aliasName ++ " " ++ s.words .on ++ " ")

/-- The conditions of a derived table stand behind everything else inside it. -/
theorem DerivedTable.render_filtered (s : Spelling) (t : DerivedTable) (filters : List Expr) :
    (t.filtered filters).render s = (t.filtered []).render s ++ filterClause s filters := by
  unfold DerivedTable.render filterClause
  cases filters with
  | nil => exact (Fragment.append_empty _).symm
  | cons filter filters => exact Fragment.append_assoc _ _ _

/-- A join of a derived table, around the conditions inside. -/
theorem Join.render_derived (s : Spelling) (t : DerivedTable) (filters : List Expr)
    (aliasName : String) (on : List Expr) :
    (Join.derived (t.filtered filters) aliasName on).render s =
      t.opening s ++ filterClause s filters ++ (closing s aliasName ++ renderAll s on) := by
  rw [Join.render, DerivedTable.render_filtered, DerivedTable.opening, closing]
  simp only [Fragment.append_assoc]

/-- The statement with other joins. -/
def Statement.joined (q : Statement) (joins : List Join) : Statement := { q with joins }

/-- What stands around one join of a statement does not depend on the join. -/
theorem Statement.exists_render_joined (s : Spelling) (q : Statement) (before after : List Join) :
    ∃ pre post : Fragment, ∀ j : Join,
      (q.joined (before ++ j :: after)).render s = pre ++ j.render s ++ post := by
  let front := join "" (q.root.render s.words :: before.map (Join.render s))
  let back := join "" (after.map (Join.render s))
  refine ⟨text (s.words .select ++ " " ++ renderItems s q.items ++ "\n" ++ s.words .fromTables ++
      " ") ++ front, back ++ q.renderFilter s ++ text (q.renderOrder s), fun j => ?_⟩
  have htables : (q.joined (before ++ j :: after)).renderTables s =
      front ++ (j.render s ++ back) := by
    rw [← Fragment.join_empty_cons, ← Fragment.join_empty_append, Statement.renderTables,
      joined, List.map_append, List.map_cons, List.cons_append]
  rw [Statement.render, htables]
  simp only [Fragment.append_assoc]
  rfl

end ObjectQuery.Sql

namespace ObjectQuery.Query

open ObjectQuery.Sql ObjectQuery.Calendar ObjectQuery.Outcome

/-! ### Row filters -/

/-- All that decides which rows of a node count. -/
structure RowFilter where
  predicate : Option Criterion
  connective : Option Connective
  history : Bool
  referenceDate : Option DateTime
  linkReferenceDate : Option DateTime

/-- The node with other rows. -/
def Node.filteredBy (n : Node) (r : RowFilter) : Node :=
  { n with
    predicate := r.predicate
    connective := r.connective
    history := r.history
    referenceDate := r.referenceDate
    linkReferenceDate := r.linkReferenceDate }

/-- Whatever stands inside, a node is joined as the same derived table of its source. -/
theorem exists_derivedJoin_eq (cx : Context) (n : NodeSettings) (source : Source) (scope : Scope)
    (j : PlannedJoin) :
    ∃ (t : DerivedTable) (on : List Expr),
      t.source = source.tableRef scope.aliasName cx.physical ∧
        ∀ filters, derivedJoin cx n source scope j filters =
          .derived (t.filtered filters) scope.aliasName on := by
  unfold derivedJoin
  cases j.row with
  | none => exact ⟨⟨_, none, [], _, []⟩, _, rfl, fun _ => rfl⟩
  | some row => exact ⟨⟨_, some (_, _), _, _, []⟩, _, rfl, fun _ => rfl⟩

namespace Graph

/-- Two graphs that differ in the row filter of one node. -/
structure Refiltered (g g' : Graph) (id : Nat) (n : Node) (r : RowFilter) : Prop where
  environment : g'.environment = g.environment
  direction : g'.direction = g.direction
  linkTable : g'.linkTable = g.linkTable
  statuses : g'.statuses = g.statuses
  returnType : g'.returnType = g.returnType
  size : g'.size = g.size
  partner : ∀ k, g'.partner? k = g.partner? k
  returned : g'.anyReturned = g.anyReturned
  node : g.node? id = some n
  node' : g'.node? id = some (n.filteredBy r)
  others : ∀ k, k ≠ id → g'.node? k = g.node? k

/-- Changing one item of a list keeps what does not look at the change. -/
theorem any_modify {α : Type} {f : α → α} {p : α → Bool} (keeps : ∀ a, p (f a) = p a)
    (xs : List α) (i : Nat) : (xs.modify i f).any p = xs.any p := by
  induction xs generalizing i with
  | nil => rw [List.modify_nil]
  | cons x xs ih =>
    cases i with
    | zero => rw [List.modify_zero_cons, List.any_cons, List.any_cons, keeps]
    | succ i => rw [List.modify_succ_cons, List.any_cons, List.any_cons, ih]

/-- Changing the row filter of a node changes nothing else. -/
theorem refiltered_of_modifyNode {g g' : Graph} {id : Nat} {n : Node} {r : RowFilter}
    (hn : g.node? id = some n) (hg : g.modifyNode id (·.filteredBy r) = .ok g') :
    g.Refiltered g' id n r := by
  unfold modifyNode at hg
  rw [if_pos (exists_node?_iff.mp ⟨n, hn⟩)] at hg
  cases hg
  obtain ⟨slot, hslot, rfl⟩ := Option.map_eq_some_iff.mp hn
  refine ⟨rfl, rfl, rfl, rfl, rfl, List.length_modify .., ?_, ?_, hn, ?_, ?_⟩
  · intro k
    unfold partner?
    by_cases hk : id = k
    · rw [← hk, List.getElem?_modify_eq, hslot]
      rfl
    · rw [List.getElem?_modify_ne _ _ hk]
  · refine any_modify ?_ g.slots id
    exact fun _ => rfl
  · rw [node?, List.getElem?_modify_eq, hslot]
    rfl
  · intro k hk
    rw [node?, node?, List.getElem?_modify_ne _ _ (Ne.symm hk)]

namespace Refiltered

variable {g g' : Graph} {id : Nat} {n : Node} {r : RowFilter} {mode : Mode}

/-! ### What the graphs share -/

theorem context_eq (h : g.Refiltered g' id n r) : g'.context mode = g.context mode := by
  rw [context, context, h.environment, h.linkTable, h.statuses]

/-- The nodes are walked in the same order. -/
theorem walk_eq (h : g.Refiltered g' id n r) : g'.walk = g.walk := walk_congr h.size h.partner

theorem isolated_eq (h : g.Refiltered g' id n r) (k : Nat) (m : NodeSettings) :
    g'.isolated k m = g.isolated k m := by
  rw [isolated, isolated, h.direction, h.partner]

theorem outerScope_eq (h : g.Refiltered g' id n r) (k : Nat) (m : NodeSettings) :
    g'.outerScope mode k m = g.outerScope mode k m := by
  rw [outerScope, outerScope, h.isolated_eq]

theorem linkItems_eq (h : g.Refiltered g' id n r) (k : Nat) (m : NodeSettings)
    (join : Option PlannedJoin) : g'.linkItems k m join = g.linkItems k m join := by
  unfold linkItems
  simp only [h.isolated_eq]

/-- Whether a node contributes select items does not depend on the filter. -/
theorem projected_eq (h : g.Refiltered g' id n r) (hd : g.direction = .reverse) (k : Nat) :
    g'.projected k = g.projected k := by
  have hpinned : g'.pinned? = g.pinned? := by
    rw [pinned?, pinned?, h.direction, hd]
  have hreturned : ((g'.node? k).any fun m => m.returned) =
      (g.node? k).any fun m => m.returned := by
    by_cases hk : k = id
    · rw [hk, h.node, h.node']
      rfl
    · rw [h.others k hk]
  rw [projected, projected, h.returned, hpinned, hreturned]

theorem linkRow_eq (h : g.Refiltered g' id n r) (plan : JoinPlan) (target : NodeSettings)
    (previous : String) : g'.linkRow plan target previous = g.linkRow plan target previous := by
  unfold linkRow
  rw [h.linkTable]

theorem node_eq (h : g.Refiltered g' id n r) {k : Nat} (hk : k ≠ id) : g'.node k = g.node k := by
  rw [Graph.node, Graph.node, h.others k hk]

/-- Joins are planned alike: they read neither filters nor dates. -/
theorem planJoin_eq (h : g.Refiltered g' id n r) (hd : g.direction = .reverse) (k : Nat)
    (m : NodeSettings) : g'.planJoin mode k m = g.planJoin mode k m := by
  have hok : g.node id = .ok n := node_eq_ok_iff.mpr h.node
  have hok' : g'.node id = .ok (n.filteredBy r) := node_eq_ok_iff.mpr h.node'
  unfold planJoin
  rw [h.partner, h.direction, hd]
  cases hp : g.partner? k with
  | none => rfl
  | some p =>
    have hlt : p < k := (partner?_lt hp).1
    simp only [h.linkRow_eq, h.outerScope_eq, Direction.linkHolder]
    by_cases hk : k = id
    · rw [h.node_eq (by omega : p ≠ id), hk, hok, hok']
      rfl
    · rw [h.node_eq hk]
      -- Of a partner only the alias, the source and the kind of join are read.
      by_cases hpid : p = id
      · rw [hpid, hok, hok']
        rfl
      · rw [h.node_eq hpid]

theorem heldRow_eq (h : g.Refiltered g' id n r) (hd : g.direction = .reverse) (k : Nat)
    (m : NodeSettings) (join : Option PlannedJoin) :
    g'.heldRow k m join = g.heldRow k m join := by
  rw [heldRow, heldRow, h.direction, hd]

/-- Every other node contributes the same part. -/
theorem part_eq (h : g.Refiltered g' id n r) (hd : g.direction = .reverse) {k : Nat}
    (hk : k ≠ id) : g'.part mode k = g.part mode k := by
  unfold part
  simp only [h.node_eq hk, h.planJoin_eq hd, h.heldRow_eq hd, h.context_eq, h.outerScope_eq,
    h.isolated_eq, h.projected_eq hd, h.linkItems_eq]

/-- The filtered node itself contributes the same but for the conditions inside its derived
table: whatever it is asked for in front of them reads only what the filter leaves alone. -/
theorem part_of_isolated (h : g.Refiltered g' id n r)
    (hiso : g.isolated id n.toNodeSettings = true) {v v' : Visit} (hv : g.Visits mode id v)
    (hv' : g'.Visits mode id v') :
    ∃ (t : DerivedTable) (on : List Expr) (p : Part),
      t.source = v.source.tableRef n.aliasName mode.physical ∧
        v.part g mode id = { p with
          joins := [.derived (t.filtered (v.filters g.environment.maxDate)) n.aliasName on] } ∧
        v'.part g' mode id = { p with
          joins := [.derived (t.filtered (v'.filters g.environment.maxDate)) n.aliasName on] } := by
  have hiso' : g'.isolated id (n.filteredBy r).toNodeSettings = true := by
    rw [h.isolated_eq]
    exact hiso
  have hd : g.direction = .reverse := (isolated_iff.mp hiso).1
  -- The two visits agree but for the held link row and the criterion.
  obtain ⟨m, source, join, held, predicate, own⟩ := v
  obtain ⟨m', source', join', held', predicate', own'⟩ := v'
  obtain ⟨hm, hsource, hjoin, -, -, hown⟩ := hv
  obtain ⟨hm', hsource', hjoin', -, -, hown'⟩ := hv'
  obtain rfl : n = m := Option.some.inj (h.node.symm.trans hm)
  obtain rfl : n.filteredBy r = m' := Option.some.inj (h.node'.symm.trans hm')
  obtain rfl : source = source' := Except.ok.inj (hsource.symm.trans hsource')
  rw [h.planJoin_eq hd] at hjoin'
  obtain rfl : join = join' := Except.ok.inj (hjoin.symm.trans hjoin')
  rw [h.outerScope_eq] at hown'
  obtain rfl : own = own' := Except.ok.inj (hown.symm.trans hown')
  obtain ⟨j, rfl⟩ : ∃ j, join = some j :=
    Option.isSome_iff_exists.mp ((planJoin_isSome_iff hjoin).mpr ((isolated_iff.mp hiso).2.1))
  obtain ⟨t, on, ht, hderived⟩ := exists_derivedJoin_eq (g.context mode) n.toNodeSettings source
    (n.scope n.aliasName mode.physical) j
  rw [NodeSettings.aliasName_scope] at ht hderived
  refine ⟨t, on,
    { joins := []
      conditions := []
      items := if g.projected id then own ++ g.linkItems id n.toNodeSettings (some j) else []
      order := n.sort.map fun field =>
        ⟨(g.outerScope mode id n.toNodeSettings).column field.field, field.descending⟩ },
    ht, ?_, ?_⟩
  · rw [Visit.part, Visit.joins_of_isolated rfl hiso, if_pos hiso, hderived]
  · rw [Visit.part, Visit.joins_of_isolated rfl hiso', if_pos hiso', h.context_eq,
      h.environment, h.projected_eq hd, h.linkItems_eq, h.outerScope_eq]
    exact congrArg (fun join => Part.mk [join] _ _ _) (hderived _)

/-- The walk meets the filtered node once, and in front of it and behind it the parts agree. -/
theorem parts_eq (h : g.Refiltered g' id n r) (hd : g.direction = .reverse)
    {parts parts' : List Part} (hparts : g.walk.mapM (g.part mode) = .ok parts)
    (hparts' : g'.walk.mapM (g'.part mode) = .ok parts') :
    ∃ (front back : List Part) (v v' : Visit), g.Visits mode id v ∧ g'.Visits mode id v' ∧
      parts = front ++ v.part g mode id :: back ∧
      parts' = front ++ v'.part g' mode id :: back := by
  obtain ⟨xs, ys, hwalk⟩ := List.append_of_mem (mem_walk.mpr (exists_node?_iff.mp ⟨n, h.node⟩))
  have hnodup := nodup_walk (g := g)
  rw [hwalk] at hparts hnodup
  rw [h.walk_eq, hwalk] at hparts'
  obtain ⟨us, p, ws, hus, hp, hws, rfl⟩ := mapM_append_cons_eq_ok_iff.mp hparts
  obtain ⟨us', p', ws', hus', hp', hws', rfl⟩ := mapM_append_cons_eq_ok_iff.mp hparts'
  have hout : id ∉ xs ++ ys := (List.nodup_cons.mp (List.nodup_middle.mp hnodup)).1
  rw [List.mem_append, not_or] at hout
  have hfront : xs.mapM (g'.part mode) = xs.mapM (g.part mode) :=
    mapM_congr fun k hk => h.part_eq hd fun hid => hout.1 (hid ▸ hk)
  have hback : ys.mapM (g'.part mode) = ys.mapM (g.part mode) :=
    mapM_congr fun k hk => h.part_eq hd fun hid => hout.2 (hid ▸ hk)
  obtain rfl : us = us' := Except.ok.inj (hus.symm.trans (hfront.symm.trans hus'))
  obtain rfl : ws = ws' := Except.ok.inj (hws.symm.trans (hback.symm.trans hws'))
  obtain ⟨v, hv, rfl⟩ := part_eq_ok_iff.mp hp
  obtain ⟨v', hv', rfl⟩ := part_eq_ok_iff.mp hp'
  exact ⟨us, ws, v, v', hv, hv', rfl, rfl⟩

/-- The statements differ in the filters of one derived table. -/
theorem statement_of_isolated (h : g.Refiltered g' id n r)
    (hiso : g.isolated id n.toNodeSettings = true) {q q' : Statement}
    (hq : g.statement mode = .ok q) (hq' : g'.statement mode = .ok q') :
    ∃ (v v' : Visit) (t : DerivedTable) (on : List Expr) (frame : Statement)
      (before after : List Join),
      g.Visits mode id v ∧ g'.Visits mode id v' ∧
        t.source = v.source.tableRef n.aliasName mode.physical ∧
        q = frame.joined (before ++
          .derived (t.filtered (v.filters g.environment.maxDate)) n.aliasName on :: after) ∧
        q' = frame.joined (before ++
          .derived (t.filtered (v'.filters g.environment.maxDate)) n.aliasName on :: after) := by
  obtain ⟨hd, hpartner, -⟩ := isolated_iff.mp hiso
  -- The first node has no partner, so it is another one and its table is the same.
  have hroot : 0 ≠ id := by
    rintro rfl
    rw [partner?_zero] at hpartner
    cases hpartner
  obtain ⟨root, source, parts, hn, hsource, hparts, rfl⟩ := statement_eq_ok_iff.mp hq
  obtain ⟨root', source', parts', hn', hsource', hparts', rfl⟩ := statement_eq_ok_iff.mp hq'
  rw [h.others 0 hroot] at hn'
  obtain rfl : root = root' := Option.some.inj (hn.symm.trans hn')
  obtain rfl : source = source' := Except.ok.inj (hsource.symm.trans hsource')
  obtain ⟨us, ws, v, v', hv, hv', rfl, rfl⟩ := h.parts_eq hd hparts hparts'
  obtain ⟨t, on, p, ht, hpart, hpart'⟩ := h.part_of_isolated hiso hv hv'
  rw [hpart, hpart']
  refine ⟨v, v', t, on, assemble (source.tableRef root.aliasName mode.physical) (us ++ p :: ws),
    us.flatMap (·.joins), ws.flatMap (·.joins), hv, hv', ht, ?_, ?_⟩
  · simp [assemble, Statement.joined]
  · simp [assemble, Statement.joined]

end Refiltered

/-- Whatever filters the rows of a left-joined node of a tree, text and values are the same up
to the tables of its derived table and from the closing parenthesis on. -/
theorem compile_filteredBy {g g' : Graph} {mode : Mode} {id : Nat} {n : Node} {r : RowFilter}
    {f f' : Fragment} (hd : g.direction = .reverse) (hid : 0 < id) (hn : g.node? id = some n)
    (hleft : n.join = .left) (hg : g.modifyNode id (·.filteredBy r) = .ok g')
    (hf : g.compile mode = .ok f) (hf' : g'.compile mode = .ok f') :
    ∃ (s : Spelling) (v v' : Visit) (t : DerivedTable) (before after : Fragment),
      vocabulary g.environment.dialect = .ok s.words ∧
        g.Visits mode id v ∧ g'.Visits mode id v' ∧
        t.source = v.source.tableRef n.aliasName mode.physical ∧
        f = (before ++ t.opening s) ++ filterClause s (v.filters g.environment.maxDate) ++
          (closing s n.aliasName ++ after) ∧
        f' = (before ++ t.opening s) ++ filterClause s (v'.filters g.environment.maxDate) ++
          (closing s n.aliasName ++ after) := by
  have h := refiltered_of_modifyNode hn hg
  have hiso : g.isolated id n.toNodeSettings = true := by
    obtain ⟨p, hp⟩ := exists_partner? hid (exists_node?_iff.mp ⟨n, hn⟩)
    exact isolated_iff.mpr ⟨hd, by rw [hp]; rfl, hleft⟩
  obtain ⟨-, words, q, hwords, hq, rfl⟩ := compile_eq_ok_iff.mp hf
  obtain ⟨-, words', q', hwords', hq', rfl⟩ := compile_eq_ok_iff.mp hf'
  rw [h.environment] at hwords' ⊢
  obtain rfl : words = words' := Except.ok.inj (hwords.symm.trans hwords')
  obtain ⟨v, v', t, on, frame, front, back, hv, hv', ht, rfl, rfl⟩ :=
    h.statement_of_isolated hiso hq hq'
  let s : Spelling := ⟨words, g.environment.geometry⟩
  obtain ⟨pre, post, hrender⟩ := frame.exists_render_joined s front back
  refine ⟨s, v, v', t, pre, renderAll s on ++ post, hwords, hv, hv', ht, ?_, ?_⟩
  · rw [hrender, Join.render_derived]
    simp only [Fragment.append_assoc]
  · rw [hrender, Join.render_derived]
    simp only [Fragment.append_assoc]

/-- The stalls of the sample tree, with all their versions and without a criterion. -/
theorem compile_filteredBy_farm :
    ∃ (g' : Graph) (f f' : Fragment),
      Farm.graph.modifyNode 1 (·.filteredBy ⟨none, some .or, true, none, none⟩) = .ok g' ∧
        Farm.graph.compile {} = .ok f ∧ g'.compile {} = .ok f' ∧
        ∃ (s : Spelling) (v v' : Visit) (t : DerivedTable) (before after : Fragment),
          vocabulary Farm.graph.environment.dialect = .ok s.words ∧
            Farm.graph.Visits {} 1 v ∧ g'.Visits {} 1 v' ∧
            t.source = v.source.tableRef "t1" false ∧
            f = (before ++ t.opening s) ++ filterClause s (v.filters .endOfTime) ++
              (closing s "t1" ++ after) ∧
            f' = (before ++ t.opening s) ++ filterClause s (v'.filters .endOfTime) ++
              (closing s "t1" ++ after) :=
  ⟨_, _, _, rfl, rfl, rfl,
    compile_filteredBy (g := Farm.graph) rfl Nat.zero_lt_one rfl rfl rfl rfl rfl⟩

end Graph

end ObjectQuery.Query
