import ObjectQuery.Proofs.Clean
import ObjectQuery.Proofs.Visit

/-!
# Filling compiled graphs

The n-th placeholder of a compiled graph belongs to its n-th value.  Every node of a clean
graph contributes clean joins, conditions and select items, so the statement of the graph is
clean, and filling its placeholders gives the graph spelled with every value in place.

## Main Definitions

* `LinkRow.Clean`, `JoinPlan.Clean`, `PlannedJoin.Clean` — what a join is planned with
* `Graph.compileWritten` — a graph spelled with its values in place

## Main Statements

* `Graph.Visits.clean_part` — a node of a clean graph contributes a clean part
* `Graph.Clean.statement` — a clean graph has a clean statement
* `Graph.filled_compile` — the placeholders of a compiled graph belong to its values in order
-/

namespace ObjectQuery.Query

open ObjectQuery.Sql ObjectQuery.Calendar ObjectQuery.Outcome

/-! ### Joins -/

/-- The names of a link row are neutral. -/
structure LinkRow.Clean (r : LinkRow) : Prop where
  table : r.table.Clean
  aliasName : Neutral r.aliasName

namespace LinkRow.Clean

variable {r : LinkRow}

theorem column (h : r.Clean) {c : String} (hc : c ∈ r.table.columns.all) : (r.column c).Clean :=
  h.table.column hc h.aliasName

theorem exposed (h : r.Clean) {c : String} (hc : c ∈ r.table.columns.all) :
    Neutral (r.exposed c) := by
  have hname := h.table.columns c hc
  simp [LinkRow.exposed, h.aliasName, hname]

theorem tableRef (h : r.Clean) : r.tableRef.Clean := ⟨h.table.qualifiedName, h.aliasName⟩

theorem conditions (h : r.Clean) (statuses : List String) :
    ∀ e ∈ r.conditions statuses, e.Clean :=
  List.forall_mem_cons.mpr
    ⟨h.column (by simp [LinkColumns.all]), h.table.statusFilter h.aliasName statuses⟩

theorem items (h : r.Clean) : ∀ item ∈ r.items, item.Clean := by
  intro item hitem
  obtain ⟨c, hc, rfl⟩ := List.mem_map.mp hitem
  exact ⟨h.column hc, h.exposed hc⟩

theorem exposedItems (h : r.Clean) {aliasName : String} (halias : Neutral aliasName) :
    ∀ item ∈ r.exposedItems aliasName, item.Clean := by
  intro item hitem
  obtain ⟨c, hc, rfl⟩ := List.mem_map.mp hitem
  exact ⟨⟨halias, h.exposed hc⟩, h.exposed hc⟩

theorem validity (h : r.Clean) (holder : NodeSettings) (maxDate : DateTime) :
    ∀ e, r.validity holder maxDate = some e → e.Clean := by
  intro e he
  unfold LinkRow.validity at he
  split at he
  · cases he
  · cases he
    exact (clean_validityExpr (h.column (by simp [LinkColumns.all]))
      (h.column (by simp [LinkColumns.all])) _ _ _).enclosed

end LinkRow.Clean

/-- The columns of a plan are neutral, and a condition taken as it is needs no values. -/
def JoinPlan.Clean : JoinPlan → Prop
  | .columns pairs _ => ∀ p ∈ pairs, Neutral p.1 ∧ Neutral p.2
  | .freeText sql => Inert sql
  | .linkTable _ _ => True

/-- A clean link has a clean plan. -/
theorem Link.Clean.plan {link : Link} (h : link.Clean) {plan : JoinPlan}
    (hplan : link.plan = .ok plan) : plan.Clean := by
  have hid : Neutral Catalog.objectId := by decide
  have hparent : Neutral Catalog.parentId := by decide
  cases link with
  | custom left right =>
    obtain ⟨_, -, hplan⟩ := bind_eq_ok_iff.mp hplan
    cases hplan
    intro p hp
    obtain ⟨hleft, hright⟩ := List.of_mem_zip hp
    exact ⟨h.1 p.1 hleft, h.2 p.2 hright⟩
  | linkRow near linkType =>
    cases linkType with
    | none => cases hplan
    | some linkType =>
      cases hplan
      trivial
  | freeText sql =>
    cases hplan
    exact h
  | child =>
    cases hplan
    exact List.forall_mem_singleton.mpr ⟨hparent, hid⟩
  | parent =>
    cases hplan
    exact List.forall_mem_singleton.mpr ⟨hid, hparent⟩
  | denormalized field =>
    cases hplan
    exact List.forall_mem_singleton.mpr ⟨hid, h⟩
  | denormalizedReverse field =>
    cases hplan
    exact List.forall_mem_singleton.mpr ⟨h, hid⟩
  | denormalizedFull left right =>
    cases hplan
    exact List.forall_mem_singleton.mpr h

theorem JoinPlan.Clean.conditions {plan : JoinPlan} (h : plan.Clean) {previous next : Scope}
    (hprevious : previous.Clean) (hnext : next.Clean) :
    ∀ e ∈ plan.conditions previous next, e.Clean := by
  intro e he
  cases plan with
  | columns pairs nextFirst =>
    obtain ⟨⟨p, n⟩, hp, rfl⟩ := List.mem_map.mp he
    obtain ⟨hleft, hright⟩ := h (p, n) hp
    cases nextFirst with
    | false => exact clean_equality (hprevious.column hleft) (hnext.column hright)
    | true => exact clean_equality (hnext.column hright) (hprevious.column hleft)
  | freeText sql =>
    rw [List.mem_singleton.mp he]
    exact h
  | linkTable linkType near => cases he

/-- Everything that is planned for a join is clean. -/
structure PlannedJoin.Clean (j : PlannedJoin) : Prop where
  previous : j.previous.Clean
  plan : j.plan.Clean
  row : ∀ row, j.row = some row → row.Clean

section Joins

variable {cx : Context} {n : NodeSettings} {source : Source} {scope : Scope} {j : PlannedJoin}

theorem clean_inlineJoins (hsource : source.Clean) (hscope : scope.Clean) (hj : j.Clean) :
    ∀ join ∈ inlineJoins cx n source scope j, join.Clean := by
  have htarget := hsource.tableRef hscope.aliasName cx.physical
  unfold inlineJoins
  cases hrow : j.row with
  | none => exact List.forall_mem_singleton.mpr ⟨htarget, hj.plan.conditions hj.previous hscope⟩
  | some row =>
    have hr := hj.row row hrow
    rw [List.forall_mem_cons, List.forall_mem_singleton]
    refine ⟨⟨hr.tableRef, List.forall_mem_cons.mpr ⟨?_, hr.conditions cx.statuses⟩⟩,
      htarget, List.forall_mem_singleton.mpr ?_⟩
    · exact clean_equality hj.previous.objectId (hr.column (LinkColumns.endColumn_mem _ _))
    · exact clean_equality (hr.column (LinkColumns.endColumn_mem _ _)) hscope.objectId

theorem clean_derivedJoin (hn : n.Clean) (hsource : source.Clean) (hscope : scope.Clean)
    (hj : j.Clean) {filters : List Expr} (hfilters : ∀ e ∈ filters, e.Clean) :
    (derivedJoin cx n source scope j filters).Clean := by
  have htarget := hsource.tableRef hscope.aliasName cx.physical
  have hcolumns := hn.derivedColumns hscope cx.physical
  unfold derivedJoin
  cases hrow : j.row with
  | none =>
    refine ⟨⟨hcolumns, ?_, ?_, htarget, hfilters⟩, hscope.aliasName,
      hj.plan.conditions hj.previous (Scope.clean_uniform hscope.aliasName)⟩
    · rintro _ _ ⟨⟩
    · exact List.forall_mem_nil _
  | some row =>
    have hr := hj.row row hrow
    refine ⟨⟨hcolumns, ?_, hr.items, htarget, hfilters⟩, hscope.aliasName,
      List.forall_mem_singleton.mpr ?_⟩
    · rintro _ _ ⟨⟩
      refine ⟨hr.tableRef, List.forall_mem_cons.mpr ⟨?_, hr.conditions cx.statuses⟩⟩
      exact clean_equality (hr.column (LinkColumns.endColumn_mem _ _)) hscope.objectId
    -- Outside, the derived table shows the column of the link row under a name of its own.
    · exact clean_equality hj.previous.objectId
        ⟨hscope.aliasName, hr.exposed (LinkColumns.endColumn_mem _ _)⟩

end Joins

/-! ### Select items -/

section Items

variable {n : NodeSettings} {scope : Scope}

theorem NodeSettings.Clean.labelOf (h : n.Clean) {column : String} (hcolumn : Neutral column) :
    Neutral (n.labelOf column) := by
  simp [NodeSettings.labelOf, h.aliasName, hcolumn]

theorem NodeSettings.Clean.plainItem (h : n.Clean) (hscope : scope.Clean) {column : String}
    (hcolumn : Neutral column) : (n.plainItem scope column).Clean :=
  ⟨hscope.column hcolumn, h.labelOf hcolumn⟩

theorem NodeSettings.Clean.geometryItem (h : n.Clean) (hscope : scope.Clean) {column : String}
    (hcolumn : Neutral column) : (n.geometryItem scope column).Clean :=
  ⟨hscope.column hcolumn, h.labelOf hcolumn⟩

/-- The select items of a clean node are clean. -/
theorem NodeSettings.Clean.items (h : n.Clean) (hscope : scope.Clean) {geometry : Bool}
    {items : List SelectItem} (hitems : n.items scope geometry = .ok items) :
    ∀ item ∈ items, item.Clean := by
  unfold NodeSettings.items at hitems
  cases hfields : n.fields with
  | some fields =>
    rw [hfields] at hitems
    cases hitems
    intro item hitem
    obtain ⟨f, hf, rfl⟩ := List.mem_map.mp hitem
    have hname := h.fields fields hfields f hf
    unfold NodeSettings.customItem
    cases n.table? with
    | none => exact h.plainItem hscope hname
    | some t =>
      dsimp only
      split
      · exact h.geometryItem hscope hname
      · exact h.plainItem hscope hname
  | none =>
    rw [hfields] at hitems
    obtain ⟨source, hsource, rfl⟩ := map_eq_ok_iff.mp hitems
    have hread := h.requireSource hsource
    intro item hitem
    cases source with
    | subQuery q =>
      obtain ⟨f, hf, rfl⟩ := List.mem_map.mp hitem
      exact h.plainItem hscope (hread.2 f hf)
    | table t =>
      obtain ⟨f, hf, hitem⟩ := List.mem_filterMap.mp hitem
      have hname := clean_selectedFields hread f hf
      unfold NodeSettings.fieldItem? at hitem
      split at hitem
      · split at hitem
        · cases hitem
          exact h.geometryItem hscope hname
        · cases hitem
      · cases hitem
        exact h.plainItem hscope hname

end Items

/-! ### Parts -/

theorem Node.Clean.settings {n : Node} (h : n.Clean) : n.toNodeSettings.Clean := by
  cases n
  exact h.1

theorem Node.Clean.predicate {n : Node} (h : n.Clean) : Criterion.CleanIfAny n.predicate := by
  cases n
  exact h.2

namespace Graph

variable {g : Graph} {mode : Mode} {id : Nat}

theorem clean_outerScope {n : NodeSettings} (hn : n.Clean) :
    (g.outerScope mode id n).Clean := by
  unfold outerScope
  split
  · exact Scope.clean_uniform hn.aliasName
  · exact NodeSettings.clean_scope hn.aliasName mode.physical

namespace Clean

theorem linkRow (hg : g.Clean) {plan : JoinPlan} {target : NodeSettings} {previous : String}
    {row : Option LinkRow} (htarget : Neutral target.aliasName)
    (h : g.linkRow plan target previous = .ok row) : ∀ r, row = some r → r.Clean := by
  cases plan with
  | linkTable linkType near =>
    obtain ⟨table, htable, rfl⟩ := linkRow_linkTable_eq_ok_iff.mp h
    rintro r ⟨⟩
    exact ⟨hg.linkTable table htable, neutral_aliasTo htarget⟩
  | columns | freeText =>
    cases h
    rintro r ⟨⟩

theorem planJoin (hg : g.Clean) {n : NodeSettings} (hn : n.Clean) {join : Option PlannedJoin}
    (h : g.planJoin mode id n = .ok join) : ∀ j, join = some j → j.Clean := by
  cases hp : g.partner? id with
  | none =>
    rw [planJoin_of_none hp] at h
    cases h
    rintro j ⟨⟩
  | some partner =>
    obtain ⟨previous, holder, link, plan, row, hprevious, hholder, hlink, hplan, hrow, rfl⟩ :=
      (planJoin_eq_ok_iff hp).mp h
    have hprevious' := (hg.nodes partner previous (node_eq_ok_iff.mp hprevious)).settings
    have hholder' := (hg.nodes _ holder (node_eq_ok_iff.mp hholder)).settings
    rintro j ⟨⟩
    exact ⟨clean_outerScope hprevious', (hholder'.link link hlink).plan hplan,
      hg.linkRow hn.aliasName hrow⟩

theorem heldRow (hg : g.Clean) {n : NodeSettings} {join : Option PlannedJoin}
    (hjoin : ∀ j, join = some j → j.Clean) {held : Option LinkRow}
    (h : g.heldRow id n join = .ok held) : ∀ r, held = some r → r.Clean := by
  unfold Graph.heldRow at h
  cases hd : g.direction with
  | reverse =>
    rw [hd] at h
    cases h
    intro r hr
    obtain ⟨j, hj, hrow⟩ := Option.bind_eq_some_iff.mp hr
    exact (hjoin j hj).row r hrow
  | forward =>
    rw [hd] at h
    have hout := (outgoingRow_eq_ok_iff hd).mp h
    by_cases hlt : id + 1 < g.size
    · rw [if_pos hlt] at hout
      cases hlink : n.link with
      | none =>
        rw [hlink] at hout
        cases hout
        rintro r ⟨⟩
      | some link =>
        rw [hlink] at hout
        obtain ⟨target, plan, htarget, -, hrow⟩ := hout
        exact hg.linkRow (hg.nodes _ target (node_eq_ok_iff.mp htarget)).settings.aliasName hrow
    · rw [if_neg hlt] at hout
      cases hout
      rintro r ⟨⟩

end Clean

theorem clean_linkItems {n : NodeSettings} (hn : n.Clean) {join : Option PlannedJoin}
    (hjoin : ∀ j, join = some j → j.Clean) : ∀ item ∈ g.linkItems id n join, item.Clean := by
  unfold linkItems
  cases hrow : join.bind (·.row) with
  | none => exact List.forall_mem_nil _
  | some row =>
    obtain ⟨j, hj, hr⟩ := Option.bind_eq_some_iff.mp hrow
    have hclean := (hjoin j hj).row row hr
    dsimp only
    split
    · split
      · exact hclean.exposedItems hn.aliasName
      · exact hclean.items
    · exact List.forall_mem_nil _

/-- All that a node contributes is clean. -/
structure PartClean (p : Part) : Prop where
  joins : ∀ j ∈ p.joins, j.Clean
  conditions : ∀ c ∈ p.conditions, c.1.Clean
  items : ∀ item ∈ p.items, item.Clean
  order : ∀ t ∈ p.order, t.column.Clean

namespace Visits

variable {v : Visit}

/-- The conditions of a node of a clean graph are clean. -/
theorem clean_filters (hg : g.Clean) (hv : g.Visits mode id v) :
    ∀ e ∈ v.filters g.environment.maxDate, e.Clean := by
  have hn := hg.nodes id v.node hv.node
  have hscope := NodeSettings.clean_scope (n := v.node.toNodeSettings) hn.settings.aliasName
    mode.physical
  have hpredicate : ∀ e, v.predicate = some e → e.Clean :=
    Criterion.clean_resolveOwn (show (g.context mode).Clean from hg.linkTable) hscope _ _
      hn.predicate hv.predicate
  have hheld := hg.heldRow (hg.planJoin hn.settings hv.join) hv.held
  intro e he
  rcases List.mem_append.mp he with hown | hlink
  · exact hpredicate e (Option.mem_toList.mp hown)
  · obtain ⟨row, hrow, hvalid⟩ := Option.bind_eq_some_iff.mp (Option.mem_toList.mp hlink)
    exact (hheld row hrow).validity _ _ e hvalid

/-- The joins of a node of a clean graph are clean. -/
theorem clean_joins (hg : g.Clean) (hv : g.Visits mode id v) :
    ∀ j ∈ v.joins g mode id, j.Clean := by
  have hn := (hg.nodes id v.node hv.node).settings
  have hsource := hn.requireSource hv.source
  have hscope := NodeSettings.clean_scope (n := v.node.toNodeSettings) hn.aliasName mode.physical
  cases hjoin : v.join with
  | none =>
    rw [Visit.joins_of_none hjoin]
    exact List.forall_mem_nil _
  | some j =>
    have hj := hg.planJoin hn hv.join j hjoin
    cases hiso : g.isolated id v.node.toNodeSettings with
    | true =>
      rw [Visit.joins_of_isolated hjoin hiso, List.forall_mem_singleton]
      exact clean_derivedJoin hn hsource hscope hj (hv.clean_filters hg)
    | false =>
      rw [Visit.joins_of_inline hjoin hiso]
      exact clean_inlineJoins hsource hscope hj

/-- A node of a clean graph contributes a clean part. -/
theorem clean_part (hg : g.Clean) (hv : g.Visits mode id v) : PartClean (v.part g mode id) := by
  have hn := (hg.nodes id v.node hv.node).settings
  have hscope : (g.outerScope mode id v.node.toNodeSettings).Clean := clean_outerScope hn
  refine ⟨hv.clean_joins hg, ?_, ?_, ?_⟩
  · show ∀ c ∈ (if g.isolated id v.node.toNodeSettings then [] else
      connected v.node.connectiveAfter (v.filters g.environment.maxDate)), c.1.Clean
    split
    · exact List.forall_mem_nil _
    · intro c hc
      have hfilter := List.mem_map_of_mem (f := (·.1)) hc
      rw [map_fst_connected] at hfilter
      exact hv.clean_filters hg c.1 hfilter
  · show ∀ item ∈ (if g.projected id then
      v.own ++ g.linkItems id v.node.toNodeSettings v.join else []), item.Clean
    split
    · exact List.forall_mem_append.mpr
        ⟨hn.items hscope hv.own, clean_linkItems hn (hg.planJoin hn hv.join)⟩
    · exact List.forall_mem_nil _
  · intro t ht
    obtain ⟨f, hf, rfl⟩ := List.mem_map.mp ht
    exact hscope.column (hn.sort f hf)

end Visits

/-- A graph spelled with every value in place. -/
def compileWritten (g : Graph) (mode : Mode) : Except CompileError (List Piece) :=
  if g.size = 0 then .error (.invalidGraph .empty)
  else do
    let words ← vocabulary g.environment.dialect
    let statement ← g.statement mode
    return statement.written ⟨words, g.environment.geometry⟩

/-- A clean graph has a clean statement: each of its parts comes from a node. -/
theorem Clean.statement (hg : g.Clean) {q : Statement} (h : g.statement mode = .ok q) :
    q.Clean := by
  obtain ⟨root, source, parts, hroot, hsource, hparts, rfl⟩ := statement_eq_ok_iff.mp h
  have hn := (hg.nodes 0 root hroot).settings
  -- Every part comes from a visit of some node.
  have hclean : ∀ p ∈ parts, PartClean p := by
    intro p hp
    obtain ⟨id, -, hpart⟩ := exists_of_mem_mapM hparts hp
    obtain ⟨v, hv, rfl⟩ := part_eq_ok_iff.mp hpart
    exact hv.clean_part hg
  refine ⟨?_, (hn.requireSource hsource).tableRef hn.aliasName mode.physical, ?_, ?_, ?_⟩
  · exact List.forall_mem_flatMap.mpr fun p hp => (hclean p hp).items
  · exact List.forall_mem_flatMap.mpr fun p hp => (hclean p hp).joins
  · exact Chain.clean_ofParts?
      (List.forall_mem_flatMap.mpr fun p hp => (hclean p hp).conditions)
  · exact List.forall_mem_flatMap.mpr fun p hp => (hclean p hp).order

/-- The words that a clean graph is spelled with are neutral. -/
theorem Clean.spelling (hg : g.Clean) {words : Vocabulary}
    (h : vocabulary g.environment.dialect = .ok words) :
    Spelling.Balanced ⟨words, g.environment.geometry⟩ :=
  ⟨fun k => hg.keywords k (words k) (vocabulary_eq_ok_iff.mp h k), hg.geometry⟩

/-- A compiled clean graph has one value for each placeholder, and when its placeholders are
filled from left to right it is the graph spelled with every value in place. -/
theorem filled_compile (hg : g.Clean) {f : Fragment} (h : g.compile mode = .ok f) :
    placeholderCount f.sql = f.values.length ∧ g.compileWritten mode = .ok f.filled := by
  obtain ⟨hpos, words, q, hwords, hq, rfl⟩ := compile_eq_ok_iff.mp h
  obtain ⟨hbalanced, hfilled⟩ := q.fills_render (hg.spelling hwords) (hg.statement hq)
  refine ⟨hbalanced.placeholders, ?_⟩
  rw [compileWritten, if_neg (Nat.ne_of_gt hpos), hfilled]
  exact bind_eq_ok_iff.mpr ⟨words, hwords, bind_eq_ok_iff.mpr ⟨q, hq, rfl⟩⟩

end Graph

/-! ### Two sample trees -/

namespace Farm

theorem clean_animals : (Source.table animals).Clean :=
  ⟨by decide, by decide, by decide, by decide, by decide⟩

theorem clean_stalls : (Source.table stalls).Clean :=
  ⟨by decide, by decide, by decide, by decide, by decide⟩

theorem clean_highScores : (Source.subQuery highScores).Clean :=
  ⟨⟨by decide, by decide⟩, by decide⟩

/-- The nodes of the samples are given sources, links and columns. -/
theorem clean_settings {n : NodeSettings} {source : Source} (hsource : n.source = some source)
    (h : source.Clean) (hlink : ∀ link, n.link = some link → link.Clean)
    (hfields : ∀ fields, n.fields = some fields → ∀ f ∈ fields, Neutral f)
    (hnothing : n.givenAlias = none ∧ n.sort = []) : n.Clean := by
  obtain ⟨halias, hsort⟩ := hnothing
  refine ⟨?_, ?_, hlink, ?_, hfields⟩
  · intro found hfound
    cases hsource.symm.trans hfound
    exact h
  · intro aliasName hgiven
    cases halias.symm.trans hgiven
  · rw [hsort]
    exact List.forall_mem_nil _

/-- The words of the standard dialect are neutral. -/
theorem neutral_lookup (k : Keyword) (word : String)
    (h : Environment.standard.dialect.lookup? k.key = some word) : Neutral word := by
  have hk : Environment.standard.dialect.lookup? k.key = some k.standard :=
    Dialect.lookup_standard k
  cases hk.symm.trans h
  exact k.neutral_standard

theorem clean_score (position : Nat) : ({ score with position } : Node).Clean := by
  refine ⟨clean_settings rfl clean_highScores ?_ nofun ⟨rfl, rfl⟩, trivial⟩
  rintro link ⟨⟩
  exact (by decide : Neutral "object_id")

/-- The sample tree is clean, although one of its statuses has a quote and a question mark. -/
theorem clean_graph : graph.Clean := by
  refine ⟨neutral_lookup, Geometry.balanced_simpleFeatures none, ?_, ?_⟩
  · rintro t ⟨⟩
    exact ⟨by decide, by decide, by decide⟩
  · intro id n hn
    match id, hn with
    | 0, hn =>
      cases hn
      refine ⟨clean_settings rfl clean_animals nofun nofun ⟨rfl, rfl⟩, ?_⟩
      refine ⟨(by decide : Neutral "breed"), ⟨(by decide : Neutral "object_id"), ?_⟩, trivial⟩
      exact ⟨clean_settings rfl clean_highScores nofun nofun ⟨rfl, rfl⟩, trivial⟩
    | 1, hn =>
      cases hn
      refine ⟨clean_settings rfl clean_stalls ?_ nofun ⟨rfl, rfl⟩, (by decide : Neutral "places")⟩
      rintro link ⟨⟩
      trivial
    | 2, hn =>
      cases hn
      exact clean_score _
    | id + 3, hn => cases hn

/-- The animals of one breed. -/
def dorset : Node where
  source := some (.table animals)
  predicate := some ⟨.compare "breed" .equal (.text "d'Orset?"), false, .and⟩
  history := true
  fields := some ["breed"]

/-- The animals of one breed that have high scores. -/
def scored : Graph :=
  (Graph.reverse .standard dorset).push score (some 0) admits_stall

theorem clean_scored : scored.Clean := by
  refine ⟨neutral_lookup, Geometry.balanced_simpleFeatures none, nofun, ?_⟩
  intro id n hn
  match id, hn with
  | 0, hn =>
    cases hn
    refine ⟨clean_settings rfl clean_animals nofun ?_ ⟨rfl, rfl⟩, (by decide : Neutral "breed")⟩
    rintro fields ⟨⟩
    decide
  | 1, hn =>
    cases hn
    exact clean_score _
  | id + 2, hn => cases hn

end Farm

namespace Graph

/-- The sample tree, with the values of the derived table in front of those of the filter, and a
smaller tree with its text. -/
theorem filled_compile_farm :
    (Farm.graph.Clean ∧ ∃ f, Farm.graph.compile {} = .ok f ∧
      f.values = [.date Environment.standard.maxDate, .integer 4, .date Farm.inspection, .integer 3,
        .date Environment.standard.maxDate, .text "angus", .integer 3] ∧
      placeholderCount f.sql = 7 ∧ Farm.graph.compileWritten {} = .ok f.filled) ∧
    Farm.scored.Clean ∧ ∃ f, Farm.scored.compile {} = .ok f ∧
      f.sql = "SELECT t0.\"breed\" AS \"t0_breed\", t1.\"object_id\" AS \"t1_object_id\"\n" ++
        "FROM farm.v_animal t0\n" ++
        "INNER JOIN (SELECT object_id FROM scores WHERE score > ?) t1 " ++
        "ON t0.\"object_id\" = t1.\"object_id\"\n" ++
        "WHERE (t0.\"breed\" = ?)" ∧
      f.values = [.integer 3, .text "d'Orset?"] ∧
      placeholderCount f.sql = 2 ∧ Farm.scored.compileWritten {} = .ok f.filled := by
  obtain ⟨f, hf⟩ : ∃ f, Farm.graph.compile {} = .ok f := ⟨_, rfl⟩
  obtain ⟨f', hf'⟩ : ∃ f, Farm.scored.compile {} = .ok f := ⟨_, rfl⟩
  obtain ⟨hcount, hfilled⟩ := filled_compile Farm.clean_graph hf
  obtain ⟨hcount', hfilled'⟩ := filled_compile Farm.clean_scored hf'
  refine ⟨⟨Farm.clean_graph, f, hf, ?_, ?_, hfilled⟩,
    Farm.clean_scored, f', hf', ?_, ?_, ?_, hfilled'⟩
  · cases hf
    rfl
  · rw [hcount]
    cases hf
    rfl
  · cases hf'
    decide +kernel
  · cases hf'
    rfl
  · rw [hcount']
    cases hf'
    rfl

end Graph

end ObjectQuery.Query
