import ObjectQuery.Proofs.Outcome
import ObjectQuery.Proofs.Walk
import ObjectQuery.Query.Compile

/-!
# Visits

What the compilation of a graph computes, said once for each of its functions.  A visit
collects everything that is looked up for one node; what the node contributes to the
statement follows from its visit alone.

## Main Definitions

* `Visit` — what is looked up for one node
* `Graph.Visits` — that the lookups of a graph give a visit
* `Visit.part` — the contribution of a visited node
* `Farm.graph` — a small tree in which every way of joining and filtering occurs

## Main Statements

* `Graph.compile_eq_ok_iff`, `Graph.statement_eq_ok_iff`, `Graph.part_eq_ok_iff` — success of
  a compilation, of its statement and of one node
* `Graph.planJoin_eq_ok_iff`, `Graph.heldRow_isSome_iff` — joins and link rows
-/

namespace ObjectQuery.Query

open ObjectQuery.Sql ObjectQuery.Calendar ObjectQuery.Outcome

/-! ### Keywords -/

/-- A vocabulary is that of a dialect exactly when the dialect has each of its words. -/
theorem vocabulary_eq_ok_iff {d : Dialect} {words : Vocabulary} :
    vocabulary d = .ok words ↔ ∀ k : Keyword, d.lookup? k.key = some (words k) := by
  unfold vocabulary Dialect.vocabulary
  cases hmissing : Keyword.all.find? fun k => (d.lookup? k.key).isNone with
  | none =>
    have hfound : ∀ k : Keyword, d.lookup? k.key = some ((d.lookup? k.key).getD "") := by
      intro k
      have hk := List.find?_eq_none.mp hmissing k (Keyword.mem_all k)
      rw [Option.isNone_iff_eq_none] at hk
      obtain ⟨word, hword⟩ := Option.ne_none_iff_exists'.mp hk
      rw [hword, Option.getD_some]
    constructor
    · intro h
      cases h
      exact hfound
    · intro h
      refine congrArg Except.ok ?_
      funext k
      rw [h k, Option.getD_some]
  | some missing =>
    have hnone := List.find?_some hmissing
    rw [Option.isNone_iff_eq_none] at hnone
    constructor
    · intro h
      cases h
    · intro h
      rw [h missing] at hnone
      cases hnone

/-! ### Scopes -/

/-- A scope keeps the alias that it is made for. -/
theorem NodeSettings.aliasName_scope (n : NodeSettings) (aliasName : String) (physical : Bool) :
    (n.scope aliasName physical).aliasName = aliasName := by
  unfold NodeSettings.scope
  cases n.table? with
  | none => rfl
  | some t => cases physical <;> rfl

/-! ### Links -/

/-- The plan of a link goes through the link table exactly when the link does. -/
theorem Link.exists_linkTable_iff {link : Link} {plan : JoinPlan} (h : link.plan = .ok plan) :
    (∃ linkType near, plan = .linkTable linkType near) ↔ link.usesLinkTable = true := by
  cases link with
  | linkRow near linkType =>
    cases linkType with
    | none => cases h
    | some linkType =>
      cases h
      exact ⟨fun _ => rfl, fun _ => ⟨linkType, near, rfl⟩⟩
  | custom left right =>
    obtain ⟨_, -, h⟩ := bind_eq_ok_iff.mp h
    cases h
    simp [Link.usesLinkTable]
  | child | parent | freeText | denormalized | denormalizedReverse | denormalizedFull =>
    cases h
    simp [Link.usesLinkTable]

namespace Graph

variable {g : Graph} {mode : Mode} {id : Nat}

/-- Only trees have isolated nodes, and these have partners. -/
theorem isolated_iff {n : NodeSettings} :
    g.isolated id n = true ↔
      g.direction = .reverse ∧ (g.partner? id).isSome = true ∧ n.join = .left := by
  rw [isolated, Bool.and_eq_true, Bool.and_eq_true, beq_iff_eq, beq_iff_eq, and_assoc]

/-- The link row of a plan through the link table, if there is a link table. -/
theorem linkRow_linkTable_eq_ok_iff {linkType : Int64} {near : LinkEnd} {target : NodeSettings}
    {previous : String} {row : Option LinkRow} :
    g.linkRow (.linkTable linkType near) target previous = .ok row ↔
      ∃ table, g.linkTable = some table ∧
        row = some ⟨table, LinkTable.aliasTo target.aliasName, linkType, near,
          target.join == .left⟩ := by
  unfold linkRow
  cases g.linkTable with
  | none => simp
  | some table => simp [eq_comm]

/-- A plan with a link row is one through the link table. -/
theorem linkRow_isSome_iff {plan : JoinPlan} {target : NodeSettings} {previous : String}
    {row : Option LinkRow} (h : g.linkRow plan target previous = .ok row) :
    row.isSome = true ↔ ∃ linkType near, plan = .linkTable linkType near := by
  cases plan with
  | linkTable linkType near =>
    obtain ⟨table, -, rfl⟩ := linkRow_linkTable_eq_ok_iff.mp h
    exact ⟨fun _ => ⟨linkType, near, rfl⟩, fun _ => rfl⟩
  | columns | freeText =>
    cases h
    simp

/-- Whether a plan gets its link row depends on the link table alone. -/
theorem exists_linkRow_eq_ok_iff {plan : JoinPlan} {target : NodeSettings} {previous : String} :
    (∃ row, g.linkRow plan target previous = .ok row) ↔
      ((∃ linkType near, plan = .linkTable linkType near) → g.linkTable.isSome = true) := by
  cases plan with
  | linkTable linkType near =>
    simp only [linkRow_linkTable_eq_ok_iff]
    constructor
    · rintro ⟨_, table, htable, -⟩ -
      rw [htable]
      rfl
    · intro h
      obtain ⟨table, htable⟩ := Option.isSome_iff_exists.mp (h ⟨linkType, near, rfl⟩)
      exact ⟨_, table, htable, rfl⟩
  | columns | freeText => simp [linkRow]

/-! ### Planned joins -/

/-- The first node is not joined. -/
theorem planJoin_of_none (h : g.partner? id = none) (n : NodeSettings) :
    g.planJoin mode id n = .ok none := by
  rw [planJoin, h]

/-- A node with a partner is joined by the link that one of the two keeps. -/
theorem planJoin_eq_ok_iff {partner : Nat} (h : g.partner? id = some partner) {n : NodeSettings}
    {join : Option PlannedJoin} :
    g.planJoin mode id n = .ok join ↔
      ∃ previous holder link plan row, g.node partner = .ok previous ∧
        g.node (g.direction.linkHolder id partner) = .ok holder ∧ holder.link = some link ∧
        link.plan = .ok plan ∧ g.linkRow plan n previous.aliasName = .ok row ∧
        join = some ⟨g.outerScope mode partner previous.toNodeSettings, plan, row⟩ := by
  rw [planJoin, h]
  simp only [bind_eq_ok_iff]
  constructor
  · rintro ⟨previous, hprevious, holder, hholder, hjoin⟩
    cases hlink : holder.link with
    | none =>
      rw [hlink] at hjoin
      cases hjoin
    | some link =>
      rw [hlink] at hjoin
      obtain ⟨plan, hplan, hjoin⟩ := bind_eq_ok_iff.mp hjoin
      obtain ⟨row, hrow, hjoin⟩ := bind_eq_ok_iff.mp hjoin
      cases hjoin
      exact ⟨previous, holder, link, plan, row, hprevious, hholder, hlink, hplan, hrow, rfl⟩
  · rintro ⟨previous, holder, link, plan, row, hprevious, hholder, hlink, hplan, hrow, rfl⟩
    refine ⟨previous, hprevious, holder, hholder, ?_⟩
    rw [hlink]
    exact bind_eq_ok_iff.mpr ⟨plan, hplan, bind_eq_ok_iff.mpr ⟨row, hrow, rfl⟩⟩

/-- A node is joined exactly when it has a partner. -/
theorem planJoin_isSome_iff {n : NodeSettings} {join : Option PlannedJoin}
    (h : g.planJoin mode id n = .ok join) :
    join.isSome = true ↔ (g.partner? id).isSome = true := by
  cases hp : g.partner? id with
  | none =>
    rw [planJoin_of_none hp] at h
    cases h
    rfl
  | some partner =>
    obtain ⟨_, _, _, _, _, -, -, -, -, -, rfl⟩ := (planJoin_eq_ok_iff hp).mp h
    exact ⟨fun _ => rfl, fun _ => rfl⟩

/-! ### Held link rows -/

/-- Whether a node keeps the link of an actual join, and that link goes through the link
table: in a chain the join of its successor, in a tree its own. -/
def holdsLinkRow (g : Graph) (id : Nat) (n : NodeSettings) : Bool :=
  n.link.any Link.usesLinkTable &&
    match g.direction with
    | .forward => decide (id + 1 < g.size)
    | .reverse => (g.partner? id).isSome

/-- The link row that leads out of a node of a chain. -/
theorem outgoingRow_eq_ok_iff (hd : g.direction = .forward) {n : NodeSettings}
    {held : Option LinkRow} :
    g.outgoingRow id n = .ok held ↔
      if id + 1 < g.size then
        match n.link with
        | none => held = none
        | some link => ∃ target plan, g.node (id + 1) = .ok target ∧ link.plan = .ok plan ∧
            g.linkRow plan target.toNodeSettings n.aliasName = .ok held
      else held = none := by
  rw [outgoingRow, head?_children_of_forward hd]
  by_cases hlt : id + 1 < g.size
  · rw [if_pos hlt, if_pos hlt]
    cases n.link with
    | none => simp [eq_comm]
    | some link =>
      simp only [bind_eq_ok_iff]
      constructor
      · rintro ⟨target, htarget, plan, hplan, hrow⟩
        exact ⟨target, plan, htarget, hplan, hrow⟩
      · rintro ⟨target, plan, htarget, hplan, hrow⟩
        exact ⟨target, htarget, plan, hplan, hrow⟩
  · rw [if_neg hlt, if_neg hlt]
    cases n.link with
    | none => simp [eq_comm]
    | some link => simp [eq_comm]

/-- The link row whose validity a node answers for is there exactly when the node keeps the
link of a join through the link table. -/
theorem heldRow_isSome_iff {n : Node} {join : Option PlannedJoin} {held : Option LinkRow}
    (hn : g.node? id = some n) (hjoin : g.planJoin mode id n.toNodeSettings = .ok join)
    (hheld : g.heldRow id n.toNodeSettings join = .ok held) :
    held.isSome = true ↔ g.holdsLinkRow id n.toNodeSettings = true := by
  unfold holdsLinkRow
  unfold heldRow at hheld
  cases hd : g.direction with
  | forward =>
    rw [hd] at hheld
    have h := (outgoingRow_eq_ok_iff hd).mp hheld
    by_cases hlt : id + 1 < g.size
    · rw [if_pos hlt] at h
      cases hlink : n.link with
      | none =>
        rw [hlink] at h
        cases h
        simp
      | some link =>
        rw [hlink] at h
        obtain ⟨target, plan, -, hplan, hrow⟩ := h
        rw [linkRow_isSome_iff hrow, Link.exists_linkTable_iff hplan]
        simp [hlt]
    · rw [if_neg hlt] at h
      cases h
      simp [hlt]
  | reverse =>
    rw [hd] at hheld
    cases hheld
    cases hp : g.partner? id with
    | none =>
      rw [planJoin_of_none hp] at hjoin
      cases hjoin
      simp
    | some partner =>
      obtain ⟨_, holder, link, plan, row, -, hholder, hlink, hplan, hrow, rfl⟩ :=
        (planJoin_eq_ok_iff hp).mp hjoin
      -- In a tree the node itself keeps the link.
      rw [hd, node_eq_ok_iff] at hholder
      have hsame : n = holder := Option.some.inj (hn.symm.trans hholder)
      subst hsame
      rw [hlink, Option.bind_some, linkRow_isSome_iff hrow, Link.exists_linkTable_iff hplan]
      simp

end Graph

/-! ### One node -/

/-- Connectives are put behind conditions without changing them. -/
theorem map_fst_connected (after : Connective) (conditions : List Expr) :
    (connected after conditions).map (·.1) = conditions := by
  induction conditions with
  | nil => rfl
  | cons condition rest ih =>
    cases rest with
    | nil => rfl
    | cons next rest =>
      rw [connected, List.map_cons, ih]
      exact List.cons_ne_nil next rest

/-- What is looked up for one node. -/
structure Visit where
  node : Node
  source : Source
  join : Option PlannedJoin
  held : Option LinkRow
  predicate : Option Expr
  own : List SelectItem

namespace Visit

/-- The conditions of a visited node: its criterion, then the validity of its link row. -/
def filters (v : Visit) (maxDate : DateTime) : List Expr :=
  v.predicate.toList ++
    (v.held.bind fun row => row.validity v.node.toNodeSettings maxDate).toList

/-- The joins of a visited node. -/
def joins (v : Visit) (g : Graph) (mode : Mode) (id : Nat) : List Join :=
  let n := v.node.toNodeSettings
  let inner := v.node.scope v.node.aliasName mode.physical
  match v.join with
  | none => []
  | some j =>
    if g.isolated id n then
      [derivedJoin (g.context mode) n v.source inner j (v.filters g.environment.maxDate)]
    else inlineJoins (g.context mode) n v.source inner j

section Joins

variable {v : Visit} {g : Graph} {mode : Mode} {id : Nat}

/-- A node without a partner has no joins. -/
theorem joins_of_none (h : v.join = none) : v.joins g mode id = [] := by
  rw [joins, h]

/-- An isolated node is joined as a derived table around its conditions. -/
theorem joins_of_isolated {j : PlannedJoin} (h : v.join = some j)
    (hiso : g.isolated id v.node.toNodeSettings = true) :
    v.joins g mode id = [derivedJoin (g.context mode) v.node.toNodeSettings v.source
      (v.node.scope v.node.aliasName mode.physical) j (v.filters g.environment.maxDate)] := by
  rw [joins, h]
  exact if_pos hiso

/-- Any other node with a partner is joined in line. -/
theorem joins_of_inline {j : PlannedJoin} (h : v.join = some j)
    (hiso : g.isolated id v.node.toNodeSettings = false) :
    v.joins g mode id = inlineJoins (g.context mode) v.node.toNodeSettings v.source
      (v.node.scope v.node.aliasName mode.physical) j := by
  rw [joins, h]
  exact if_neg (by rw [hiso]; exact Bool.false_ne_true)

end Joins

/-- What a visited node contributes to the statement. -/
def part (v : Visit) (g : Graph) (mode : Mode) (id : Nat) : Part where
  joins := v.joins g mode id
  conditions :=
    if g.isolated id v.node.toNodeSettings then []
    else connected v.node.connectiveAfter (v.filters g.environment.maxDate)
  items :=
    if g.projected id then v.own ++ g.linkItems id v.node.toNodeSettings v.join else []
  order := v.node.sort.map fun field =>
    ⟨(g.outerScope mode id v.node.toNodeSettings).column field.field, field.descending⟩

end Visit

namespace Graph

/-- The lookups for one node of a graph give a visit. -/
structure Visits (g : Graph) (mode : Mode) (id : Nat) (v : Visit) : Prop where
  node : g.node? id = some v.node
  source : v.node.requireSource = .ok v.source
  join : g.planJoin mode id v.node.toNodeSettings = .ok v.join
  held : g.heldRow id v.node.toNodeSettings v.join = .ok v.held
  predicate : v.node.resolvePredicate (g.context mode)
    (v.node.scope v.node.aliasName mode.physical) = .ok v.predicate
  own : v.node.items (g.outerScope mode id v.node.toNodeSettings) mode.geometry = .ok v.own

variable {g : Graph} {mode : Mode} {id : Nat}

/-- A node contributes exactly the part of its visit. -/
theorem part_eq_ok_iff {p : Part} :
    g.part mode id = .ok p ↔ ∃ v, g.Visits mode id v ∧ p = v.part g mode id := by
  unfold part
  simp only [bind_eq_ok_iff]
  constructor
  · rintro ⟨n, hn, source, hsource, join, hjoin, held, hheld, predicate, hpredicate, own, hown, h⟩
    cases h
    exact ⟨⟨n, source, join, held, predicate, own⟩,
      ⟨node_eq_ok_iff.mp hn, hsource, hjoin, hheld, hpredicate, hown⟩, rfl⟩
  · rintro ⟨v, h, rfl⟩
    exact ⟨v.node, node_eq_ok_iff.mpr h.node, v.source, h.source, v.join, h.join, v.held, h.held,
      v.predicate, h.predicate, v.own, h.own, rfl⟩

/-! ### Whole graphs -/

/-- The statement of a graph, from the parts of its nodes in the order of the walk. -/
def assemble (root : TableRef) (parts : List Part) : Statement where
  items := parts.flatMap (·.items)
  root := root
  joins := parts.flatMap (·.joins)
  filter := Chain.ofParts? (parts.flatMap (·.conditions))
  order := parts.flatMap (·.order)

/-- A graph has a statement exactly when its first node has a source and every node
contributes its part. -/
theorem statement_eq_ok_iff {q : Statement} :
    g.statement mode = .ok q ↔
      ∃ root source parts, g.node? 0 = some root ∧ root.requireSource = .ok source ∧
        g.walk.mapM (g.part mode) = .ok parts ∧
        q = assemble (source.tableRef root.aliasName mode.physical) parts := by
  unfold statement
  simp only [bind_eq_ok_iff, node_eq_ok_iff]
  constructor
  · rintro ⟨root, hroot, source, hsource, parts, hparts, h⟩
    cases h
    exact ⟨root, source, parts, hroot, hsource, hparts, rfl⟩
  · rintro ⟨root, source, parts, hroot, hsource, hparts, rfl⟩
    exact ⟨root, hroot, source, hsource, parts, hparts, rfl⟩

/-- A graph with a statement, the keywords of its dialect and a node is rendered. -/
theorem compile_eq_ok_iff {f : Fragment} :
    g.compile mode = .ok f ↔
      0 < g.size ∧ ∃ words q, vocabulary g.environment.dialect = .ok words ∧
        g.statement mode = .ok q ∧ f = q.render ⟨words, g.environment.geometry⟩ := by
  unfold compile
  by_cases hempty : g.size = 0
  · rw [if_pos hempty]
    simp [hempty]
  · rw [if_neg hempty]
    simp only [bind_eq_ok_iff]
    constructor
    · rintro ⟨words, hwords, q, hq, h⟩
      cases h
      exact ⟨Nat.pos_of_ne_zero hempty, words, q, hwords, hq, rfl⟩
    · rintro ⟨-, words, q, hwords, hq, rfl⟩
      exact ⟨words, hwords, q, hq, rfl⟩

end Graph

/-! ### A small tree

Animals with the stalls they are linked to, if any, and with a score.  The general statements
are tried on this graph: it has a link row, an isolated node, two sub-queries, a nested node
and a status with a quote and a question mark. -/

namespace Farm

/-- The type of animals. -/
def animals : Catalog.Table :=
  .ofFields 2 "ANIMAL" "farm" "animal" [⟨"breed", .text⟩]

/-- The type of stalls. -/
def stalls : Catalog.Table :=
  .ofFields 3 "STALL" "farm" "stall" [⟨"places", .integer⟩]

/-- The animals with a high score. -/
def highScores : SubQuery :=
  ⟨"SELECT object_id FROM scores WHERE score > ?", ["object_id"], [.integer 3]⟩

/-- The day on which the links of the stalls are looked at. -/
def inspection : DateTime := ⟨2020, 1, 1, 0, 0, 0, 0, by decide⟩

/-- The animals of a breed, or without a high score. -/
def animal : Node where
  source := some (.table animals)
  predicate := some (.group [⟨.compare "breed" .equal (.text "angus"), false, .or⟩,
    ⟨.inSubquery "object_id" { source := some (.subQuery highScores) }, true, .and⟩])

/-- The large stalls, linked to animals. -/
def stall : Node where
  source := some (.table stalls)
  join := .left
  link := some (.linkRow .first (some 5))
  linkReferenceDate := some inspection
  predicate := some ⟨.compare "places" .greater (.integer 4), false, .and⟩

/-- The scores of animals. -/
def score : Node where
  source := some (.subQuery highScores)
  link := some (.denormalized "object_id")

/-- The stalls stand below the first node of a tree. -/
theorem admits_stall : Direction.reverse.Admits 1 (some 0) := Nat.zero_le 0

/-- So do the scores. -/
theorem admits_score : Direction.reverse.Admits 2 (some 0) := Nat.zero_le 1

/-- Animals with their stalls and scores. -/
def graph : Graph :=
  let herd := (Graph.reverse .standard animal).push stall (some 0) (Nat.zero_le 0)
  { herd.push score (some 0) (Nat.zero_le 1) with
    linkTable := some ⟨"core", "link", {}⟩
    statuses := ["VALID", "it's?"] }

/-- The graph compiles. -/
theorem exists_compile_eq_ok : ∃ f, graph.compile {} = .ok f := ⟨_, rfl⟩

end Farm

end ObjectQuery.Query
