import ObjectQuery.Proofs.Compilable

/-!
# Settings that no compilation reads

A node carries settings for several roles at once: a node of a graph, a node inside a condition
and a node alone.  What only the other roles need is erased here, and every step of a compilation
gives the same result for a graph and for the graph without these settings.

## Main Definitions

* `Condition.stripped`, `Criterion.stripped`, `Node.strippedNested` — a condition whose nodes have
  nothing but what a select reads
* `Graph.usesLinkOf` — the node that keeps the link of a join
* `Graph.stripped` — a graph without the settings that no compilation reads

## Main Statements

* `Criterion.resolve_stripped`, `Node.resolveNested_stripped` — conditions and the nodes inside
* `Graph.planJoin_stripped`, `Graph.heldRow_stripped` — joins and link rows
* `Graph.part_stripped` — what one node contributes
* `Graph.compile_of_stripped` — graphs that differ in nothing else compile alike

## Design Notes

The link between two nodes of a chain is kept by the first of them, and that between a node of a
tree and its parent by the node.  The date of a link row is that of the node which keeps the
link, so it is erased from all nodes that keep no link of a join or one without a link row.
-/

namespace ObjectQuery.Query

open ObjectQuery.Sql ObjectQuery.Outcome

/-! ### Nodes inside conditions -/

/-- The settings that a node inside a condition is selected by. -/
def NodeSettings.strippedNested (n : NodeSettings) : NodeSettings where
  source := n.source
  givenAlias := n.givenAlias
  position := n.position
  history := n.history
  referenceDate := n.referenceDate
  join := n.join
  fields := n.fields

mutual

/-- The condition without the settings that its nodes do not need. -/
def Condition.stripped : Condition → Condition
  | .inSubquery field query => .inSubquery field query.strippedNested
  | .group members => .group (Criterion.strippedAll members)
  | .compare field comparison value => .compare field comparison value
  | .compareFields field comparison other => .compareFields field comparison other
  | .isNull field => .isNull field
  | .between field low high => .between field low high
  | .valueBetween value low high => .valueBetween value low high
  | .touches field box => .touches field box
  | .inList field values => .inList field values
  | .linked near filter => .linked near filter
  | .freeText sql values => .freeText sql values

/-- The criterion without the settings that its nodes do not need. -/
def Criterion.stripped : Criterion → Criterion
  | ⟨condition, negated, connective⟩ => ⟨condition.stripped, negated, connective⟩

/-- The members of a group without the settings that their nodes do not need. -/
def Criterion.strippedAll : List Criterion → List Criterion
  | [] => []
  | member :: rest => member.stripped :: Criterion.strippedAll rest

/-- A node inside a condition without the settings that it does not need, the connective behind
its criterion included. -/
def Node.strippedNested : Node → Node
  | ⟨settings, predicate⟩ => ⟨settings.strippedNested, Criterion.strippedOwn predicate⟩

/-- The criterion of a node inside a condition, with no connective of its own behind it. -/
def Criterion.strippedOwn : Option Criterion → Option Criterion
  | none => none
  | some predicate => some (predicate.stripped.connectedBy .and)

end

section Resolution

variable (cx : Context)

mutual

/-- A condition resolves without the settings that its nodes do not need. -/
theorem Condition.resolve_stripped (scope : Scope) :
    ∀ c : Condition, c.stripped.resolve cx scope = c.resolve cx scope
  | .inSubquery field query => by
    rw [Condition.stripped, Condition.resolve, Condition.resolve, query.resolveNested_stripped]
  | .group members => by
    rw [Condition.stripped, Condition.resolve, Condition.resolve,
      Criterion.resolveParts_stripped scope members]
  | .compare _ _ _ | .compareFields _ _ _ | .isNull _ | .between _ _ _ | .valueBetween _ _ _
  | .touches _ _ | .inList _ _ | .linked _ _ | .freeText _ _ => by rw [Condition.stripped]

theorem Criterion.resolve_stripped (scope : Scope) :
    ∀ c : Criterion, c.stripped.resolve cx scope = c.resolve cx scope
  | ⟨condition, negated, connective⟩ => by
    rw [Criterion.stripped, Criterion.resolve, Criterion.resolve,
      condition.resolve_stripped scope]

theorem Criterion.resolveParts_stripped (scope : Scope) : ∀ members : List Criterion,
    Criterion.resolveParts cx scope (Criterion.strippedAll members) =
      Criterion.resolveParts cx scope members
  | [] => by rw [Criterion.strippedAll]
  | ⟨condition, negated, connective⟩ :: rest => by
    rw [Criterion.strippedAll, Criterion.resolveParts, Criterion.resolveParts,
      Criterion.resolve_stripped scope, Criterion.resolveParts_stripped scope rest]
    rfl

/-- A node inside a condition is selected without the settings that it does not need. -/
theorem Node.resolveNested_stripped (defaultAlias : String) : ∀ n : Node,
    n.strippedNested.resolveNested cx defaultAlias = n.resolveNested cx defaultAlias
  | ⟨settings, predicate⟩ => by
    rw [Node.strippedNested, Node.resolveNested, Node.resolveNested]
    simp only [Criterion.resolveOwn_stripped]
    rfl

theorem Criterion.resolveOwn_stripped (scope : Scope) (settings : NodeSettings) :
    ∀ predicate : Option Criterion,
      Criterion.resolveOwn cx scope settings.strippedNested (Criterion.strippedOwn predicate) =
        Criterion.resolveOwn cx scope settings predicate
  | none => by
    rw [Criterion.strippedOwn, Criterion.resolveOwn, Criterion.resolveOwn]
    rfl
  | some ⟨condition, negated, connective⟩ => by
    have hown := Criterion.resolve_stripped scope ⟨condition, negated, connective⟩
    rw [Criterion.stripped, Criterion.resolve, Criterion.resolve] at hown
    rw [Criterion.strippedOwn, Criterion.resolveOwn, Criterion.resolveOwn, Criterion.stripped,
      Criterion.connectedBy, Criterion.resolve, Criterion.resolve, hown]
    rfl

end

end Resolution

/-! ### Nodes of a graph -/

/-- The settings of a node of a graph without those for a node alone; its link, and the date of
its link row, only if it keeps the link of a join. -/
def NodeSettings.strippedAt (n : NodeSettings) (used : Bool) : NodeSettings :=
  { n with
    link := if used then n.link else none
    linkReferenceDate :=
      if used && n.link.any Link.usesLinkTable then n.linkReferenceDate else none
    standalone := {} }

/-- A node of a graph without the settings that no compilation reads. -/
def Node.strippedAt (n : Node) (used : Bool) : Node :=
  { n with
    toNodeSettings := n.toNodeSettings.strippedAt used
    predicate := n.predicate.map Criterion.stripped }

/-- What the rows of a node have to meet. -/
theorem Node.resolvePredicate_stripped (cx : Context) (scope : Scope) (n : Node) (used : Bool) :
    (n.strippedAt used).resolvePredicate cx scope = n.resolvePredicate cx scope := by
  obtain ⟨settings, predicate⟩ := n
  cases predicate with
  | none => rfl
  | some predicate =>
    show Criterion.resolveOwn cx scope (settings.strippedAt used) (some predicate.stripped) =
      Criterion.resolveOwn cx scope settings (some predicate)
    rw [Criterion.resolveOwn, Criterion.resolveOwn, predicate.resolve_stripped]
    rfl

theorem Node.toNodeSettings_strippedAt (n : Node) (used : Bool) :
    (n.strippedAt used).toNodeSettings = n.toNodeSettings.strippedAt used := rfl

theorem Criterion.connective_stripped (c : Criterion) : c.stripped.connective = c.connective := by
  obtain ⟨condition, negated, connective⟩ := c
  rw [Criterion.stripped]

/-- The connective behind the conditions of a node of a graph stays. -/
theorem Node.connectiveAfter_stripped (n : Node) (used : Bool) :
    (n.strippedAt used).connectiveAfter = n.connectiveAfter := by
  obtain ⟨settings, predicate⟩ := n
  cases predicate with
  | none => rfl
  | some predicate =>
    show (settings.connective <|> some predicate.stripped.connective).getD .and = _
    rw [predicate.connective_stripped]
    rfl

namespace Graph

/-- Whether a join uses the link of a node: in a chain that of its successor, in a tree its
own. -/
def usesLinkOf (g : Graph) (id : Nat) : Bool :=
  match g.direction with
  | .forward => decide (id + 1 < g.size)
  | .reverse => (g.partner? id).isSome

/-- The graph without the settings that no compilation reads. -/
def stripped (g : Graph) : Graph :=
  { g with
    slots := g.slots.mapIdx fun id slot =>
      { slot with node := slot.node.strippedAt (g.usesLinkOf id) }
    admitted := by
      intro id s hs
      rw [List.getElem?_mapIdx, Option.map_eq_some_iff] at hs
      obtain ⟨slot, hslot, rfl⟩ := hs
      exact g.admitted id slot hslot }

variable (g : Graph) (m : Mode)

theorem size_stripped : g.stripped.size = g.size := List.length_mapIdx

theorem partner?_stripped (id : Nat) : g.stripped.partner? id = g.partner? id := by
  unfold partner? stripped
  rw [List.getElem?_mapIdx, Option.bind_map]
  rfl

theorem node?_stripped (id : Nat) :
    g.stripped.node? id = (g.node? id).map (·.strippedAt (g.usesLinkOf id)) := by
  unfold node? stripped
  rw [List.getElem?_mapIdx, Option.map_map, Option.map_map]
  rfl

theorem node_stripped (id : Nat) :
    g.stripped.node id = (g.node id).map (·.strippedAt (g.usesLinkOf id)) := by
  unfold Graph.node
  rw [node?_stripped]
  cases g.node? id <;> rfl

theorem children_stripped (id : Nat) : g.stripped.children id = g.children id := by
  unfold children
  simp only [size_stripped, partner?_stripped]

/-- The nodes are walked in the same order. -/
theorem walk_stripped : g.stripped.walk = g.walk :=
  walk_congr g.size_stripped g.partner?_stripped

/-- The nodes read tables of the same types. -/
theorem map_objectType_stripped :
    g.stripped.slots.map (fun s => s.node.objectType?) =
      g.slots.map fun s => s.node.objectType? := by
  apply List.ext_getElem?
  intro id
  show ((g.slots.mapIdx _).map _)[id]? = _
  rw [List.getElem?_map, List.getElem?_mapIdx, List.getElem?_map, Option.map_map]
  rfl

/-- The same nodes have select items. -/
theorem projected_stripped (id : Nat) : g.stripped.projected id = g.projected id := by
  have hany : g.stripped.anyReturned = g.anyReturned := by
    rw [Bool.eq_iff_iff, anyReturned_iff, anyReturned_iff]
    simp only [node?_stripped, Option.any_map]
    rfl
  have hfirst : ∀ type, g.stripped.slots.findIdx? (fun s => s.node.objectType? == some type) =
      g.slots.findIdx? fun s => s.node.objectType? == some type := by
    intro type
    have hfound := congrArg (List.findIdx? (· == some type)) g.map_objectType_stripped
    rwa [List.findIdx?_map, List.findIdx?_map] at hfound
  have hpinned : g.stripped.pinned? = g.pinned? := by
    unfold pinned?
    simp only [hfirst]
    rfl
  unfold projected
  rw [hany, hpinned, node?_stripped, Option.any_map]
  rfl

theorem isolated_stripped (id : Nat) (n : NodeSettings) (used : Bool) :
    g.stripped.isolated id (n.strippedAt used) = g.isolated id n := by
  rw [isolated, partner?_stripped]
  rfl

theorem outerScope_stripped (id : Nat) (n : NodeSettings) (used : Bool) :
    g.stripped.outerScope m id (n.strippedAt used) = g.outerScope m id n := by
  rw [outerScope, isolated_stripped]
  rfl

theorem linkItems_stripped (id : Nat) (n : NodeSettings) (used : Bool)
    (join : Option PlannedJoin) :
    g.stripped.linkItems id (n.strippedAt used) join = g.linkItems id n join := by
  unfold linkItems
  rw [isolated_stripped]
  rfl

/-! ### Joins -/

/-- A join uses the link of the node that keeps it. -/
theorem usesLinkOf_linkHolder {id partner : Nat} (hp : g.partner? id = some partner) :
    g.usesLinkOf (g.direction.linkHolder id partner) = true := by
  unfold usesLinkOf
  cases hd : g.direction with
  | forward =>
    have hnext : partner + 1 < g.size := eq_succ_of_partner? hd hp ▸ (partner?_lt hp).2
    exact decide_eq_true hnext
  | reverse =>
    show (g.partner? id).isSome = true
    rw [hp]
    rfl

/-- Joins are planned from the links of the nodes that keep one. -/
theorem planJoin_stripped (id : Nat) (n : NodeSettings) (used : Bool) :
    g.stripped.planJoin m id (n.strippedAt used) = g.planJoin m id n := by
  unfold planJoin
  rw [partner?_stripped]
  cases hp : g.partner? id with
  | none => rfl
  | some partner =>
    have hused := g.usesLinkOf_linkHolder hp
    simp only [node_stripped]
    cases g.node partner with
    | error e => rfl
    | ok previous =>
      have hscope : g.stripped.outerScope m partner
          (previous.strippedAt (g.usesLinkOf partner)).toNodeSettings =
            g.outerScope m partner previous.toNodeSettings :=
        g.outerScope_stripped m partner previous.toNodeSettings (g.usesLinkOf partner)
      show (Except.map (·.strippedAt (g.usesLinkOf (g.direction.linkHolder id partner)))
          (g.node (g.direction.linkHolder id partner)) >>= _) =
        (g.node (g.direction.linkHolder id partner) >>= _)
      rw [hused]
      rw [← hscope]
      cases g.node (g.direction.linkHolder id partner) <;> rfl

/-- So is the link row that a node of a chain leads to its successor with. -/
theorem outgoingRow_stripped (hd : g.direction = .forward) (id : Nat) (n : NodeSettings) :
    g.stripped.outgoingRow id (n.strippedAt (g.usesLinkOf id)) = g.outgoingRow id n := by
  unfold outgoingRow
  rw [children_stripped, head?_children_of_forward hd]
  by_cases hlt : id + 1 < g.size
  · have hused : g.usesLinkOf id = true := by
      rw [usesLinkOf, hd]
      exact decide_eq_true hlt
    rw [if_pos hlt, hused]
    have hlink : (n.strippedAt true).link = n.link := rfl
    rw [hlink]
    cases n.link with
    | none => rfl
    | some link =>
      show (g.stripped.node (id + 1) >>= _) = (g.node (id + 1) >>= _)
      rw [node_stripped]
      cases g.node (id + 1) <;> rfl
  · rw [if_neg hlt]

theorem heldRow_stripped (id : Nat) (n : NodeSettings) (join : Option PlannedJoin) :
    g.stripped.heldRow id (n.strippedAt (g.usesLinkOf id)) join = g.heldRow id n join := by
  unfold heldRow
  show (match g.direction with | .forward => _ | .reverse => _) = _
  cases hd : g.direction with
  | reverse => rfl
  | forward => exact g.outgoingRow_stripped hd id n

/-- The link row that a node answers for is looked at on the date of the node. -/
theorem validity_stripped {id : Nat} {n : Node} {join : Option PlannedJoin}
    {held : Option LinkRow} (hn : g.node? id = some n)
    (hjoin : g.planJoin m id n.toNodeSettings = .ok join)
    (hheld : g.heldRow id n.toNodeSettings join = .ok held) (maxDate : Calendar.DateTime) :
    (held.bind fun row => row.validity (n.toNodeSettings.strippedAt (g.usesLinkOf id)) maxDate) =
      held.bind fun row => row.validity n.toNodeSettings maxDate := by
  cases held with
  | none => rfl
  | some row =>
    have hholds : (n.link.any Link.usesLinkTable && g.usesLinkOf id) = true :=
      (heldRow_isSome_iff hn hjoin hheld).mp rfl
    have hused : (g.usesLinkOf id && n.link.any Link.usesLinkTable) = true := by
      rw [Bool.and_comm, hholds]
    rw [NodeSettings.strippedAt, hused]
    rfl

/-! ### Whole graphs -/

/-- What a node contributes. -/
theorem part_stripped (id : Nat) : g.stripped.part m id = g.part m id := by
  unfold part
  rw [node_stripped]
  cases hnode : g.node id with
  | error e => rfl
  | ok n =>
    have hn : g.node? id = some n := node_eq_ok_iff.mp hnode
    refine bind_congr_of_ok (x := n.requireSource) rfl fun source _ => ?_
    refine bind_congr_of_ok (g.planJoin_stripped m id n.toNodeSettings (g.usesLinkOf id))
      fun join hjoin => ?_
    refine bind_congr_of_ok (g.heldRow_stripped id n.toNodeSettings join) fun held hheld => ?_
    refine bind_congr_of_ok (n.resolvePredicate_stripped (g.context m)
      (n.scope n.aliasName m.physical) (g.usesLinkOf id)) fun predicate _ => ?_
    have hcontext : g.stripped.context m = g.context m := rfl
    have hvalidity := g.validity_stripped m hn hjoin hheld (g.context m).maxDate
    have houter := g.outerScope_stripped m id n.toNodeSettings (g.usesLinkOf id)
    have hisolated := g.isolated_stripped id n.toNodeSettings (g.usesLinkOf id)
    have hlinkItems := g.linkItems_stripped id n.toNodeSettings (g.usesLinkOf id) join
    have hconnective := n.connectiveAfter_stripped (g.usesLinkOf id)
    simp only [hcontext, Node.toNodeSettings_strippedAt, hvalidity, houter, hisolated, hlinkItems,
      hconnective, projected_stripped]
    rfl

theorem statement_stripped : g.stripped.statement m = g.statement m := by
  unfold statement
  rw [node_stripped, walk_stripped]
  have hparts : g.stripped.part m = g.part m := funext (g.part_stripped m)
  rw [hparts]
  cases g.node 0 <;> rfl

/-- A graph compiles without the settings that no compilation reads. -/
theorem compile_stripped : g.stripped.compile m = g.compile m := by
  unfold compile
  rw [size_stripped, statement_stripped]
  rfl

/-- Graphs compile to the same text and values, or fail with the same error, if they differ in
nothing but the settings that no compilation reads: those of their nodes for nodes alone; the
links of nodes that keep no link of a join, planned or not; the dates of link rows of nodes that
keep no link of a join, or one without a link row; and whatever nodes inside conditions are not
selected by. -/
theorem compile_of_stripped {g g' : Graph} (h : g.stripped = g'.stripped) (m : Mode) :
    g.compile m = g'.compile m := by
  rw [← g.compile_stripped, h, g'.compile_stripped]

end Graph

/-! ### A cluttered tree -/

namespace Farm

/-- The settings of a node alone that asks for stored links. -/
def stored : Standalone where
  environment := some ⟨0, .standard⟩
  linkTable := some ⟨"attic", "link", {}⟩
  statuses := ["STORED"]

/-- The high scores, with everything that a node inside a condition does not need. -/
def clutteredScores : Node where
  source := some (.subQuery highScores)
  connective := some .or
  linkReferenceDate := some inspection
  link := some (.custom ["a"] [])
  sort := [⟨"score", true⟩]
  returned := true
  showsLinkColumns := true
  standalone := stored

/-- The sample tree, with a link of its root that has no plan, dates of link rows where there are
none, and settings for nodes alone. -/
def cluttered : Graph :=
  let root : Node := { animal with
    link := some (.linkRow .first none)
    linkReferenceDate := some inspection
    standalone := stored
    predicate := some (.group [⟨.compare "breed" .equal (.text "angus"), false, .or⟩,
      ⟨.inSubquery "object_id" clutteredScores, true, .and⟩]) }
  let herd := (Graph.reverse .standard root).push stall (some 0) admits_stall
  { herd.push { score with linkReferenceDate := some inspection } (some 0) admits_score with
    linkTable := graph.linkTable
    statuses := graph.statuses }

end Farm

/-- The clutter changes nothing. -/
theorem Graph.compile_of_stripped_farm :
    Farm.graph.stripped = Farm.cluttered.stripped ∧
      Farm.graph.compile {} = Farm.cluttered.compile {} := by
  have hsame : Farm.graph.stripped = Farm.cluttered.stripped := rfl
  exact ⟨hsame, compile_of_stripped hsame {}⟩

end ObjectQuery.Query
