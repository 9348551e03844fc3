import ObjectQuery.Proofs.Effective
import ObjectQuery.Proofs.Visit

/-!
# The filter of a statement

Every node that is not isolated brings the text of its criterion, and the validity of the link
row that it holds.  The filter is made of these texts alone, in the order of the walk.  Nodes
that bring nothing leave no trace: the connective in front of a text is that of the last node
that brought one.

## Main Definitions

* `Node.following` — the connective behind what a node brings
* `Graph.KeepsInside` — the nodes that bring nothing, since they are isolated
* `Graph.filterBlock` — the texts that a node brings
* `Block.clause` — the filter made of the texts of all nodes

## Main Statements

* `Node.connectiveAfter_eq`, `Graph.isolated_iff_keepsInside` — the two rules are those by which
  a graph compiles
* `Graph.filterBlock_eq_ok` — a node brings the texts of its conditions
* `chainText_of_rendered` — texts with connectives, node by node
* `Graph.compile_clause` — the filter of a compiled graph
-/

namespace ObjectQuery.Query

open ObjectQuery.Sql ObjectQuery.Outcome

/-! ### Texts of nodes -/

/-- What a node brings to the filter of a statement: texts, and the connective behind them. -/
structure Block where
  texts : List Fragment
  after : Connective

namespace Block

/-- The texts of one node hold together. -/
def text (w : Vocabulary) (b : Block) : Fragment :=
  .join (" " ++ w .conjunction ++ " ") b.texts

/-- The texts of nodes, one behind the other with the connective of the first between them. -/
def joined (w : Vocabulary) : List Block → Fragment
  | [] => .empty
  | [last] => last.text w
  | block :: rest =>
    block.text w ++ .text (" " ++ w block.after.keyword ++ " ") ++ joined w rest

/-- The nodes that bring texts. -/
def filled (blocks : List Block) : List Block := blocks.filter fun b => !b.texts.isEmpty

/-- The filter of a statement on a line of its own, if any node brings texts. -/
def clause (w : Vocabulary) (blocks : List Block) : Fragment :=
  if (filled blocks).isEmpty then .empty
  else .text ("\n" ++ w .whereFilter ++ " ") ++ joined w (filled blocks)

end Block

/-- The connective behind what a node brings: the one that was given to the node, else that of its
criterion, else `AND`. -/
def Node.following (n : Node) : Connective :=
  match n.connective, n.predicate with
  | some given, _ => given
  | none, some criterion => criterion.connective
  | none, none => .and

theorem Node.connectiveAfter_eq (n : Node) : n.connectiveAfter = n.following := by
  unfold connectiveAfter following
  cases n.connective with
  | some given => rfl
  | none => cases n.predicate <;> rfl

namespace Graph

/-- A node keeps its conditions inside if it is a left-joined node of a tree, and not the first
one. -/
def KeepsInside (g : Graph) (id : Nat) (n : Node) : Prop :=
  g.direction = .reverse ∧ id ≠ 0 ∧ n.join = .left

instance (g : Graph) (id : Nat) (n : Node) : Decidable (g.KeepsInside id n) :=
  inferInstanceAs (Decidable (_ ∧ _ ∧ _))

/-- Those are the isolated nodes: every node but the first has a partner. -/
theorem isolated_iff_keepsInside {g : Graph} {id : Nat} {n : Node} (hn : g.node? id = some n) :
    g.isolated id n.toNodeSettings = true ↔ g.KeepsInside id n := by
  rw [isolated_iff, KeepsInside, partner?_isSome_iff (exists_node?_iff.mp ⟨n, hn⟩)]

variable (g : Graph) (mode : Mode)

/-- The node that is joined through the link row that a node holds: in a chain its successor,
in a tree the node itself, unless it is the first one. -/
def heldTarget? (id : Nat) (n : Node) : Option Node :=
  if n.link.any Link.usesLinkTable then
    match g.direction with
    | .forward => g.node? (id + 1)
    | .reverse => if id = 0 then none else some n
  else none

/-- The text of the validity of the link row that a node holds.  The row has the alias of the
node that is joined through it, and may be missing if that is left-joined; the date is that of
the node that holds it. -/
def linkText (s : Spelling) (id : Nat) (n : Node) : Except CompileError (Option Fragment) :=
  match g.linkTable, g.heldTarget? id n with
  | some table, some target =>
    if n.history then .ok none
    else
      (Criterion.validity table.columns.validFrom table.columns.validTo n.linkReferenceDate
        (target.join == .left) g.environment.maxDate).renderEnclosed (g.context mode)
        (.uniform (LinkTable.aliasTo target.aliasName)) s
  | _, _ => .ok none

/-- The text of what the rows of a node have to meet. -/
def ownText (s : Spelling) (n : Node) : Except CompileError (Option Fragment) :=
  match n.effectivePredicate g.environment.maxDate with
  | none => .ok none
  | some c => c.renderEnclosed (g.context mode) (n.scope n.aliasName mode.physical) s

/-- The texts that a node brings to the filter; none if it keeps its conditions inside. -/
def filterBlock (s : Spelling) (id : Nat) : Except CompileError Block := do
  let n ← g.node id
  let own ← g.ownText mode s n
  let link ← g.linkText mode s id n
  return ⟨if g.KeepsInside id n then [] else own.toList ++ link.toList, n.following⟩

end Graph

/-! ### Conditions with connectives -/

/-- The text of conditions, each with the connective to the next one. -/
def chainText (s : Spelling) : List (Expr × Connective) → Fragment
  | [] => .empty
  | [(last, _)] => last.render s
  | (condition, next) :: rest =>
    condition.render s ++ .text (" " ++ s.words next.keyword ++ " ") ++ chainText s rest

section Rows

variable {s : Spelling}

theorem chainText_cons (condition : Expr) (next : Connective) {rest : List (Expr × Connective)}
    (h : rest ≠ []) :
    chainText s ((condition, next) :: rest) =
      condition.render s ++ .text (" " ++ s.words next.keyword ++ " ") ++ chainText s rest := by
  cases rest with
  | nil => exact absurd rfl h
  | cons part rest => rfl

theorem joined_cons (block : Block) {rest : List Block} (h : rest ≠ []) (w : Vocabulary) :
    Block.joined w (block :: rest) =
      block.text w ++ .text (" " ++ w block.after.keyword ++ " ") ++ Block.joined w rest := by
  cases rest with
  | nil => exact absurd rfl h
  | cons next rest => rfl

/-- The chain of conditions has their text. -/
theorem render_of_ofParts? (s : Spelling) (parts : List (Expr × Connective)) :
    (Chain.ofParts? parts = none ∧ parts = []) ∨
    ∃ chain, Chain.ofParts? parts = some chain ∧ parts ≠ [] ∧
      chain.render s = chainText s parts := by
  induction parts with
  | nil => exact Or.inl ⟨rfl, rfl⟩
  | cons part rest ih =>
    obtain ⟨condition, next⟩ := part
    rw [Chain.ofParts?]
    rcases ih with ⟨hnone, rfl⟩ | ⟨chain, hchain, hne, hrender⟩
    · rw [hnone]
      exact Or.inr ⟨_, rfl, List.cons_ne_nil _ _, rfl⟩
    · rw [hchain, chainText_cons condition next hne, ← hrender]
      exact Or.inr ⟨_, rfl, List.cons_ne_nil _ _, rfl⟩

/-- No conditions have no connectives. -/
theorem connected_eq_nil_iff {after : Connective} {conditions : List Expr} :
    connected after conditions = [] ↔ conditions = [] := by
  cases conditions with
  | nil => exact iff_of_true rfl rfl
  | cons condition rest => cases rest <;> simp [connected]

/-- The conditions of one node hold together, on their own and in front of others. -/
theorem chainText_connected (after : Connective) {conditions : List Expr}
    (hne : conditions ≠ []) :
    chainText s (connected after conditions) =
        .join (" " ++ s.words .conjunction ++ " ") (conditions.map (Expr.render s)) ∧
      ∀ rest, rest ≠ [] → chainText s (connected after conditions ++ rest) =
        .join (" " ++ s.words .conjunction ++ " ") (conditions.map (Expr.render s)) ++
          .text (" " ++ s.words after.keyword ++ " ") ++ chainText s rest := by
  induction conditions with
  | nil => exact absurd rfl hne
  | cons condition others ih =>
    cases others with
    | nil => exact ⟨rfl, fun rest hrest => chainText_cons condition after hrest⟩
    | cons next others =>
      obtain ⟨halone, hbefore⟩ := ih (List.cons_ne_nil next others)
      have hconnected : connected after (next :: others) ≠ [] :=
        mt connected_eq_nil_iff.mp (List.cons_ne_nil next others)
      have htexts : (next :: others).map (Expr.render s) ≠ [] := by simp
      have hand : Connective.and.keyword = .conjunction := rfl
      rw [connected, List.map_cons, Fragment.join_cons _ _ htexts]
      · constructor
        · rw [chainText_cons condition .and hconnected, halone, hand]
        · intro rest hrest
          rw [List.cons_append, chainText_cons condition .and (by simp [hrest]), hbefore rest hrest,
            hand]
          simp only [Fragment.append_assoc]
      · exact List.cons_ne_nil next others

/-- The texts of a node go with its conditions. -/
def Rendered (s : Spelling) (row : List (Expr × Connective)) (block : Block) : Prop :=
  ∃ conditions, row = connected block.after conditions ∧
    block.texts = conditions.map (Expr.render s)

/-- The conditions of all nodes have the texts of the nodes that bring some. -/
theorem chainText_of_rendered {rows : List (List (Expr × Connective))} {blocks : List Block}
    (h : List.Forall₂ (Rendered s) rows blocks) :
    (rows.flatten = [] ↔ Block.filled blocks = []) ∧
      chainText s rows.flatten = Block.joined s.words (Block.filled blocks) := by
  induction h with
  | nil => exact ⟨iff_of_true rfl rfl, rfl⟩
  | @cons row block rows blocks hrendered _ ih =>
    obtain ⟨hempty, htext⟩ := ih
    obtain ⟨conditions, rfl, htexts⟩ := hrendered
    rw [List.flatten_cons, Block.filled, List.filter_cons, ← Block.filled]
    by_cases hnil : conditions = []
    · -- The node leaves no trace.
      subst hnil
      rw [htexts]
      exact ⟨hempty, htext⟩
    · have hconnected : connected block.after conditions ≠ [] := mt connected_eq_nil_iff.mp hnil
      have hfilled : (!block.texts.isEmpty) = true := by simp [htexts, hnil]
      obtain ⟨halone, hbefore⟩ := chainText_connected (s := s) block.after hnil
      rw [← htexts] at halone hbefore
      rw [if_pos hfilled]
      refine ⟨by simp [hconnected], ?_⟩
      by_cases hrest : rows.flatten = []
      · rw [hrest, hempty.mp hrest, List.append_nil]
        exact halone
      · rw [hbefore _ hrest, joined_cons block (mt hempty.mpr hrest), htext]
        rfl

end Rows

/-! ### One node -/

namespace Graph

variable {g : Graph} {mode : Mode} {id : Nat} {s : Spelling}

/-- A link goes through a row of the link table, or its join has none. -/
theorem linkRow_eq {link : Link} {plan : JoinPlan} (hplan : link.plan = .ok plan)
    {target : NodeSettings} {previous : String} {row : Option LinkRow}
    (hrow : g.linkRow plan target previous = .ok row) :
    link.usesLinkTable = false ∧ row = none ∨
    link.usesLinkTable = true ∧ ∃ table linkType near, g.linkTable = some table ∧
      row = some ⟨table, LinkTable.aliasTo target.aliasName, linkType, near,
        target.join == .left⟩ := by
  have huses := Link.exists_linkTable_iff hplan
  cases plan with
  | linkTable linkType near =>
    obtain ⟨table, htable, rfl⟩ := linkRow_linkTable_eq_ok_iff.mp hrow
    exact Or.inr ⟨huses.mp ⟨linkType, near, rfl⟩, table, linkType, near, htable, rfl⟩
  | columns | freeText =>
    cases hrow
    refine Or.inl ⟨?_, rfl⟩
    rw [Bool.eq_false_iff, ne_eq, ← huses]
    rintro ⟨_, _, h⟩
    cases h

/-- The link row that a node holds leads to the node that is joined through it. -/
theorem heldRow_eq {n : Node} {join : Option PlannedJoin} {held : Option LinkRow}
    (hn : g.node? id = some n) (hjoin : g.planJoin mode id n.toNodeSettings = .ok join)
    (hheld : g.heldRow id n.toNodeSettings join = .ok held) :
    g.heldTarget? id n = none ∧ held = none ∨
    ∃ table target linkType near, g.linkTable = some table ∧
      g.heldTarget? id n = some target ∧
      held = some ⟨table, LinkTable.aliasTo target.aliasName, linkType, near,
        target.join == .left⟩ := by
  unfold heldTarget?
  unfold heldRow at hheld
  cases hd : g.direction with
  | forward =>
    rw [hd] at hheld
    have hout := (outgoingRow_eq_ok_iff hd).mp hheld
    by_cases hlt : id + 1 < g.size
    · rw [if_pos hlt] at hout
      cases hlink : n.link with
      | none =>
        rw [hlink] at hout
        exact Or.inl ⟨rfl, hout⟩
      | some link =>
        rw [hlink] at hout
        obtain ⟨target, plan, htarget, hplan, hrow⟩ := hout
        rw [node_eq_ok_iff] at htarget
        rcases linkRow_eq hplan hrow with ⟨huses, rfl⟩ | ⟨huses, table, linkType, near, h⟩
        · exact Or.inl ⟨by simp [huses], rfl⟩
        · refine Or.inr ⟨table, target, linkType, near, h.1, ?_, h.2⟩
          simp [huses, htarget]
    · rw [if_neg hlt] at hout
      have hnone : g.node? (id + 1) = none := by
        rw [Option.eq_none_iff_forall_ne_some]
        exact fun target h => hlt (exists_node?_iff.mp ⟨target, h⟩)
      refine Or.inl ⟨?_, hout⟩
      simp [hnone]
  | reverse =>
    rw [hd] at hheld
    cases hheld
    cases hp : g.partner? id with
    | none =>
      rw [planJoin_of_none hp] at hjoin
      cases hjoin
      have hfirst : id = 0 := by
        by_contra hne
        have hsome := (partner?_isSome_iff (exists_node?_iff.mp ⟨n, hn⟩)).mpr hne
        rw [hp] at hsome
        cases hsome
      refine Or.inl ⟨?_, rfl⟩
      simp [hfirst]
    | some partner =>
      have hne : id ≠ 0 := (partner?_isSome_iff (exists_node?_iff.mp ⟨n, hn⟩)).mp (by rw [hp]; rfl)
      obtain ⟨_, holder, link, plan, row, -, hholder, hlink, hplan, hrow, rfl⟩ :=
        (planJoin_eq_ok_iff hp).mp hjoin
      -- In a tree the node itself keeps the link.
      rw [hd, node_eq_ok_iff] at hholder
      have hsame : n = holder := Option.some.inj (hn.symm.trans hholder)
      subst hsame
      rcases linkRow_eq hplan hrow with ⟨huses, rfl⟩ | ⟨huses, table, linkType, near, h⟩
      · exact Or.inl ⟨by simp [hlink, huses], rfl⟩
      · refine Or.inr ⟨table, n, linkType, near, h.1, ?_, h.2⟩
        simp [hlink, huses, hne]

variable {v : Visit}

/-- The validity of the held link row has the text that the node brings for it. -/
theorem linkText_eq_ok (h : g.Visits mode id v) :
    g.linkText mode s id v.node = .ok ((v.held.bind fun row =>
      row.validity v.node.toNodeSettings g.environment.maxDate).map (Expr.render s)) := by
  unfold linkText
  rcases heldRow_eq h.node h.join h.held with
    ⟨htarget, hheld⟩ | ⟨table, target, linkType, near, htable, htarget, hheld⟩
  · rw [htarget, hheld]
    cases g.linkTable <;> rfl
  · rw [htarget, hheld, htable]
    show (if v.node.history then _ else _) = _
    rw [Option.bind_some, LinkRow.validity, Criterion.renderEnclosed_eq,
      Criterion.resolve_validity]
    cases v.node.history <;> rfl

/-- What the rows of a node have to meet has the text that the node brings for it. -/
theorem ownText_eq_ok (h : g.Visits mode id v) :
    g.ownText mode s v.node = .ok (v.predicate.map (Expr.render s)) := by
  have hpredicate := h.predicate
  rw [Node.resolvePredicate_eq] at hpredicate
  unfold ownText
  show (match v.node.effectivePredicate (g.context mode).maxDate with
    | none => _
    | some c => _) = _
  cases heffective : v.node.effectivePredicate (g.context mode).maxDate with
  | none =>
    rw [heffective] at hpredicate
    rw [← Except.ok.inj hpredicate]
    rfl
  | some c =>
    rw [heffective] at hpredicate
    obtain ⟨own, hown, hsome⟩ := map_eq_ok_iff.mp hpredicate
    show c.renderEnclosed _ _ s = _
    rw [Criterion.renderEnclosed_eq, hown, ← hsome, Option.map_map]
    rfl

/-- The texts that a visited node brings are those of its conditions. -/
theorem filterBlock_eq_ok (h : g.Visits mode id v) :
    g.filterBlock mode s id = .ok
      ⟨if g.KeepsInside id v.node then []
        else (v.filters g.environment.maxDate).map (Expr.render s), v.node.following⟩ := by
  unfold filterBlock
  rw [node_eq_ok_iff.mpr h.node]
  show (g.ownText mode s v.node >>= _) = _
  rw [ownText_eq_ok h]
  show (g.linkText mode s id v.node >>= _) = _
  rw [linkText_eq_ok h, Visit.filters, List.map_append]
  cases v.predicate <;>
    cases v.held.bind fun row => row.validity v.node.toNodeSettings g.environment.maxDate <;> rfl

/-- A visited node brings the texts of the conditions that it contributes. -/
theorem rendered_part (h : g.Visits mode id v) :
    ∃ block, g.filterBlock mode s id = .ok block ∧
      Rendered s (v.part g mode id).conditions block := by
  refine ⟨_, filterBlock_eq_ok h, ?_⟩
  rw [Visit.part, v.node.connectiveAfter_eq]
  have hinside := isolated_iff_keepsInside h.node
  cases hisolated : g.isolated id v.node.toNodeSettings with
  | true => exact ⟨[], rfl, by rw [if_pos (hinside.mp hisolated)]; rfl⟩
  | false =>
    rw [hisolated] at hinside
    exact ⟨_, rfl, if_neg fun h => Bool.false_ne_true (hinside.mpr h)⟩

/-- Every condition of a visited node is a group. -/
theorem exists_group_of_mem_filters (h : g.Visits mode id v) {e : Expr}
    (he : e ∈ v.filters g.environment.maxDate) : ∃ members, e = .group members := by
  have henclosed : ∀ e : Expr, ∃ members, e.enclosed = .group members := by
    intro e
    cases e <;> exact ⟨_, rfl⟩
  rcases List.mem_append.mp he with hown | hlink
  · have hpredicate := h.predicate
    rw [Option.mem_toList.mp hown, Node.resolvePredicate_eq] at hpredicate
    cases heffective : v.node.effectivePredicate (g.context mode).maxDate with
    | none =>
      rw [heffective] at hpredicate
      cases hpredicate
    | some c =>
      rw [heffective] at hpredicate
      obtain ⟨own, -, hsome⟩ := map_eq_ok_iff.mp hpredicate
      obtain ⟨inner, -, rfl⟩ := Option.map_eq_some_iff.mp hsome
      exact henclosed inner
  · obtain ⟨row, -, hvalidity⟩ := Option.bind_eq_some_iff.mp (Option.mem_toList.mp hlink)
    unfold LinkRow.validity at hvalidity
    split at hvalidity
    · cases hvalidity
    · cases hvalidity
      exact henclosed _

/-- Every text that a visited node brings is enclosed in parentheses. -/
theorem exists_parenthesized (h : g.Visits mode id v) {block : Block}
    (hblock : g.filterBlock mode s id = .ok block) :
    ∀ t ∈ block.texts, ∃ members : Chain, t = (members.render s).parenthesized := by
  intro t ht
  rw [filterBlock_eq_ok h] at hblock
  cases hblock
  by_cases hinside : g.KeepsInside id v.node
  · rw [if_pos hinside] at ht
    cases ht
  · rw [if_neg hinside] at ht
    obtain ⟨e, he, rfl⟩ := List.mem_map.mp ht
    obtain ⟨members, rfl⟩ := exists_group_of_mem_filters h he
    exact ⟨members, Expr.render_group s members⟩

/-! ### All nodes -/

/-- The blocks of the nodes of a graph go with the parts that the nodes contribute. -/
theorem exists_blocks {parts : List Part} (h : g.walk.mapM (g.part mode) = .ok parts) :
    ∃ blocks, g.walk.mapM (g.filterBlock mode s) = .ok blocks ∧
      List.Forall₂ (Rendered s) (parts.map (·.conditions)) blocks := by
  have hstep : ∀ id ∈ g.walk, ∀ p, g.part mode id = .ok p →
      ∃ block, g.filterBlock mode s id = .ok block ∧ Rendered s p.conditions block := by
    intro id _ p hp
    obtain ⟨v, hv, rfl⟩ := part_eq_ok_iff.mp hp
    exact rendered_part hv
  obtain ⟨blocks, hblocks, hrendered⟩ := exists_mapM_of_mapM h hstep
  exact ⟨blocks, hblocks, List.forall₂_map_left_iff.mpr hrendered⟩

/-- The filter of a statement is made of the blocks of its nodes. -/
theorem renderFilter_of_rendered {parts : List Part} {blocks : List Block}
    (h : List.Forall₂ (Rendered s) (parts.map (·.conditions)) blocks) (root : TableRef) :
    (assemble root parts).renderFilter s = Block.clause s.words blocks ∧
      ((assemble root parts).filter.isSome = true ↔ Block.filled blocks ≠ []) := by
  obtain ⟨hempty, htext⟩ := chainText_of_rendered h
  rw [← List.flatMap_def] at hempty htext
  rw [Statement.renderFilter, assemble, Block.clause]
  rcases render_of_ofParts? s (parts.flatMap (·.conditions)) with
    ⟨hnone, hnil⟩ | ⟨chain, hsome, hne, hrender⟩
  · have hfilled := hempty.mp hnil
    rw [hnone, hfilled]
    exact ⟨rfl, by simp⟩
  · have hfilled := mt hempty.mpr hne
    rw [hsome, if_neg (mt List.isEmpty_iff.mp hfilled), ← htext, ← hrender]
    exact ⟨rfl, iff_of_true rfl hfilled⟩

/-- Some node brings a text exactly if one that keeps nothing inside does. -/
theorem filled_ne_nil_iff {blocks : List Block}
    (h : g.walk.mapM (g.filterBlock mode s) = .ok blocks) :
    Block.filled blocks ≠ [] ↔ ∃ id n block, g.node? id = some n ∧ ¬ g.KeepsInside id n ∧
      g.filterBlock mode s id = .ok block ∧ block.texts ≠ [] := by
  constructor
  · intro hne
    obtain ⟨block, hblock⟩ := List.exists_mem_of_ne_nil _ hne
    obtain ⟨hmem, hfilled⟩ := List.mem_filter.mp hblock
    obtain ⟨id, -, hid⟩ := exists_of_mem_mapM h hmem
    have htexts : block.texts ≠ [] := by simpa using hfilled
    obtain ⟨n, hn, hrest⟩ := bind_eq_ok_iff.mp hid
    refine ⟨id, n, block, node_eq_ok_iff.mp hn, ?_, hid, htexts⟩
    obtain ⟨own, -, hrest⟩ := bind_eq_ok_iff.mp hrest
    obtain ⟨link, -, hrest⟩ := bind_eq_ok_iff.mp hrest
    intro hinside
    rw [if_pos hinside] at hrest
    cases hrest
    exact htexts rfl
  · rintro ⟨id, n, block, hn, -, hblock, htexts⟩
    have hid : id ∈ g.walk := mem_walk.mpr (exists_node?_iff.mp ⟨n, hn⟩)
    have hfilled : (!block.texts.isEmpty) = true := by simpa using htexts
    exact List.ne_nil_of_mem (List.mem_filter.mpr ⟨mem_of_mapM h hid hblock, hfilled⟩)

/-- The filter of a compiled graph is made of what its nodes bring, in the order of the walk:
the text of what the rows of a node have to meet, then that of the validity of the link row
that it holds, each in parentheses.  There is a filter exactly if some node that does not keep
its conditions inside brings a text. -/
theorem compile_clause {f : Fragment} (h : g.compile mode = .ok f) :
    ∃ words q blocks, vocabulary g.environment.dialect = .ok words ∧
      g.statement mode = .ok q ∧
      g.walk.mapM (g.filterBlock mode ⟨words, g.environment.geometry⟩) = .ok blocks ∧
      f = .text (words .select ++ " " ++ renderItems ⟨words, g.environment.geometry⟩ q.items ++
            "\n" ++ words .fromTables ++ " ") ++
          q.renderTables ⟨words, g.environment.geometry⟩ ++ Block.clause words blocks ++
          .text (q.renderOrder ⟨words, g.environment.geometry⟩) ∧
      (∀ block ∈ blocks, ∀ t ∈ block.texts, ∃ members : Chain,
        t = (members.render ⟨words, g.environment.geometry⟩).parenthesized) ∧
      (q.filter.isSome = true ↔ ∃ id n block, g.node? id = some n ∧ ¬ g.KeepsInside id n ∧
        g.filterBlock mode ⟨words, g.environment.geometry⟩ id = .ok block ∧
        block.texts ≠ []) := by
  obtain ⟨-, words, q, hwords, hq, rfl⟩ := compile_eq_ok_iff.mp h
  obtain ⟨root, source, parts, -, -, hparts, rfl⟩ := statement_eq_ok_iff.mp hq
  obtain ⟨blocks, hblocks, hrendered⟩ :=
    exists_blocks (s := ⟨words, g.environment.geometry⟩) hparts
  obtain ⟨hclause, hfilter⟩ := renderFilter_of_rendered hrendered
    (source.tableRef root.aliasName mode.physical)
  refine ⟨words, _, blocks, hwords, hq, hblocks, ?_, ?_, ?_⟩
  · rw [Statement.render, hclause]
  · intro block hblock
    obtain ⟨id, hid, hfilterBlock⟩ := exists_of_mem_mapM hblocks hblock
    obtain ⟨p, hp⟩ := exists_mapM_eq_ok_iff.mp ⟨parts, hparts⟩ id hid
    obtain ⟨v, hv, -⟩ := part_eq_ok_iff.mp hp
    exact exists_parenthesized hv hfilterBlock
  · rw [hfilter]
    exact filled_ne_nil_iff hblocks

end Graph

/-! ### A filter of many nodes -/

namespace Farm

/-- Animals without a breed, or what comes behind them. -/
def unbred : Node where
  source := some (.table animals)
  predicate := some ⟨.isNull "breed", false, .and⟩
  connective := some .or

/-- Stalls without places that animals are linked to, or what comes behind them. -/
def unplaced : Node where
  source := some (.table stalls)
  link := some (.linkRow .first (some 5))
  predicate := some ⟨.isNull "places", false, .or⟩

/-- Behind the two come a node that keeps its conditions inside, one that counts all versions of
its rows, one without a criterion and one without validity. -/
def sifted : Graph :=
  let first := (Graph.reverse .standard unbred).push unplaced (some 0) admits_stall
  let second := (first.push stall (some 0) admits_score).push
    { source := some (.table animals), link := some .parent, history := true
      connective := some .and } (some 0) (Nat.zero_le 2)
  let third := second.push { source := some (.table animals), link := some .parent } (some 0)
    (Nat.zero_le 3)
  { third.push { score with predicate := some ⟨.isNull "object_id", false, .and⟩ } (some 0)
      (Nat.zero_le 4) with
    linkTable := graph.linkTable }

end Farm

/-- The filter of the six nodes: four of them bring texts, and the second one brings two. -/
theorem Graph.compile_clause_farm :
    ∃ f words q blocks, Farm.sifted.compile {} = .ok f ∧
      vocabulary Farm.sifted.environment.dialect = .ok words ∧
      Farm.sifted.statement {} = .ok q ∧ q.filter.isSome = true ∧
      Farm.sifted.walk.mapM
        (Farm.sifted.filterBlock {} ⟨words, Farm.sifted.environment.geometry⟩) = .ok blocks ∧
      blocks.map (fun block => (block.texts.length, block.after)) =
        [(1, .or), (2, .or), (0, .and), (0, .and), (1, .and), (1, .and)] ∧
      ∃ front, f.sql = front ++
        ("\nWHERE (t0.\"dt_delete\" = ? AND t0.\"breed\" IS NULL) OR " ++
          "(t1.\"dt_delete\" = ? AND t1.\"places\" IS NULL) AND (lnkt1.\"dt_delete\" = ?) OR " ++
          "(t4.\"dt_delete\" = ?) AND (t5.\"object_id\" IS NULL)") := by
  obtain ⟨f, hf⟩ : ∃ f, Farm.sifted.compile {} = .ok f := ⟨_, rfl⟩
  obtain ⟨words, q, blocks, hwords, hq, hblocks, hclause, -, -⟩ := compile_clause hf
  have hends : ∃ front, f.sql = front ++ (Block.clause words blocks).sql := by
    have horder : q.order = [] := by
      cases hq
      rfl
    rw [hclause, Statement.renderOrder, horder]
    exact ⟨_, String.append_empty⟩
  obtain ⟨front, hfront⟩ := hends
  refine ⟨f, words, q, blocks, hf, hwords, hq, ?_, hblocks, ?_, front, hfront.trans ?_⟩
  · cases hq
    rfl
  · cases hwords
    cases hblocks
    rfl
  · refine congrArg (front ++ ·) ?_
    cases hwords
    cases hblocks
    decide +kernel

end ObjectQuery.Query
