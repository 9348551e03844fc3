import ObjectQuery.Proofs.DeclaredNames
import ObjectQuery.Proofs.SelectList

/-!
# Selected columns

A select list can be put together from the outside.  Ask every shown node, in the order of the
walk, for its field list under the aliases that the tables of the statement have, and write the
columns of its link row behind it: the texts that are not empty, with commas between them, are
the select list.

## Main Definitions

* `Graph.Shown`, `Graph.shown` — the nodes that a select list shows
* `Graph.rowColumns` — the columns that are shown of the link row of a node
* `Graph.columnTexts` — the texts that one node contributes
* `Sql.selectList` — texts as a select list writes them
* `Sql.SpelledBy` — texts that spell select items

## Main Statements

* `Graph.projected_iff` — the nodes with select items are the shown ones
* `Graph.exists_shown_parts` — the select items of a statement are those of the shown nodes
* `Graph.Visits.items_of_shown` — the select items of one node
* `Graph.Visits.exists_columnTexts` — they are spelled by its texts
* `Sql.SpelledBy.renderItems_eq` — a select list from texts that spell its items
* `Graph.exists_selectList` — a compiled graph and the texts of its nodes
-/

namespace ObjectQuery.Text

variable {parts : List String} (separator : String)

theorem joinWith_cons (part : String) (h : parts ≠ []) :
    joinWith separator (part :: parts) = part ++ separator ++ joinWith separator parts := by
  match parts, h with
  | _ :: _, _ => rfl

/-- Between two runs of parts stands one separator. -/
theorem joinWith_append {rest : List String} (h : parts ≠ []) (hrest : rest ≠ []) :
    joinWith separator (parts ++ rest) =
      joinWith separator parts ++ separator ++ joinWith separator rest := by
  induction parts with
  | nil => exact absurd rfl h
  | cons part parts ih =>
    by_cases hparts : parts = []
    · subst hparts
      exact joinWith_cons separator part hrest
    · have hne : parts ++ rest ≠ [] := by simp [hparts]
      rw [List.cons_append, joinWith_cons separator part hne, ih hparts,
        joinWith_cons separator part hparts]
      simp only [String.append_assoc]

/-- Joined parts are not shorter than the first of them. -/
theorem length_le_joinWith (part : String) (parts : List String) :
    part.length ≤ (joinWith separator (part :: parts)).length := by
  by_cases h : parts = []
  · subst h
    exact Nat.le_refl _
  · rw [joinWith_cons separator part h, String.length_append, String.length_append]
    omega

/-- Parts that are not empty join to nothing only if there are none. -/
theorem joinWith_eq_empty_iff (h : ∀ part ∈ parts, part ≠ "") :
    joinWith separator parts = "" ↔ parts = [] := by
  constructor
  · intro hempty
    match parts, h with
    | [], _ => rfl
    | part :: rest, h =>
      have hlength := length_le_joinWith separator part rest
      rw [hempty, String.length_empty] at hlength
      exact absurd (String.length_eq_zero_iff.mp (Nat.le_zero.mp hlength))
        (h part List.mem_cons_self)
  · rintro rfl
    rfl

section Groups

variable {groups : List (List String)}

/-- Groups of parts that are not empty all join to nothing only if all groups are empty. -/
theorem filter_joinWith_eq_nil_iff (h : ∀ group ∈ groups, ∀ part ∈ group, part ≠ "") :
    (groups.map (joinWith separator)).filter (· ≠ "") = [] ↔ groups.flatten = [] := by
  rw [List.filter_eq_nil_iff, List.forall_mem_map, List.flatten_eq_nil_iff]
  refine forall₂_congr fun group hgroup => ?_
  rw [decide_eq_true_iff, not_not, joinWith_eq_empty_iff separator (h group hgroup)]

/-- Joining group by group, without the groups that join to nothing, is joining all parts. -/
theorem joinWith_groups (h : ∀ group ∈ groups, ∀ part ∈ group, part ≠ "") :
    joinWith separator ((groups.map (joinWith separator)).filter (· ≠ "")) =
      joinWith separator groups.flatten := by
  induction groups with
  | nil => rfl
  | cons group groups ih =>
    obtain ⟨hgroup, hgroups⟩ := List.forall_mem_cons.mp h
    have hnil := filter_joinWith_eq_nil_iff separator hgroups
    rw [List.map_cons, List.filter_cons, List.flatten_cons]
    by_cases hempty : group = []
    · subst hempty
      exact ih hgroups
    · have hjoined := mt (joinWith_eq_empty_iff separator hgroup).mp hempty
      rw [if_pos (decide_eq_true hjoined)]
      by_cases hrest : groups.flatten = []
      · rw [hnil.mpr hrest, hrest, List.append_nil]
        rfl
      · rw [joinWith_cons separator _ (mt hnil.mp hrest), ih hgroups,
          joinWith_append separator hempty hrest]

end Groups

end ObjectQuery.Text

namespace ObjectQuery.Sql

open ObjectQuery.Text

/-! ### Select lists from texts -/

/-- Texts as a select list writes them: those that are not empty, with commas between them; an
asterisk if there are none. -/
def selectList (texts : List String) : String :=
  let shown := texts.filter (· ≠ "")
  if shown.isEmpty then "*" else joinWith ", " shown

/-- Texts spell items: each text is that of some of the items, with commas between them. -/
def SpelledBy (s : Spelling) (items : List SelectItem) (texts : List String) : Prop :=
  ∃ groups : List (List String),
    texts = groups.map (joinWith ", ") ∧ groups.flatten = items.map (SelectItem.render s)

variable {s : Spelling} {items more : List SelectItem} {texts rest : List String}

/-- An item has blanks around the keyword in front of its label. -/
theorem SelectItem.one_lt_length_render (s : Spelling) (item : SelectItem) :
    1 < (item.render s).length := by
  have hblank : " ".length = 1 := rfl
  cases item with
  | column source label | geometry source label =>
    simp only [render, String.length_append, hblank]
    omega

theorem SelectItem.render_ne_empty (s : Spelling) (item : SelectItem) : item.render s ≠ "" := by
  intro h
  have hlength := item.one_lt_length_render s
  rw [h] at hlength
  exact absurd hlength (Nat.not_lt_zero 1)

/-- A select list is an asterisk only if it has no items. -/
theorem renderItems_eq_asterisk_iff : renderItems s items = "*" ↔ items = [] := by
  constructor
  · intro h
    match items with
    | [] => rfl
    | item :: rest =>
      have hfirst := item.one_lt_length_render s
      have hall := length_le_joinWith ", " (item.render s) (rest.map (SelectItem.render s))
      have hone : (renderItems s (item :: rest)).length = 1 := congrArg String.length h
      exact absurd (Nat.lt_of_lt_of_le hfirst hall) (Nat.not_lt_of_ge (Nat.le_of_eq hone))
  · rintro rfl
    rfl

namespace SpelledBy

/-- All items in one text. -/
theorem joined (s : Spelling) (items : List SelectItem) :
    SpelledBy s items [joinWith ", " (items.map (SelectItem.render s))] :=
  ⟨[items.map (SelectItem.render s)], rfl, List.flatten_singleton⟩

/-- Each item in a text of its own. -/
theorem each (s : Spelling) (items : List SelectItem) :
    SpelledBy s items (items.map (SelectItem.render s)) := by
  refine ⟨items.map fun item => [item.render s], ?_, ?_⟩
  · rw [List.map_map]
    rfl
  · rw [← List.flatMap_def, ← List.map_eq_flatMap]

theorem append (h : SpelledBy s items texts) (hmore : SpelledBy s more rest) :
    SpelledBy s (items ++ more) (texts ++ rest) := by
  obtain ⟨groups, rfl, hitems⟩ := h
  obtain ⟨others, rfl, hothers⟩ := hmore
  refine ⟨groups ++ others, (List.map_append ..).symm, ?_⟩
  rw [List.flatten_append, hitems, hothers, List.map_append]

/-- Lists of items, each spelled by its texts. -/
theorem flatMap {α : Type} {f : α → List SelectItem} {xs : List α} {found : List (List String)}
    (h : List.Forall₂ (fun x texts => SpelledBy s (f x) texts) xs found) :
    SpelledBy s (xs.flatMap f) found.flatten := by
  induction h with
  | nil => exact ⟨[], rfl, rfl⟩
  | cons hfirst _ ih =>
    rw [List.flatMap_cons, List.flatten_cons]
    exact hfirst.append ih

/-- Texts that spell the items of a select list make up the select list, and it is an asterisk
only if all of them are empty. -/
theorem renderItems_eq (h : SpelledBy s items texts) :
    renderItems s items = selectList texts ∧
      (selectList texts = "*" ↔ ∀ text ∈ texts, text = "") := by
  obtain ⟨groups, rfl, hitems⟩ := h
  have hparts : ∀ group ∈ groups, ∀ part ∈ group, part ≠ "" := by
    intro group hgroup part hpart
    have hmem : part ∈ items.map (SelectItem.render s) :=
      hitems ▸ List.mem_flatten_of_mem hgroup hpart
    obtain ⟨item, -, rfl⟩ := List.mem_map.mp hmem
    exact item.render_ne_empty s
  have hnil : (groups.map (joinWith ", ")).filter (· ≠ "") = [] ↔ items = [] := by
    rw [filter_joinWith_eq_nil_iff ", " hparts, hitems, List.map_eq_nil_iff]
  have hlist : renderItems s items = selectList (groups.map (joinWith ", ")) := by
    simp only [renderItems, selectList, List.isEmpty_iff, hnil, joinWith_groups ", " hparts,
      hitems]
  refine ⟨hlist, ?_⟩
  rw [← hlist, renderItems_eq_asterisk_iff, ← hnil, List.filter_eq_nil_iff]
  refine forall₂_congr fun text _ => ?_
  rw [decide_eq_true_iff, not_not]

end SpelledBy

end ObjectQuery.Sql

namespace ObjectQuery.Query

open ObjectQuery.Sql ObjectQuery.Outcome
open ObjectQuery.Text (joinWith)

/-! ### Shown nodes -/

namespace Graph

variable (g : Graph) (mode : Mode) (id : Nat)

/-- A node reads a table of an object type. -/
def HasType (type : Int64) : Prop :=
  ∃ n, g.node? id = some n ∧ n.objectType? = some type

/-- A node is marked as returned; or no node is, and the graph is a tree, or it has no return
type, or no node has the return type, or this is the first node that has it. -/
def Shown : Prop :=
  ∃ n, g.node? id = some n ∧ (n.returned = true ∨
    (∀ k m, g.node? k = some m → m.returned = false) ∧
      (g.direction = .reverse ∨ g.returnType = none ∨ ∃ type, g.returnType = some type ∧
        ((∀ k, ¬ g.HasType k type) ∨ g.HasType id type ∧ ∀ k < id, ¬ g.HasType k type)))

variable {g mode id}

/-- Some node is marked. -/
theorem anyReturned_iff_exists :
    g.anyReturned = true ↔ ∃ k m, g.node? k = some m ∧ m.returned = true := by
  simp only [anyReturned_iff, Option.any_eq_true]

theorem anyReturned_eq_false_iff :
    g.anyReturned = false ↔ ∀ k m, g.node? k = some m → m.returned = false := by
  rw [← Bool.not_eq_true, anyReturned_iff_exists]
  simp

theorem hasType_iff {k : Nat} {type : Int64} :
    g.HasType k type ↔ ∃ h : k < g.slots.length,
      (g.slots[k].node.objectType? == some type) = true := by
  simp only [beq_iff_eq]
  constructor
  · rintro ⟨n, hn, htype⟩
    obtain ⟨s, hs, rfl⟩ := Option.map_eq_some_iff.mp hn
    obtain ⟨hk, rfl⟩ := List.getElem?_eq_some_iff.mp hs
    exact ⟨hk, htype⟩
  · rintro ⟨hk, htype⟩
    exact ⟨g.slots[k].node, by rw [node?, List.getElem?_eq_getElem hk]; rfl, htype⟩

/-- What the search for the first node of a type finds. -/
theorem findIdx?_type_eq_some_iff {type : Int64} {first : Nat} :
    g.slots.findIdx? (fun s => s.node.objectType? == some type) = some first ↔
      g.HasType first type ∧ ∀ k < first, ¬ g.HasType k type := by
  rw [List.findIdx?_eq_some_iff_getElem]
  constructor
  · rintro ⟨hlt, hfirst, hbefore⟩
    refine ⟨hasType_iff.mpr ⟨hlt, hfirst⟩, fun k hk htype => ?_⟩
    obtain ⟨_, htype⟩ := hasType_iff.mp htype
    exact hbefore k hk htype
  · rintro ⟨hfirst, hbefore⟩
    obtain ⟨hlt, hfirst⟩ := hasType_iff.mp hfirst
    refine ⟨hlt, hfirst, fun k hk htype => ?_⟩
    exact hbefore k hk (hasType_iff.mpr ⟨Nat.lt_trans hk hlt, htype⟩)

theorem findIdx?_type_eq_none_iff {type : Int64} :
    g.slots.findIdx? (fun s => s.node.objectType? == some type) = none ↔
      ∀ k, ¬ g.HasType k type := by
  rw [List.findIdx?_eq_none_iff]
  constructor
  · intro h k htype
    obtain ⟨hk, htype⟩ := hasType_iff.mp htype
    rw [h _ (List.getElem_mem hk)] at htype
    cases htype
  · intro h s hs
    obtain ⟨k, hk, rfl⟩ := List.mem_iff_getElem.mp hs
    exact Bool.eq_false_iff.mpr fun htype => h k (hasType_iff.mpr ⟨hk, htype⟩)

/-- If no node is marked, the first node of the return type stands for all nodes, if there is
one. -/
theorem projected_iff_of_unmarked (h : g.anyReturned = false) :
    g.projected id = true ↔
      g.direction = .reverse ∨ g.returnType = none ∨ ∃ type, g.returnType = some type ∧
        ((∀ k, ¬ g.HasType k type) ∨ g.HasType id type ∧ ∀ k < id, ¬ g.HasType k type) := by
  rw [projected, h, pinned?]
  cases g.direction with
  | reverse => simp
  | forward =>
    cases g.returnType with
    | none => simp
    | some type =>
      cases hfound : g.slots.findIdx? fun s => s.node.objectType? == some type with
      | none => simp [hfound, findIdx?_type_eq_none_iff.mp hfound]
      | some first =>
        have hexists : ¬ ∀ k, ¬ g.HasType k type := fun hnone =>
          hnone first (findIdx?_type_eq_some_iff.mp hfound).1
        have hsame : id = first ↔ g.HasType id type ∧ ∀ k < id, ¬ g.HasType k type := by
          rw [← findIdx?_type_eq_some_iff, hfound, Option.some_inj, eq_comm]
        simp [hfound, hexists, hsame]

/-- The nodes with select items are the shown ones. -/
theorem projected_iff : id < g.size ∧ g.projected id = true ↔ g.Shown id := by
  have hnode : id < g.size ↔ ∃ n, g.node? id = some n := exists_node?_iff.symm
  rw [hnode]
  cases hany : g.anyReturned with
  | true =>
    obtain ⟨k, m, hm, hreturned⟩ := anyReturned_iff_exists.mp hany
    rw [projected, hany, if_pos rfl]
    constructor
    · rintro ⟨⟨n, hn⟩, hmarked⟩
      rw [hn, Option.any_some] at hmarked
      exact ⟨n, hn, Or.inl hmarked⟩
    · rintro ⟨n, hn, hmarked | ⟨hnone, -⟩⟩
      · exact ⟨⟨n, hn⟩, by rw [hn, Option.any_some, hmarked]⟩
      · rw [hnone k m hm] at hreturned
        cases hreturned
  | false =>
    have hnone := anyReturned_eq_false_iff.mp hany
    rw [projected_iff_of_unmarked hany]
    constructor
    · rintro ⟨⟨n, hn⟩, hpinned⟩
      exact ⟨n, hn, Or.inr ⟨hnone, hpinned⟩⟩
    · rintro ⟨n, hn, hmarked | ⟨-, hpinned⟩⟩
      · rw [hnone id n hn] at hmarked
        cases hmarked
      · exact ⟨⟨n, hn⟩, hpinned⟩

instance : DecidablePred g.Shown := fun _ => decidable_of_iff _ projected_iff

/-- The shown nodes in the order of the walk. -/
def shown (g : Graph) : List Nat := g.walk.filter (g.Shown ·)

theorem shown_eq : g.shown = g.walk.filter g.projected := by
  refine List.filter_congr fun id hid => ?_
  rw [← Bool.coe_iff_coe, decide_eq_true_iff, ← projected_iff, and_iff_right (mem_walk.mp hid)]

theorem mem_shown : id ∈ g.shown ↔ g.Shown id := by
  rw [shown_eq, List.mem_filter, mem_walk, projected_iff]

/-- The select items of a statement are those of the shown nodes. -/
theorem exists_shown_parts {q : Statement} (h : g.statement mode = .ok q) :
    ∃ parts, g.shown.mapM (g.part mode) = .ok parts ∧ q.items = parts.flatMap (·.items) := by
  obtain ⟨root, source, parts, -, -, hparts, rfl⟩ := statement_eq_ok_iff.mp h
  rw [shown_eq]
  refine exists_mapM_filter hparts fun id _ hhidden p hp => ?_
  obtain ⟨v, -, rfl⟩ := part_eq_ok_iff.mp hp
  exact if_neg (Bool.eq_false_iff.mp hhidden)

end Graph

/-! ### Columns of one node -/

namespace NodeSettings

/-- The label of a column of the link row of a node. -/
def rowLabelOf (n : NodeSettings) (column : String) : String :=
  LinkTable.aliasTo n.aliasName ++ "_" ++ column

/-- A column of the link row of a node as a select item: a derived table shows it under its
label. -/
def rowItem (n : NodeSettings) (isolated : Bool) (column : String) : SelectItem :=
  .column
    (if isolated then ⟨n.aliasName, n.rowLabelOf column⟩
      else ⟨LinkTable.aliasTo n.aliasName, column⟩)
    (n.rowLabelOf column)

end NodeSettings

namespace Graph

/-- The columns of the link row of a node that are shown: all of them, if the node asks for them
and its join goes through the link table. -/
def rowColumns (g : Graph) (id : Nat) (n : NodeSettings) : List String :=
  if n.showsLinkColumns && g.joinedByRow id then g.linkTable.elim [] fun t => t.columns.all
  else []

/-- The alias of the system columns of a node outside of its tables. -/
def listAlias (g : Graph) (mode : Mode) (id : Nat) (n : NodeSettings) : String :=
  if mode.physical && n.table?.isSome && !g.isolated id n then repositoryAlias n.aliasName
  else n.aliasName

/-- What a node contributes to a select list: its field list, and a text for each shown column
of its link row. -/
def columnTexts (g : Graph) (mode : Mode) (s : Spelling) (id : Nat) :
    Except CompileError (List String) := do
  let n ← g.node id
  let fields ← n.fieldList g.environment.dialect s.geometry
    (g.listAlias mode id n.toNodeSettings) n.aliasName mode.geometry
  let row := (g.rowColumns id n.toNodeSettings).map (n.rowItem (g.isolated id n.toNodeSettings))
  return fields :: row.map (SelectItem.render s)

variable {g : Graph} {mode : Mode} {id : Nat}

/-- Under these aliases a field list sees the columns of a node as the other nodes do. -/
theorem listScope_eq (n : NodeSettings) :
    n.listScope (g.listAlias mode id n) n.aliasName = g.outerScope mode id n := by
  have hne : repositoryAlias n.aliasName ≠ n.aliasName := MadeFrom.ne (Or.inr rfl)
  unfold NodeSettings.listScope listAlias outerScope NodeSettings.scope
  cases n.table? with
  | none => simp
  | some t => cases g.isolated id n <;> cases mode.physical <;> simp [hne]

namespace Visits

variable {v : Visit}

/-- A join of a visited node has a link row exactly when it goes through the link table. -/
theorem bind_row_isSome (hv : g.Visits mode id v) :
    (v.join.bind (·.row)).isSome = g.joinedByRow id := by
  cases hj : v.join with
  | none =>
    have hnone := mt (planJoin_isSome_iff hv.join).mpr (by rw [hj]; exact Bool.false_ne_true)
    rw [joinedByRow, Option.not_isSome_iff_eq_none.mp hnone]
    rfl
  | some j =>
    have hnames := hv.rowNames_eq hj
    rw [PlannedJoin.rowNames] at hnames
    rw [Option.bind_some]
    cases hjoined : g.joinedByRow id <;> cases hrow : j.row <;> simp [hjoined, hrow] at hnames ⊢

/-- The select items of the link row of a visited node. -/
theorem linkItems_eq (hv : g.Visits mode id v) :
    g.linkItems id v.node.toNodeSettings v.join =
      (g.rowColumns id v.node.toNodeSettings).map
        (v.node.rowItem (g.isolated id v.node.toNodeSettings)) := by
  unfold linkItems rowColumns
  rw [← hv.bind_row_isSome]
  cases hrow : v.join.bind (·.row) with
  | none => simp
  | some row =>
    obtain ⟨j, hj, hjrow⟩ := Option.bind_eq_some_iff.mp hrow
    obtain ⟨_, -, -, hleads⟩ := hv.join_spec hj
    obtain ⟨n, hn, -, htable, halias⟩ := hleads row hjrow
    cases hv.node.symm.trans hn
    rw [Option.isSome_some, Bool.and_true, htable, Option.elim_some]
    cases v.node.showsLinkColumns with
    | false => rfl
    | true =>
      show (if g.isolated id v.node.toNodeSettings then row.exposedItems v.node.aliasName
        else row.items) = row.table.columns.all.map _
      simp only [LinkRow.exposedItems, LinkRow.items, LinkRow.exposed, LinkRow.column, halias]
      cases g.isolated id v.node.toNodeSettings <;> rfl

/-- The select items of a shown node: its own columns, then those of its link row. -/
theorem items_of_shown (hv : g.Visits mode id v) (h : g.Shown id) :
    (v.part g mode id).items = v.own ++ (g.rowColumns id v.node.toNodeSettings).map
      (v.node.rowItem (g.isolated id v.node.toNodeSettings)) := by
  rw [← hv.linkItems_eq]
  exact if_pos (projected_iff.mpr h).2

/-- The texts of a shown node spell its select items, those of its own columns in one text. -/
theorem exists_columnTexts (hv : g.Visits mode id v) (h : g.Shown id) {words : Vocabulary}
    (hwords : vocabulary g.environment.dialect = .ok words) :
    ∃ texts, g.columnTexts mode ⟨words, g.environment.geometry⟩ id = .ok texts ∧
      SpelledBy ⟨words, g.environment.geometry⟩ (v.part g mode id).items texts := by
  let s : Spelling := ⟨words, g.environment.geometry⟩
  have hfields : v.node.fieldList g.environment.dialect g.environment.geometry
      (g.listAlias mode id v.node.toNodeSettings) v.node.aliasName mode.geometry =
        .ok (joinWith ", " (v.own.map (SelectItem.render s))) := by
    rw [NodeSettings.fieldList, hwords, listScope_eq]
    show (v.node.items _ _ >>= _) = _
    rw [hv.own]
    rfl
  rw [hv.items_of_shown h, columnTexts, node_eq_ok_iff.mpr hv.node]
  refine ⟨_, ?_, (SpelledBy.joined s v.own).append (SpelledBy.each s _)⟩
  show (v.node.fieldList _ _ _ _ _ >>= _) = _
  rw [hfields]
  rfl

end Visits

end Graph

/-! ### Whole graphs -/

/-- The select list of a compiled graph is put together from the field lists of the shown nodes
and the columns of their link rows, and is an asterisk exactly when all of these are empty; the
return types of the graph are the tables of the same nodes. -/
theorem Graph.exists_selectList {g : Graph} {mode : Mode} {f : Fragment}
    (h : g.compile mode = .ok f) :
    ∃ words q texts,
      let s : Spelling := ⟨words, g.environment.geometry⟩
      vocabulary g.environment.dialect = .ok words ∧ g.statement mode = .ok q ∧
        (g.walk.filter (g.Shown ·)).mapM (g.columnTexts mode s) = .ok texts ∧
        f = ⟨words .select ++ " " ++ selectList texts.flatten ++ (q.tail s).sql,
          (q.tail s).values⟩ ∧
        (selectList texts.flatten = "*" ↔ ∀ text ∈ texts.flatten, text = "") ∧
        g.returnTypes =
          (g.walk.filter (g.Shown ·)).filterMap fun id => (g.node? id).bind (·.table?) := by
  obtain ⟨-, words, q, hwords, hq, rfl⟩ := compile_eq_ok_iff.mp h
  obtain ⟨parts, hparts, hitems⟩ := exists_shown_parts hq
  let s : Spelling := ⟨words, g.environment.geometry⟩
  have hstep : ∀ id ∈ g.shown, ∀ p, g.part mode id = .ok p →
      ∃ texts, g.columnTexts mode s id = .ok texts ∧ SpelledBy s p.items texts := by
    intro id hid p hp
    obtain ⟨v, hv, rfl⟩ := part_eq_ok_iff.mp hp
    exact hv.exists_columnTexts (mem_shown.mp hid) hwords
  obtain ⟨texts, htexts, hspelled⟩ := exists_mapM_of_mapM hparts hstep
  obtain ⟨hlist, hasterisk⟩ := (SpelledBy.flatMap hspelled).renderItems_eq
  rw [← hitems] at hlist
  refine ⟨words, q, texts, hwords, hq, htexts, ?_, hasterisk, ?_⟩
  · rw [← hlist]
    exact q.render_eq_tail s
  · show _ = g.shown.filterMap _
    rw [shown_eq]
    rfl

/-- The sample tree, asked for the places of the stalls: a field list of one column, and the
columns of the link row. -/
theorem Graph.exists_selectList_farm :
    ∃ f, Farm.places.compile {} = .ok f ∧ ∃ tail, f.sql =
      "SELECT " ++ selectList ["t1.\"places\" AS \"t1_places\"",
        "t1.\"lnkt1_link_type_id\" AS \"lnkt1_link_type_id\"",
        "t1.\"lnkt1_link_obj_id_1\" AS \"lnkt1_link_obj_id_1\"",
        "t1.\"lnkt1_link_obj_id_2\" AS \"lnkt1_link_obj_id_2\"",
        "t1.\"lnkt1_status\" AS \"lnkt1_status\"",
        "t1.\"lnkt1_dt_insert\" AS \"lnkt1_dt_insert\"",
        "t1.\"lnkt1_dt_delete\" AS \"lnkt1_dt_delete\""] ++ tail ∧
      Farm.places.returnTypes = [Farm.stalls] := by
  obtain ⟨f, hf⟩ : ∃ f, Farm.places.compile {} = .ok f := ⟨_, rfl⟩
  obtain ⟨words, q, texts, hwords, -, htexts, hsql, -, hreturn⟩ := exists_selectList hf
  cases hwords
  have hshown : Farm.places.walk.filter (Farm.places.Shown ·) = [1] := by decide
  rw [hshown] at htexts hreturn
  cases htexts
  exact ⟨f, hf, _, congrArg Fragment.sql hsql, hreturn⟩

end ObjectQuery.Query
