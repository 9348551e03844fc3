import ObjectQuery.Proofs.ResultLabels

/-!
# Geometry columns in select lists

A geometry column is not selected as it is: a select list either leaves it out or reads it
through the expression that the database has for it.  A node's own list looks for the name of a
column among the geometry columns, and a default list goes by the type of each column, so the two
agree unless a table has a second column of the name that holds no geometry.  A select list
without items is an asterisk, and an asterisk selects everything that the tables have.

## Main Definitions

* `NodeSettings.ShowsPlain`, `NodeSettings.ReadsGeometry` — the columns that a node selects as
  they are, and those that it reads
* `Graph.Unshared` — a column whose name, as it is written, stands for nothing else

## Main Statements

* `NodeSettings.mem_items_iff` — the items of one node that are written as a geometry column
* `Graph.geometry_mem_items_iff` — those of a whole statement
* `Graph.items_eq_nil_iff` — when a select list has no items
* `Graph.compile_geometry` — the select list of a compiled graph
* `Graph.exists_asterisk_with_geometry` — a geometry column behind an asterisk
-/

namespace ObjectQuery.Query

open ObjectQuery.Sql ObjectQuery.Outcome

/-! ### The items of one node -/

namespace NodeSettings

/-- A node without a list of its own reads a table that has a column of a name without
geometry. -/
def ShowsPlain (n : NodeSettings) (t : Catalog.Table) (x : String) : Prop :=
  n.fields = none ∧ ∃ f ∈ t.selectedFields, f.name = x ∧ f.isGeometry = false

/-- A node reads a geometry column: its own list has the name, or it has no list, and geometry
is asked for. -/
def ReadsGeometry (n : NodeSettings) (t : Catalog.Table) (geometry : Bool) (x : String) : Prop :=
  (∃ fields, n.fields = some fields ∧ x ∈ fields) ∨
    n.fields = none ∧ geometry = true ∧ ∃ f ∈ t.selectedFields, f.name = x ∧ f.isGeometry = true

variable {n : NodeSettings} {t : Catalog.Table} {scope : Scope} {geometry : Bool}
  {items : List SelectItem} {item : SelectItem} {x : String}

/-- What an item of a default list is. -/
theorem fieldItem?_eq_some_iff {f : Catalog.Field} :
    n.fieldItem? scope geometry f = some item ↔
      f.isGeometry = true ∧ geometry = true ∧ item = n.geometryItem scope f.name ∨
        f.isGeometry = false ∧ item = n.plainItem scope f.name := by
  unfold fieldItem?
  cases f.isGeometry <;> cases geometry <;> simp [eq_comm]

/-- An item of a node's own list is written as its column. -/
theorem source_customItem (column : String) :
    (n.customItem scope column).source = scope.column column := by
  unfold customItem
  cases n.table? with
  | none => rfl
  | some t =>
    show (if t.isGeometryField column then n.geometryItem scope column
      else n.plainItem scope column).source = _
    split <;> rfl

/-- The items of a node that are written as a geometry column of its table. -/
theorem mem_items_iff (ht : n.table? = some t) (hx : t.isGeometryField x = true)
    (h : n.items scope geometry = .ok items) (hsource : item.source = scope.column x) :
    item ∈ items ↔ item = n.geometryItem scope x ∧ n.ReadsGeometry t geometry x ∨
      item = n.plainItem scope x ∧ n.ShowsPlain t x := by
  have hname : item.source.column = x := congrArg ColumnRef.column hsource
  rw [NodeSettings.items] at h
  cases hfields : n.fields with
  -- In the own list of a node the name alone decides.
  | some fields =>
    rw [hfields] at h
    cases h
    have hcustom : n.customItem scope x = n.geometryItem scope x := by
      rw [customItem, ht]
      exact if_pos hx
    constructor
    · intro hitem
      obtain ⟨column, hcolumn, rfl⟩ := List.mem_map.mp hitem
      rw [source_customItem] at hname
      obtain rfl : column = x := hname
      exact Or.inl ⟨hcustom, Or.inl ⟨fields, hfields, hcolumn⟩⟩
    · rintro (⟨rfl, ⟨_, hsome, hmem⟩ | ⟨hnone, -⟩⟩ | ⟨-, hnone, -⟩)
      · cases hfields.symm.trans hsome
        exact List.mem_map.mpr ⟨x, hmem, hcustom⟩
      · cases hfields.symm.trans hnone
      · cases hfields.symm.trans hnone
  | none =>
    rw [hfields] at h
    obtain ⟨source, hrequire, rfl⟩ := map_eq_ok_iff.mp h
    rw [table?, requireSource_eq_ok_iff.mp hrequire] at ht
    cases source with
    | subQuery q => cases ht
    | table table =>
      cases ht
      show item ∈ t.selectedFields.filterMap (n.fieldItem? scope geometry) ↔ _
      simp only [List.mem_filterMap, fieldItem?_eq_some_iff]
      constructor
      · rintro ⟨f, hf, ⟨hgeometry, hasked, rfl⟩ | ⟨hplain, rfl⟩⟩
        · obtain rfl : f.name = x := hname
          exact Or.inl ⟨rfl, Or.inr ⟨hfields, hasked, f, hf, rfl, hgeometry⟩⟩
        · obtain rfl : f.name = x := hname
          exact Or.inr ⟨rfl, hfields, f, hf, rfl, hplain⟩
      · rintro (⟨rfl, ⟨_, hsome, -⟩ | ⟨-, hasked, f, hf, rfl, hgeometry⟩⟩ |
          ⟨rfl, -, f, hf, rfl, hplain⟩)
        · cases hfields.symm.trans hsome
        · exact ⟨f, hf, Or.inl ⟨hgeometry, hasked, rfl⟩⟩
        · exact ⟨f, hf, Or.inr ⟨hplain, rfl⟩⟩

/-- A node has an item for each column that it shows. -/
theorem items_eq_nil_iff (h : n.items scope geometry = .ok items) :
    items = [] ↔ n.shownColumns geometry = [] := by
  rw [← List.map_eq_nil_iff (f := SelectItem.label), labels_items h, List.map_eq_nil_iff]

end NodeSettings

/-! ### The items of a statement -/

namespace Graph

/-- The name of a column of a node, as the other nodes write it, stands for nothing else: no
other node declares its qualifier, and a derived table of the node shows no column of a link row
under it. -/
structure Unshared (g : Graph) (mode : Mode) (id : Nat) (n : NodeSettings) (x : String) :
    Prop where
  nodes : ∀ k, ((g.outerScope mode id n).column x).qualifier ∈ g.namesOf mode k → k = id
  row : g.isolated id n = true → x ∉ (g.rowColumns id n).map n.rowLabelOf

variable {g : Graph} {mode : Mode} {id : Nat} {q : Statement} {item : SelectItem}

namespace Visits

variable {v : Visit}

/-- What the other nodes may write of a node is under a name that the statement declares for
it. -/
theorem among_namesOf (hv : g.Visits mode id v) {c : ColumnRef}
    (hc : g.Outside mode id c ∨ g.InLine id ∧ g.OfLinkRow id c) : c.Among (g.namesOf mode id) := by
  cases hp : g.partner? id with
  | none =>
    have hfirst : id = 0 := by
      by_contra hpos
      obtain ⟨partner, hpartner⟩ := exists_partner? (Nat.pos_of_ne_zero hpos)
        (exists_node?_iff.mp ⟨_, hv.node⟩)
      rw [hp] at hpartner
      cases hpartner
    subst hfirst
    rcases hc with hnode | ⟨-, -, -, -, ⟨partner, -, -, hpartner, -⟩, -⟩
    · rw [← hv.names_root]
      exact hv.among_root hnode
    · rw [hp] at hpartner
      cases hpartner
  | some partner =>
    rw [← hv.joinNames_joins hp]
    rcases hc with hnode | ⟨hinline, hrow⟩
    · exact hv.among_joins hp hnode
    · exact hv.row_among_joins hinline hrow

end Visits

/-- The columns of the link row of a node are written otherwise than its own columns. -/
theorem source_rowItem_ne (n : NodeSettings) {x column : String} (h : g.Unshared mode id n x)
    (hcolumn : column ∈ g.rowColumns id n) :
    (n.rowItem (g.isolated id n) column).source ≠ (g.outerScope mode id n).column x := by
  intro heq
  cases hisolated : g.isolated id n with
  | true =>
    rw [hisolated, outerScope, if_pos hisolated] at heq
    have hname : n.rowLabelOf column = x := congrArg ColumnRef.column heq
    exact h.row hisolated (List.mem_map.mpr ⟨column, hcolumn, hname⟩)
  | false =>
    rw [hisolated, outerScope, hisolated] at heq
    have hqualifier : LinkTable.aliasTo n.aliasName =
        ((n.scope n.aliasName mode.physical).column x).qualifier :=
      congrArg ColumnRef.qualifier heq
    rw [show _ = _ from n.qualifies_scope n.aliasName mode.physical x] at hqualifier
    split at hqualifier
    · exact repositoryAlias_ne_aliasTo n.aliasName n.aliasName hqualifier.symm
    · exact MadeFrom.ne (Or.inl rfl) hqualifier

/-- The items of a statement are those of the shown nodes. -/
theorem mem_items_iff (h : g.statement mode = .ok q) :
    item ∈ q.items ↔ ∃ k v, g.Shown k ∧ g.Visits mode k v ∧ item ∈ (v.part g mode k).items := by
  obtain ⟨parts, hparts, hitems⟩ := exists_shown_parts h
  rw [hitems, List.mem_flatMap]
  constructor
  · rintro ⟨p, hp, hitem⟩
    obtain ⟨k, hk, hpart⟩ := exists_of_mem_mapM hparts hp
    obtain ⟨v, hv, rfl⟩ := part_eq_ok_iff.mp hpart
    exact ⟨k, v, mem_shown.mp hk, hv, hitem⟩
  · rintro ⟨k, v, hshown, hv, hitem⟩
    exact ⟨_, mem_of_mapM hparts (mem_shown.mpr hshown) (part_eq_ok_iff.mpr ⟨v, hv, rfl⟩), hitem⟩

/-- A select list has no items if no shown node has a column to show, neither of its own nor of
its link row. -/
theorem items_eq_nil_iff (h : g.statement mode = .ok q) :
    q.items = [] ↔ ∀ id n, g.node? id = some n → g.Shown id →
      n.shownColumns mode.geometry = [] ∧ g.rowColumns id n.toNodeSettings = [] := by
  have hpart : ∀ {k : Nat} {v : Visit}, g.Visits mode k v → g.Shown k →
      ((v.part g mode k).items = [] ↔ v.node.shownColumns mode.geometry = [] ∧
        g.rowColumns k v.node.toNodeSettings = []) := by
    intro k v hv hshown
    rw [hv.items_of_shown hshown, List.append_eq_nil_iff, List.map_eq_nil_iff,
      NodeSettings.items_eq_nil_iff hv.own]
  rw [List.eq_nil_iff_forall_not_mem]
  constructor
  · intro hnone id n hn hshown
    obtain ⟨_, _, parts, -, -, hparts, -⟩ := statement_eq_ok_iff.mp h
    obtain ⟨v, hv, rfl⟩ := exists_visits hparts hn
    refine (hpart hv hshown).mp (List.eq_nil_iff_forall_not_mem.mpr fun item hitem => ?_)
    exact hnone item ((mem_items_iff h).mpr ⟨id, v, hshown, hv, hitem⟩)
  · intro hnone item hitem
    obtain ⟨k, v, hshown, hv, hmem⟩ := (mem_items_iff h).mp hitem
    rw [(hpart hv hshown).mpr (hnone k v.node hv.node hshown)] at hmem
    cases hmem

/-- The items of a statement that are written as a geometry column of a node. -/
theorem geometry_mem_items_iff (h : g.statement mode = .ok q) {n : Node} {t : Catalog.Table}
    {x : String} (hn : g.node? id = some n) (ht : n.table? = some t)
    (hx : t.isGeometryField x = true) (hunshared : g.Unshared mode id n.toNodeSettings x)
    (hsource : item.source = (g.outerScope mode id n.toNodeSettings).column x) :
    item ∈ q.items ↔ g.Shown id ∧
      (item = n.geometryItem (g.outerScope mode id n.toNodeSettings) x ∧
          n.ReadsGeometry t mode.geometry x ∨
        item = n.plainItem (g.outerScope mode id n.toNodeSettings) x ∧ n.ShowsPlain t x) := by
  rw [mem_items_iff h]
  constructor
  · rintro ⟨k, v, hshown, hv, hitem⟩
    obtain rfl : k = id := by
      refine hunshared.nodes k ?_
      rw [← hsource]
      exact hv.among_namesOf (hv.source_items item hitem)
    cases hv.node.symm.trans hn
    rw [hv.items_of_shown hshown] at hitem
    rcases List.mem_append.mp hitem with hown | hrow
    · exact ⟨hshown, (NodeSettings.mem_items_iff ht hx hv.own hsource).mp hown⟩
    · obtain ⟨column, hcolumn, rfl⟩ := List.mem_map.mp hrow
      exact absurd hsource (source_rowItem_ne v.node.toNodeSettings hunshared hcolumn)
  · rintro ⟨hshown, hown⟩
    obtain ⟨_, _, parts, -, -, hparts, -⟩ := statement_eq_ok_iff.mp h
    obtain ⟨v, hv, rfl⟩ := exists_visits hparts hn
    refine ⟨id, v, hshown, hv, ?_⟩
    rw [hv.items_of_shown hshown]
    exact List.mem_append_left _ ((NodeSettings.mem_items_iff ht hx hv.own hsource).mpr hown)

/-- Where the declared names are distinct, only a derived table that shows its link row can have
a second column under the name of a column. -/
theorem NamesApart.unshared (h : g.NamesApart mode) {n : Node} (hn : g.node? id = some n)
    {x : String} (hrow : g.isolated id n.toNodeSettings = true →
      x ∉ (g.rowColumns id n.toNodeSettings).map n.rowLabelOf) :
    g.Unshared mode id n.toNodeSettings x := by
  refine ⟨fun k hk => h.eq_of_mem_namesOf hk ?_, hrow⟩
  rw [mem_namesOf]
  refine ⟨n, hn, ?_⟩
  cases hisolated : g.isolated id n.toNodeSettings with
  | true =>
    rw [outerScope, if_pos hisolated]
    exact Or.inr rfl
  | false =>
    have hqualifier : ((g.outerScope mode id n.toNodeSettings).column x).qualifier =
        if mode.physical = true ∧ x ∈ n.repositoryColumns ∧ false = false then
          repositoryAlias n.aliasName
        else n.aliasName := by
      rw [outerScope, hisolated]
      exact n.qualifies_scope n.aliasName mode.physical x
    rw [hqualifier]
    split
    · next hbeside =>
      obtain ⟨hphysical, hcolumn, -⟩ := hbeside
      have htable : n.table?.isSome = true := by
        unfold NodeSettings.repositoryColumns at hcolumn
        cases ht : n.table? with
        | none => simp [ht] at hcolumn
        | some t => rfl
      left
      rw [prefixedNames, hisolated, hphysical, htable]
      exact List.mem_append_right _ (List.mem_singleton_self _)
    · exact Or.inr rfl

/-- A select list is an asterisk exactly when no shown node has a column to show, neither of its
own nor of its link row.  In every other list, and in every mode, a geometry column of a node
stands only inside the expression that reads it, under the label of the column, in line as well
as behind a derived table; the exception is a default list over a table that has a second column
of the name, which holds no geometry. -/
theorem compile_geometry {f : Fragment} (h : g.compile mode = .ok f) :
    ∃ words q,
      let s : Spelling := ⟨words, g.environment.geometry⟩
      vocabulary g.environment.dialect = .ok words ∧ g.statement mode = .ok q ∧
        f = ⟨words .select ++ " " ++ renderItems s q.items ++ (q.tail s).sql,
          (q.tail s).values⟩ ∧
        (renderItems s q.items = "*" ↔ ∀ id n, g.node? id = some n → g.Shown id →
          n.shownColumns mode.geometry = [] ∧ g.rowColumns id n.toNodeSettings = []) ∧
        ∀ id n t x, g.node? id = some n → n.table? = some t → t.isGeometryField x = true →
          g.Unshared mode id n.toNodeSettings x →
          let c := (g.outerScope mode id n.toNodeSettings).column x
          (∀ item ∈ q.items, item.source = c →
            item = .column c (n.labelOf x) ∨
              item.render s = s.geometry.read (c.render words) ++ " " ++ words .label ++ " " ++
                words.quote (n.labelOf x)) ∧
          ((∃ label, .column c label ∈ q.items) ↔ g.Shown id ∧ n.ShowsPlain t x) := by
  obtain ⟨-, words, q, hwords, hq, rfl⟩ := compile_eq_ok_iff.mp h
  refine ⟨words, q, hwords, hq, q.render_eq_tail _, ?_, fun id n t x hn ht hx hunshared => ?_⟩
  · rw [renderItems_eq_asterisk_iff]
    exact items_eq_nil_iff hq
  · have hitems (item : SelectItem) (hsource : item.source = _) :=
      geometry_mem_items_iff hq hn ht hx hunshared hsource
    refine ⟨fun item hitem hsource => ?_, ?_⟩
    · obtain ⟨-, ⟨rfl, -⟩ | ⟨rfl, -⟩⟩ := (hitems item hsource).mp hitem
      · exact Or.inr rfl
      · exact Or.inl rfl
    · constructor
      · rintro ⟨label, hlabel⟩
        obtain ⟨hshown, ⟨hread, -⟩ | ⟨-, hplain⟩⟩ := (hitems _ rfl).mp hlabel
        · cases hread
        · exact ⟨hshown, hplain⟩
      · rintro ⟨hshown, hplain⟩
        exact ⟨n.labelOf x, (hitems _ rfl).mpr ⟨hshown, Or.inr ⟨rfl, hplain⟩⟩⟩

end Graph

namespace Farm

/-- The type of pastures, with the places where they are. -/
def pastures : Catalog.Table :=
  .ofFields 4 "PASTURE" "farm" "pasture" [⟨"name", .text⟩, ⟨"place", .geometry⟩]

/-- Pastures with the animals on them, which are asked for nothing. -/
def grazing : Graph :=
  (Graph.reverse .standard { source := some (.table animals), fields := some [] }).push
    { source := some (.table pastures), link := some .parent, join := .left } (some 0)
    admits_stall

/-- Pastures of which no column is listed. -/
def unlisted : Node where
  source := some (.table pastures)
  fields := some []

end Farm

namespace Graph

/-- With geometry, the place of a pasture is read from the derived table of the pastures. -/
theorem compile_geometry_farm :
    ∃ f words q, Farm.grazing.compile ⟨false, true⟩ = .ok f ∧
      vocabulary Farm.grazing.environment.dialect = .ok words ∧
      Farm.grazing.statement ⟨false, true⟩ = .ok q ∧
      (∀ label, .column ⟨"t1", "place"⟩ label ∉ q.items) ∧
      ∃ item ∈ q.items, item.source = ⟨"t1", "place"⟩ ∧
        item.render ⟨words, Farm.grazing.environment.geometry⟩ =
          "ST_AsText(t1.\"place\") AS \"t1_place\"" := by
  obtain ⟨f, hf⟩ : ∃ f, Farm.grazing.compile ⟨false, true⟩ = .ok f := ⟨_, rfl⟩
  obtain ⟨n, hn⟩ : ∃ n, Farm.grazing.node? 1 = some n := ⟨_, rfl⟩
  have hunshared : Farm.grazing.Unshared ⟨false, true⟩ 1 n.toNodeSettings "place" := by
    cases hn
    refine NamesApart.unshared ⟨by decide, by decide, ?_⟩ rfl fun _ => by decide
    exact List.forall_mem_nil _
  have ht : n.table? = some Farm.pastures := by
    cases hn
    rfl
  obtain ⟨words, q, hwords, hq, -, -, hgeometry⟩ := compile_geometry hf
  obtain ⟨hread, hraw⟩ := hgeometry 1 n Farm.pastures "place" hn ht rfl hunshared
  have hplain : ¬ n.ShowsPlain Farm.pastures "place" := by
    rintro ⟨-, hplain⟩
    revert hplain
    decide
  have hitem : n.geometryItem (Farm.grazing.outerScope ⟨false, true⟩ 1 n.toNodeSettings) "place"
      ∈ q.items := by
    refine (geometry_mem_items_iff hq hn ht rfl hunshared rfl).mpr ⟨by decide, Or.inl ⟨rfl, ?_⟩⟩
    cases hn
    exact Or.inr ⟨rfl, rfl, ⟨"place", .geometry⟩, by decide, rfl, rfl⟩
  cases hn
  cases hwords
  refine ⟨f, _, q, hf, rfl, hq, fun label hlabel => ?_, _, hitem, rfl, ?_⟩
  · exact hplain (hraw.mp ⟨label, hlabel⟩).2
  · exact (hread _ hitem rfl).resolve_left fun h => nomatch h

/-- Where no column is listed the select list is an asterisk, whatever geometry the table has. -/
theorem exists_asterisk_with_geometry :
    Farm.pastures.isGeometryField "place" = true ∧
      ∃ f, Farm.unlisted.compileIn .standard {} = .ok f ∧
        f.sql = "SELECT *\nFROM farm.v_pasture t0\nWHERE (t0.\"dt_delete\" = ?)" :=
  ⟨rfl, _, rfl, rfl⟩

end Graph

end ObjectQuery.Query
