import ObjectQuery.Definition.Build
import ObjectQuery.Proofs.QualifiedParts

/-!
# What derived tables show

A derived table shows the columns of its node to the rest of the statement.  A view is shown as
a whole; from a repository table and a type table the selected columns are listed, which leaves
out the row identifier of the type table unless the repository has a column of that name.  A
reference from outside to a column left out has nothing to refer to, although a definition may
list the column, and although the views and the joins in line know it.

## Main Definitions

* `Columns.Exposes`, `Columns.Resolves` — a column shown at least once, and exactly once
* `Catalog.Table.Offers` — what the tables of an object type have to show
* `Graph.ReadOutside` — the columns of a node that stand outside of its derived table

## Main Statements

* `NodeSettings.exposes_derivedColumns_iff`, `NodeSettings.resolves_derivedColumns_iff` — what
  is shown of a table
* `Graph.ReadOutside.qualifier` — references from outside go to the derived table
* `Graph.Visits.mem_row_items` — the columns of the link row
* `Graph.derived_exposes` — what the derived table of a left-joined node shows
* `Definition.exists_hidden_column` — a definition that lists a column which its derived table
  does not show
-/

namespace ObjectQuery.Sql

namespace Columns

/-- A select without labels shows a column of a name which its tables offer. -/
def Exposes (offers : ColumnRef → Prop) (name : String) : Columns → Prop
  | .every aliasName => offers ⟨aliasName, name⟩
  | .listed columns => ∃ c ∈ columns, c.column = name ∧ offers c

/-- A select without labels shows a single column of a name, so that the name can be referred
to. -/
def Resolves (offers : ColumnRef → Prop) (name : String) : Columns → Prop
  | .every aliasName => offers ⟨aliasName, name⟩
  | .listed columns => ∃ c, columns.filter (·.column == name) = [c] ∧ offers c

end Columns

end ObjectQuery.Sql

namespace ObjectQuery.Query

open ObjectQuery.Sql ObjectQuery.Outcome

/-! ### Listed columns -/

section Listed

variable {offers : ColumnRef → Prop} {scope : Scope} {fields : List Catalog.Field}

/-- A list of columns shows the names of its fields. -/
theorem exposes_listed_iff (h : ∀ f ∈ fields, offers (scope.column f.name)) {name : String} :
    (Columns.listed (fields.map fun f => scope.column f.name)).Exposes offers name ↔
      name ∈ fields.map (·.name) := by
  constructor
  · rintro ⟨c, hc, rfl, -⟩
    obtain ⟨f, hf, rfl⟩ := List.mem_map.mp hc
    exact List.mem_map_of_mem hf
  · intro hname
    obtain ⟨f, hf, rfl⟩ := List.mem_map.mp hname
    exact ⟨scope.column f.name, List.mem_map_of_mem hf, rfl, h f hf⟩

/-- A name can be referred to if a single field has it. -/
theorem resolves_listed_iff (h : ∀ f ∈ fields, offers (scope.column f.name)) {name : String} :
    (Columns.listed (fields.map fun f => scope.column f.name)).Resolves offers name ↔
      (fields.map (·.name)).count name = 1 := by
  have hfilter : (fields.map fun f => scope.column f.name).filter (·.column == name) =
      (fields.filter (·.name == name)).map fun f => scope.column f.name := List.filter_map ..
  have hcount : (fields.map (·.name)).count name = (fields.filter (·.name == name)).length := by
    rw [List.count, List.countP_map, List.countP_eq_length_filter]
    rfl
  rw [Columns.Resolves, hfilter, hcount, List.length_eq_one_iff]
  constructor
  · rintro ⟨c, hc, -⟩
    obtain ⟨f, hf, -⟩ := List.map_eq_singleton_iff.mp hc
    exact ⟨f, hf⟩
  · rintro ⟨f, hf⟩
    have hmem : f ∈ fields := (List.mem_filter.mp (hf ▸ List.mem_singleton_self f)).1
    exact ⟨scope.column f.name, by rw [hf, List.map_singleton], h f hmem⟩

end Listed

/-! ### Tables -/

end ObjectQuery.Query

namespace ObjectQuery.Catalog.Table

open ObjectQuery.Sql ObjectQuery.Query

variable {t : Table} {name : String}

/-- The columns that the tables of an object type have: all of them in the view, or those of
the repository and those of the type table, each under the alias of its table. -/
def Offers (t : Table) (aliasName : String) (physical : Bool) (c : ColumnRef) : Prop :=
  if physical then
    c.qualifier = repositoryAlias aliasName ∧ c.column ∈ t.repositoryFields.map (·.name) ∨
      c.qualifier = aliasName ∧ c.column ∈ t.typeFields.map (·.name)
  else c.qualifier = aliasName ∧ c.column ∈ t.fields.map (·.name)

/-- A column is known if the repository or the type table has it. -/
theorem mem_fields_iff : name ∈ t.fields.map (·.name) ↔
    name ∈ t.repositoryFields.map (·.name) ∨ name ∈ t.typeFields.map (·.name) := by
  rw [fields, List.map_append, List.mem_append]

/-- Of the known columns all are selected but the row identifier, which is selected only if it
is a column of the repository as well. -/
theorem mem_selectedFields_iff (h : name ∈ t.fields.map (·.name)) :
    name ∈ t.selectedFields.map (·.name) ↔
      name ∈ t.repositoryFields.map (·.name) ∨ name ≠ t.rowColumn := by
  have hown : name ∈ t.ownFields.map (·.name) ↔
      name ∈ t.typeFields.map (·.name) ∧ name ≠ t.rowColumn := by
    simp only [ownFields, List.mem_map, List.mem_filter, bne_iff_ne]
    constructor
    · rintro ⟨f, ⟨hf, hne⟩, rfl⟩
      exact ⟨⟨f, hf, rfl⟩, hne⟩
    · rintro ⟨⟨f, hf, rfl⟩, hne⟩
      exact ⟨f, ⟨hf, hne⟩, rfl⟩
  rw [selectedFields, List.map_append, List.mem_append, hown]
  rw [mem_fields_iff] at h
  tauto

theorem mem_fields_of_mem_selectedFields (h : name ∈ t.selectedFields.map (·.name)) :
    name ∈ t.fields.map (·.name) := by
  rw [selectedFields, List.map_append, List.mem_append] at h
  refine mem_fields_iff.mpr (h.imp_right fun hown => ?_)
  exact List.map_subset _ (List.filter_subset_self _) hown

end ObjectQuery.Catalog.Table

namespace ObjectQuery.Query

open ObjectQuery.Sql ObjectQuery.Outcome

namespace NodeSettings

variable {n : NodeSettings} {t : Catalog.Table}

/-- Beside its tables a node finds every column that it knows. -/
theorem offers_scope_column (ht : n.table? = some t) (aliasName : String) (physical : Bool)
    {name : String} (h : name ∈ t.fields.map (·.name)) :
    t.Offers aliasName physical ((n.scope aliasName physical).column name) := by
  unfold scope Catalog.Table.Offers
  rw [ht]
  cases physical with
  | false => exact ⟨rfl, h⟩
  | true =>
    by_cases hrepository : name ∈ t.repositoryFields.map (·.name)
    · refine Or.inl ⟨?_, hrepository⟩
      exact if_pos (List.contains_iff_mem.mpr hrepository)
    · refine Or.inr ⟨?_, (Catalog.Table.mem_fields_iff.mp h).resolve_left hrepository⟩
      exact if_neg (mt List.contains_iff_mem.mp hrepository)

/-- A derived table shows a table as a whole, or it lists the selected columns. -/
theorem derivedColumns_eq (ht : n.table? = some t) (scope : Scope) (physical : Bool) :
    n.derivedColumns scope physical =
      if physical then .listed (t.selectedFields.map fun f => scope.column f.name)
      else .every scope.aliasName := by
  rw [derivedColumns, ht]

/-- The selected columns are found beside the tables. -/
theorem offers_selectedFields (ht : n.table? = some t) (aliasName : String) (physical : Bool) :
    ∀ f ∈ t.selectedFields,
      t.Offers aliasName physical ((n.scope aliasName physical).column f.name) :=
  fun _ hf => offers_scope_column ht aliasName physical
    (Catalog.Table.mem_fields_of_mem_selectedFields (List.mem_map_of_mem hf))

section DerivedColumns

variable (ht : n.table? = some t) (aliasName : String) (physical : Bool) {name : String}
  (hname : name ∈ t.fields.map (·.name))

include ht hname

/-- A derived table shows the known columns of a view, and the selected ones of two tables. -/
theorem exposes_derivedColumns_iff :
    (n.derivedColumns (n.scope aliasName physical) physical).Exposes (t.Offers aliasName physical)
        name ↔
      (physical = true → name ∈ t.repositoryFields.map (·.name) ∨ name ≠ t.rowColumn) := by
  rw [derivedColumns_eq ht, aliasName_scope]
  cases physical with
  | false =>
    constructor
    · intro _ h
      cases h
    · intro _
      exact ⟨rfl, hname⟩
  | true =>
    rw [if_pos rfl, exposes_listed_iff (offers_selectedFields ht aliasName true),
      Catalog.Table.mem_selectedFields_iff hname]
    exact ⟨fun h _ => h, fun h => h rfl⟩

/-- A known column can be referred to in a view, and in two tables if it is selected once. -/
theorem resolves_derivedColumns_iff :
    (n.derivedColumns (n.scope aliasName physical) physical).Resolves (t.Offers aliasName physical)
        name ↔
      (physical = true → (t.selectedFields.map (·.name)).count name = 1) := by
  rw [derivedColumns_eq ht, aliasName_scope]
  cases physical with
  | false =>
    constructor
    · intro _ h
      cases h
    · intro _
      exact ⟨rfl, hname⟩
  | true =>
    rw [if_pos rfl, resolves_listed_iff (offers_selectedFields ht aliasName true)]
    exact ⟨fun h _ => h, fun h => h rfl⟩

end DerivedColumns

end NodeSettings

/-! ### References from outside -/

namespace Graph

/-- The columns of a node that stand outside of its derived table, if it has one: in its select
items, in its order, and in the joins of the nodes joined to it. -/
inductive ReadOutside (g : Graph) (mode : Mode) (id : Nat) : ColumnRef → Prop
  | item {p : Part} {item : SelectItem} (hp : g.part mode id = .ok p) (hitem : item ∈ p.items) :
    ReadOutside g mode id item.source
  | order {p : Part} {term : OrderTerm} (hp : g.part mode id = .ok p) (hterm : term ∈ p.order) :
    ReadOutside g mode id term.column
  | join {child : Nat} {n : Node} {j : PlannedJoin} (hpartner : g.partner? child = some id)
    (hn : g.node? child = some n)
    (hj : g.planJoin mode child n.toNodeSettings = .ok (some j)) (name : String) :
    ReadOutside g mode id (j.previous.column name)

variable {g : Graph} {mode : Mode} {id : Nat} {n : Node}

/-- References to an isolated node go to its derived table. -/
theorem ReadOutside.qualifier {c : ColumnRef} (h : g.ReadOutside mode id c)
    (hn : g.node? id = some n) (hisolated : g.isolated id n.toNodeSettings = true) :
    c.qualifier = n.aliasName := by
  have houtside : g.Outside mode id c := by
    cases h with
    | @item p item hp hitem =>
      obtain ⟨v, hv, rfl⟩ := part_eq_ok_iff.mp hp
      rcases hv.qualified.items item hitem with hown | ⟨⟨m, hm, hinline⟩, -⟩
      · exact hown
      · cases hn.symm.trans hm
        rw [hisolated] at hinline
        cases hinline
    | @order p term hp hterm =>
      obtain ⟨v, hv, rfl⟩ := part_eq_ok_iff.mp hp
      exact hv.qualified.order term hterm
    | @join child m j hpartner hm hj name =>
      obtain ⟨previous, _, _, _, _, hprevious, -, -, -, -, hsome⟩ :=
        (planJoin_eq_ok_iff hpartner).mp hj
      cases hsome
      exact outside_outerScope (node_eq_ok_iff.mp hprevious) name
  obtain ⟨m, hm, hqualifies⟩ := houtside
  cases hn.symm.trans hm
  rw [hisolated] at hqualifies
  exact NodeSettings.qualifies_hidden_iff.mp hqualifies

/-- The link row that leads to a node of a tree is shown with all of its columns, under names of
their own. -/
theorem Visits.mem_row_items {v : Visit} (hv : g.Visits mode id v) (hd : g.direction = .reverse)
    {partner : Nat} (hp : g.partner? id = some partner) {j : PlannedJoin}
    (hj : v.join = some j) {links : LinkTable} (hlinks : g.linkTable = some links)
    {near : LinkEnd} {linkType : Option Int64} (hlink : v.node.link = some (.linkRow near linkType))
    {name : String} (hname : name ∈ links.columns.all) :
    .column ⟨LinkTable.aliasTo v.node.aliasName, name⟩
        (LinkTable.aliasTo v.node.aliasName ++ "_" ++ name) ∈ j.row.elim [] LinkRow.items := by
  have hholder : g.node? (g.direction.linkHolder id partner) = some v.node := by
    rw [hd]
    exact hv.node
  have hof : g.OfLinkRow id ⟨LinkTable.aliasTo v.node.aliasName, name⟩ :=
    ⟨v.node, links, hv.node, ⟨partner, v.node, _, hp, hholder, hlink, rfl⟩, hlinks, rfl, hname⟩
  obtain ⟨j', row, hj', hrow, -⟩ := hv.row_of_ofLinkRow hof
  cases hj.symm.trans hj'
  obtain ⟨_, -, -, hleads⟩ := hv.join_spec hj
  obtain ⟨m, hm, -, htable, halias⟩ := hleads row hrow
  cases hv.node.symm.trans hm
  cases hlinks.symm.trans htable
  have hitem : SelectItem.column (row.column name) (row.exposed name) ∈ row.items :=
    List.mem_map_of_mem hname
  rw [LinkRow.column, LinkRow.exposed, halias] at hitem
  rw [hrow]
  exact hitem

/-- What the derived table of a left-joined node of a tree shows of the table that the node
reads.  References from outside go to the derived table.  A column that is known is shown, and
a reference to it resolves, with these exceptions among two tables side by side: the row
identifier is left out unless it is a column of the repository, and a column that both tables
have is shown twice.  The columns of the link row are shown under names of their own. -/
theorem derived_exposes {q : Statement} {t : Catalog.Table} (hq : g.statement mode = .ok q)
    (hd : g.direction = .reverse) (hid : 0 < id) (hn : g.node? id = some n)
    (hjoin : n.join = .left) (ht : n.table? = some t) :
    ∃ p table on, g.part mode id = .ok p ∧ p.joins = [.derived table n.aliasName on] ∧
      Join.derived table n.aliasName on ∈ q.joins ∧
      (∀ name ∈ t.fields.map (·.name),
        (table.columns.Exposes (t.Offers n.aliasName mode.physical) name ↔
          (mode.physical = true →
            name ∈ t.repositoryFields.map (·.name) ∨ name ≠ t.rowColumn)) ∧
        (table.columns.Resolves (t.Offers n.aliasName mode.physical) name ↔
          (mode.physical = true → (t.selectedFields.map (·.name)).count name = 1))) ∧
      (∀ c, g.ReadOutside mode id c → c.qualifier = n.aliasName) ∧
      ∀ links near linkType, g.linkTable = some links →
        n.link = some (.linkRow near linkType) → ∀ name ∈ links.columns.all,
          .column ⟨"lnk" ++ n.aliasName, name⟩ ("lnk" ++ n.aliasName ++ "_" ++ name) ∈
            table.linkItems := by
  obtain ⟨partner, hp⟩ := exists_partner? hid (exists_node?_iff.mp ⟨n, hn⟩)
  have hisolated : g.isolated id n.toNodeSettings = true :=
    isolated_iff.mpr ⟨hd, by rw [hp]; rfl, hjoin⟩
  obtain ⟨_, _, parts, -, -, hparts, rfl⟩ := statement_eq_ok_iff.mp hq
  obtain ⟨v, hv, rfl⟩ := exists_visits hparts hn
  have hpart : g.part mode id = .ok (v.part g mode id) := part_eq_ok_iff.mpr ⟨v, hv, rfl⟩
  have hmem : v.part g mode id ∈ parts :=
    mem_of_mapM hparts (mem_walk.mpr (exists_node?_iff.mp ⟨_, hn⟩)) hpart
  obtain ⟨j, hj⟩ := Option.isSome_iff_exists.mp
    ((planJoin_isSome_iff hv.join).mpr (by rw [hp]; rfl))
  have hjoins : (v.part g mode id).joins = v.joins g mode id := rfl
  rw [Visit.joins_of_isolated hj hisolated, derivedJoin_eq, NodeSettings.aliasName_scope] at hjoins
  refine ⟨v.part g mode id, _, _, hpart, hjoins, ?_, ?_, ?_, ?_⟩
  · refine List.mem_flatMap.mpr ⟨_, hmem, ?_⟩
    rw [hjoins]
    exact List.mem_singleton_self _
  · intro name hname
    exact ⟨NodeSettings.exposes_derivedColumns_iff ht _ _ hname,
      NodeSettings.resolves_derivedColumns_iff ht _ _ hname⟩
  · intro c hc
    exact hc.qualifier hn hisolated
  · intro links near linkType hlinks hlink name hname
    show _ ∈ j.row.elim [] LinkRow.items
    exact hv.mem_row_items hd hp hj hlinks hlink hname

/-- The stalls are joined as a derived table, which shows all of their columns and those of
the link row. -/
theorem derived_exposes_farm : ∃ p table on,
    Farm.graph.part ⟨true, false⟩ 1 = .ok p ∧ p.joins = [.derived table "t1" on] ∧
      (∀ name ∈ Farm.stalls.fields.map (·.name),
        table.columns.Resolves (Farm.stalls.Offers "t1" true) name) ∧
      .column ⟨"lnkt1", "status"⟩ "lnkt1_status" ∈ table.linkItems := by
  obtain ⟨q, hq⟩ : ∃ q, Farm.graph.statement ⟨true, false⟩ = .ok q := ⟨_, rfl⟩
  have hstall : Farm.graph.node? 1 = some { Farm.stall with position := 1 } := rfl
  obtain ⟨p, table, on, hp, hjoins, -, hcolumns, -, hlinks⟩ :=
    derived_exposes hq rfl Nat.one_pos hstall rfl rfl
  refine ⟨p, table, on, hp, hjoins, fun name hname => ?_, ?_⟩
  · have honce : ∀ name ∈ Farm.stalls.fields.map (·.name),
        (Farm.stalls.selectedFields.map (·.name)).count name = 1 := by decide
    exact (hcolumns name hname).2.mpr fun _ => honce name hname
  · exact hlinks _ .first (some 5) rfl rfl "status" (by decide)

end Graph

end ObjectQuery.Query

/-! ### A hidden column -/

namespace ObjectQuery.Definition

open ObjectQuery.Query ObjectQuery.Sql

namespace Farm

/-- Animals whose rows are identified by a column of the type table. -/
def tagged : Catalog.Table where
  objectType := 2
  name := "ANIMAL"
  schema := "farm"
  tableName := "animal"
  rowColumn := "row_id"
  typeFields := [⟨"row_id", .integer⟩, ⟨"breed", .text⟩]

/-- The stalls and the tagged animals. -/
def tags : Catalog :=
  Catalog.Registry.toCatalog
    { tables := [(2, tagged), (3, Query.Farm.stalls)]
      objectTypes := [("ANIMAL", 2), ("STALL", 3)] }

/-- The stalls with the row identifiers of the animals inside. -/
def tagList : QueryDefinition where
  root := some
    { table := some "STALL"
      children :=
        [{ table := some "ANIMAL", link := some .parent, join := .left,
           fields := some ["row_id"] }] }

end Farm

/-- A definition may list the row identifier of a left-joined node: the catalog knows the column
and the graph compiles.  In physical mode the select list refers to the column of the derived
table, which does not show it. -/
theorem exists_hidden_column : ∃ g n p table on,
    Farm.tagList.build Farm.tags {} .standard = .ok g ∧ g.direction = .reverse ∧
      g.node? 1 = some n ∧ n.join = .left ∧ n.table? = some Farm.tagged ∧
      "row_id" ∈ Farm.tagged.fields.map (·.name) ∧ (∃ f, g.compile ⟨true, false⟩ = .ok f) ∧
      g.part ⟨true, false⟩ 1 = .ok p ∧ p.joins = [.derived table "t1" on] ∧
      p.items = [.column ⟨"t1", "row_id"⟩ "t1_row_id"] ∧
      ¬table.columns.Exposes (Farm.tagged.Offers "t1" true) "row_id" := by
  refine ⟨_, _, _, _, _, rfl, rfl, rfl, rfl, rfl, by decide, ⟨_, rfl⟩, rfl, rfl, rfl, ?_⟩
  rintro ⟨c, hc, hname, -⟩
  revert c
  decide

end ObjectQuery.Definition
