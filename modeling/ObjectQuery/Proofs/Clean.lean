import ObjectQuery.Proofs.InPlace
import ObjectQuery.Proofs.Outcome
import ObjectQuery.Query.Compile

/-!
# Clean graphs

What callers of a compilation keep to: names are neutral, and texts that are taken as they are
come with their values.  Every name that resolution makes is put together from neutral ones,
so criteria and nodes that are clean resolve to expressions that are.

## Main Definitions

* `NodeSettings.Clean`, `Condition.Clean`, `Node.Clean` — neutral names and balanced texts
* `Graph.Clean` — a graph with its dialect, its geometry expressions and its link table

## Main Statements

* `Source.Clean.tableRef`, `NodeSettings.clean_scope` — tables and columns of clean nodes
* `Condition.clean_resolve`, `Node.clean_resolveNested` — clean criteria resolve to clean
  conditions
-/

namespace ObjectQuery.Catalog

open ObjectQuery.Sql (Neutral)

/-- The names of a table and of its columns are neutral. -/
structure Table.Clean (t : Table) : Prop where
  schema : Neutral t.schema
  tableName : Neutral t.tableName
  repository : Neutral t.repository
  rowColumn : Neutral t.rowColumn
  fields : ∀ f ∈ t.fields, Neutral f.name

end ObjectQuery.Catalog

namespace ObjectQuery.Query

open ObjectQuery.Sql ObjectQuery.Calendar ObjectQuery.Outcome

/-! ### Clean graphs -/

/-- The names of the link table and of its columns are neutral. -/
structure LinkTable.Clean (t : LinkTable) : Prop where
  schema : Neutral t.schema
  table : Neutral t.table
  columns : ∀ c ∈ t.columns.all, Neutral c

/-- The columns of a link are neutral, and a condition taken as it is needs no values. -/
def Link.Clean : Link → Prop
  | .child => True
  | .parent => True
  | .custom left right => (∀ c ∈ left, Neutral c) ∧ ∀ c ∈ right, Neutral c
  | .freeText sql => Inert sql
  | .linkRow _ _ => True
  | .denormalized field => Neutral field
  | .denormalizedReverse field => Neutral field
  | .denormalizedFull left right => Neutral left ∧ Neutral right

/-- The names of a source are neutral, and a sub-query comes with its values. -/
def Source.Clean : Source → Prop
  | .table t => t.Clean
  | .subQuery q => Fragment.Balanced ⟨q.sql, q.values⟩ ∧ ∀ f ∈ q.fields, Neutral f

/-- All names that a node is given are neutral, and its texts balanced. -/
structure NodeSettings.Clean (n : NodeSettings) : Prop where
  source : ∀ source, n.source = some source → source.Clean
  givenAlias : ∀ aliasName, n.givenAlias = some aliasName → Neutral aliasName
  link : ∀ link, n.link = some link → link.Clean
  sort : ∀ f ∈ n.sort, Neutral f.field
  fields : ∀ fields, n.fields = some fields → ∀ f ∈ fields, Neutral f

mutual

/-- All names inside a condition are neutral, and its texts balanced. -/
def Condition.Clean : Condition → Prop
  | .compare field _ _ => Neutral field
  | .compareFields field _ other => Neutral field ∧ Neutral other
  | .isNull field => Neutral field
  | .between field _ _ => Neutral field
  | .valueBetween _ low high => Neutral low ∧ Neutral high
  | .touches field _ => Neutral field
  | .inList field _ => Neutral field
  | .inSubquery field query => Neutral field ∧ query.Clean
  | .linked _ _ => True
  | .freeText sql values => Fragment.Balanced ⟨sql, values⟩
  | .group members => Criterion.AllClean members

/-- All names inside a criterion are neutral, and its texts balanced. -/
def Criterion.Clean : Criterion → Prop
  | ⟨condition, _, _⟩ => condition.Clean

/-- All members of a group are clean. -/
def Criterion.AllClean : List Criterion → Prop
  | [] => True
  | member :: rest => member.Clean ∧ Criterion.AllClean rest

/-- A node is clean with its criterion. -/
def Node.Clean : Node → Prop
  | ⟨settings, predicate⟩ => settings.Clean ∧ Criterion.CleanIfAny predicate

/-- A criterion is clean if there is one. -/
def Criterion.CleanIfAny : Option Criterion → Prop
  | none => True
  | some predicate => predicate.Clean

end

/-- The words of the dialect and all names are neutral, and all texts of the caller and of the
geometry expressions balanced.  Statuses may be any texts. -/
structure Graph.Clean (g : Graph) : Prop where
  keywords : ∀ (k : Keyword) word, g.environment.dialect.lookup? k.key = some word → Neutral word
  geometry : g.environment.geometry.Balanced
  linkTable : ∀ t, g.linkTable = some t → t.Clean
  nodes : ∀ id n, g.node? id = some n → n.Clean

/-! ### Names -/

/-- The texts that names are derived with. -/
@[simp] theorem neutral_affixes :
    Neutral "t" ∧ Neutral "r" ∧ Neutral "lnk" ∧ Neutral "_" ∧ Neutral "_f" ∧ Neutral "_sq" ∧
      Neutral ".v_" := by
  decide

/-- The aliases of a scope are neutral. -/
structure Scope.Clean (s : Scope) : Prop where
  aliasName : Neutral s.aliasName
  repository : ∀ side, s.repository = some side → Neutral side.aliasName

theorem Scope.clean_uniform {aliasName : String} (h : Neutral aliasName) :
    (Scope.uniform aliasName).Clean := by
  refine ⟨h, fun side hside => ?_⟩
  cases hside

theorem Scope.Clean.column {s : Scope} (h : s.Clean) {name : String} (hname : Neutral name) :
    (s.column name).Clean := by
  refine ⟨?_, hname⟩
  unfold Scope.column Scope.aliasOf
  cases hside : s.repository with
  | none => exact h.aliasName
  | some side =>
    dsimp only
    split
    · exact h.repository side hside
    · exact h.aliasName

/-- The object identifier is asked for by its name. -/
theorem Scope.Clean.objectId {s : Scope} (h : s.Clean) : (s.column Catalog.objectId).Clean :=
  h.column (by decide)

namespace NodeSettings

variable {n : NodeSettings}

theorem Clean.aliasName (h : n.Clean) : Neutral n.aliasName := by
  unfold NodeSettings.aliasName
  cases hgiven : n.givenAlias with
  | none => exact neutral_append.mpr ⟨by simp, neutral_natRepr n.position⟩
  | some aliasName => exact h.givenAlias aliasName hgiven

theorem clean_scope {aliasName : String} (h : Neutral aliasName) (physical : Bool) :
    (n.scope aliasName physical).Clean := by
  unfold scope
  cases n.table? with
  | none => exact Scope.clean_uniform h
  | some t =>
    cases physical with
    | false => exact Scope.clean_uniform h
    | true =>
      refine ⟨h, fun side hside => ?_⟩
      cases hside
      exact neutral_append.mpr ⟨by simp, h⟩

theorem Clean.requireSource {source : Source} (h : n.Clean)
    (hsource : n.requireSource = .ok source) : source.Clean :=
  h.source source (requireSource_eq_ok_iff.mp hsource)

theorem Clean.table {t : Catalog.Table} (h : n.Clean) (ht : n.table? = some t) : t.Clean := by
  unfold NodeSettings.table? at ht
  cases hs : n.source with
  | none =>
    rw [hs] at ht
    cases ht
  | some source =>
    rw [hs] at ht
    have hclean := h.source _ hs
    cases source with
    | table found =>
      cases ht
      exact hclean
    | subQuery q => cases ht

end NodeSettings

theorem clean_selectedFields {t : Catalog.Table} (h : t.Clean) :
    ∀ f ∈ t.selectedFields, Neutral f.name := by
  intro f hf
  rcases List.mem_append.mp hf with hsystem | hown
  · exact h.fields f (List.mem_append_left _ hsystem)
  · exact h.fields f (List.mem_append_right _ (List.mem_of_mem_filter hown))

theorem Source.Clean.tableRef {source : Source} (h : source.Clean) {aliasName : String}
    (halias : Neutral aliasName) (physical : Bool) :
    (source.tableRef aliasName physical).Clean := by
  cases source with
  | table t =>
    have ht : t.Clean := h
    cases physical with
    | false =>
      refine ⟨?_, halias⟩
      simp [Catalog.Table.viewName, ht.schema, ht.tableName]
    | true =>
      have hrepository : Neutral (repositoryAlias aliasName) :=
        neutral_append.mpr ⟨by simp, halias⟩
      have hkey : Neutral Catalog.rowKey := by decide
      refine ⟨⟨?_, hrepository⟩, ⟨?_, halias⟩, ⟨hrepository, hkey⟩, ⟨halias, ht.rowColumn⟩⟩
      · simp [Catalog.Table.repositoryName, ht.schema, ht.repository]
      · simp [Catalog.Table.typeTableName, ht.schema, ht.tableName]
  | subQuery q => exact ⟨h.1, halias⟩

theorem NodeSettings.Clean.derivedColumns {n : NodeSettings} (h : n.Clean) {scope : Scope}
    (hscope : scope.Clean) (physical : Bool) : (n.derivedColumns scope physical).Clean := by
  unfold NodeSettings.derivedColumns
  cases ht : n.table? with
  | none => exact hscope.aliasName
  | some t =>
    cases physical with
    | false => exact hscope.aliasName
    | true =>
      intro c hc
      obtain ⟨f, hf, rfl⟩ := List.mem_map.mp hc
      exact hscope.column (clean_selectedFields (h.table ht) f hf)

theorem NodeSettings.Clean.nestedColumns {n : NodeSettings} (h : n.Clean) {scope : Scope}
    (hscope : scope.Clean) {source : Source} (hsource : source.Clean) :
    (n.nestedColumns scope source).Clean := by
  unfold NodeSettings.nestedColumns
  cases hfields : n.fields with
  | some fields =>
    intro c hc
    obtain ⟨f, hf, rfl⟩ := List.mem_map.mp hc
    exact hscope.column (h.fields fields hfields f hf)
  | none =>
    cases source with
    | table t =>
      intro c hc
      rw [List.mem_singleton.mp hc]
      exact hscope.objectId
    | subQuery q =>
      dsimp only
      cases hq : q.fields with
      | nil => exact hscope.aliasName
      | cons first rest =>
        intro c hc
        rw [List.mem_singleton.mp hc]
        exact hscope.column (hsource.2 first (by rw [hq]; exact List.mem_cons_self))

/-! ### Conditions -/

theorem clean_equality {left right : ColumnRef} (hleft : left.Clean) (hright : right.Clean) :
    (equality left right).Clean := ⟨hleft, hright⟩

theorem clean_groupOf? {parts : List (Expr × Connective)} (h : ∀ p ∈ parts, p.1.Clean) :
    ∀ e, groupOf? parts = some e → e.Clean := by
  intro e he
  obtain ⟨chain, hchain, rfl⟩ := Option.map_eq_some_iff.mp he
  exact Chain.clean_ofParts? h chain hchain

theorem clean_withValidity {validity : Option Expr} {own : Option (Option Expr)}
    (hvalidity : ∀ e, validity = some e → e.Clean)
    (hown : ∀ e, own = some (some e) → e.Clean) :
    ∀ e, withValidity validity own = some e → e.Clean := by
  intro e he
  rcases validity with _ | v <;> rcases own with _ | _ | o
  · cases he
  · cases he
  · cases he
    exact (hown o rfl).enclosed
  · cases he
    exact (hvalidity v rfl).enclosed
  · cases he
    exact hvalidity v rfl
  · cases he
    exact ⟨hvalidity v rfl, hown o rfl⟩

theorem clean_validityExpr {validFrom validTo : ColumnRef} (hfrom : validFrom.Clean)
    (hto : validTo.Clean) (date : Option DateTime) (leftJoined : Bool) (maxDate : DateTime) :
    (validityExpr validFrom validTo date leftJoined maxDate).Clean := by
  cases date with
  | some date => exact ⟨hfrom, hto⟩
  | none =>
    cases leftJoined with
    | false => exact hto
    | true => exact ⟨hto, hto⟩

theorem clean_validityExpr? {scope : Scope} (hscope : scope.Clean) (n : NodeSettings)
    (cx : Context) : ∀ e, n.validityExpr? cx scope = some e → e.Clean := by
  intro e he
  unfold NodeSettings.validityExpr? at he
  split at he
  · cases he
  · cases he
    have hfrom : Neutral Catalog.validFrom := by decide
    have hto : Neutral Catalog.validTo := by decide
    exact clean_validityExpr (hscope.column hfrom) (hscope.column hto) _ _ _

/-! ### Link rows -/

section LinkTables

variable {t : LinkTable}

theorem LinkTable.Clean.column (h : t.Clean) {c aliasName : String} (hc : c ∈ t.columns.all)
    (halias : Neutral aliasName) : ColumnRef.Clean ⟨aliasName, c⟩ :=
  ⟨halias, h.columns c hc⟩

theorem LinkTable.Clean.statusFilter (h : t.Clean) {aliasName : String}
    (halias : Neutral aliasName) (statuses : List String) :
    ∀ e ∈ (t.statusFilter aliasName statuses).toList, e.Clean := by
  intro e he
  unfold LinkTable.statusFilter at he
  split at he
  · cases he
  · rw [Option.toList_some, List.mem_singleton] at he
    subst he
    exact h.column (by simp [LinkColumns.all]) halias

theorem LinkTable.Clean.qualifiedName (h : t.Clean) : Neutral t.qualifiedName := by
  simp [LinkTable.qualifiedName, h.schema, h.table]

theorem neutral_aliasTo {target : String} (h : Neutral target) :
    Neutral (LinkTable.aliasTo target) :=
  neutral_append.mpr ⟨by simp, h⟩

end LinkTables

/-- A context whose link table is clean. -/
def Context.Clean (cx : Context) : Prop := ∀ t, cx.linkTable = some t → t.Clean

theorem clean_resolve_linkFilter {cx : Context} (hcx : cx.Clean) {scope : Scope}
    (hscope : scope.Clean) {near : LinkEnd} {f : LinkFilter} {e : Expr}
    (h : f.resolve cx scope near = .ok e) : e.Clean := by
  unfold LinkFilter.resolve at h
  cases htable : cx.linkTable with
  | none =>
    rw [htable] at h
    cases h
  | some table =>
    rw [htable] at h
    cases h
    have ht := hcx table htable
    have halias : Neutral (LinkTable.aliasTo scope.aliasName ++ "_f") :=
      neutral_append.mpr ⟨neutral_aliasTo hscope.aliasName, by simp⟩
    have hcolumn : ∀ c ∈ table.columns.all,
        ColumnRef.Clean ⟨LinkTable.aliasTo scope.aliasName ++ "_f", c⟩ :=
      fun c hc => ht.column hc halias
    refine ⟨ht.qualifiedName, halias, Chain.clean_conjunction ?_⟩
    rw [List.forall_mem_cons, List.forall_mem_append, List.forall_mem_append,
      List.forall_mem_cons, List.forall_mem_singleton]
    refine ⟨clean_equality (hcolumn _ (LinkColumns.endColumn_mem _ near)) hscope.objectId,
      ⟨⟨?_, ?_⟩, ?_⟩, ht.statusFilter halias cx.statuses⟩
    · exact hcolumn _ (by simp [LinkColumns.all])
    · exact clean_validityExpr (hcolumn _ (by simp [LinkColumns.all]))
        (hcolumn _ (by simp [LinkColumns.all])) _ _ _
    · split
      · exact List.forall_mem_nil _
      · rw [List.forall_mem_singleton]
        exact hcolumn _ (LinkColumns.endColumn_mem _ near.opposite)

/-! ### Resolution -/

section Resolution

variable {cx : Context}

mutual

/-- A clean condition resolves to a clean one.  By recursion on the condition. -/
theorem Condition.clean_resolve (hcx : cx.Clean) {scope : Scope} (hscope : scope.Clean) :
    ∀ (c : Condition) {r : Option Expr}, c.Clean → c.resolve cx scope = .ok r →
      ∀ e, r = some e → e.Clean
  | .compare field _ _, r, hc, h => by
    cases h
    rintro e ⟨⟩
    exact hscope.column hc
  | .compareFields _ _ _, r, hc, h => by
    cases h
    rintro e ⟨⟩
    exact ⟨hscope.column hc.1, hscope.column hc.2⟩
  | .isNull _, r, hc, h => by
    cases h
    rintro e ⟨⟩
    exact hscope.column hc
  | .between _ _ _, r, hc, h => by
    cases h
    rintro e ⟨⟩
    exact hscope.column hc
  | .valueBetween _ _ _, r, hc, h => by
    cases h
    rintro e ⟨⟩
    exact ⟨hscope.column hc.1, hscope.column hc.2⟩
  | .touches _ _, r, hc, h => by
    cases h
    rintro e ⟨⟩
    exact hscope.column hc
  | .inList _ _, r, hc, h => by
    cases h
    rintro e ⟨⟩
    exact hscope.column hc
  | .inSubquery _ query, r, hc, h => by
    obtain ⟨select, hselect, rfl⟩ := map_eq_ok_iff.mp h
    rintro e ⟨⟩
    have halias : Neutral (scope.aliasName ++ "_sq") :=
      neutral_append.mpr ⟨hscope.aliasName, by simp⟩
    exact ⟨hscope.column hc.1, Node.clean_resolveNested hcx halias query hc.2 hselect⟩
  | .linked _ _, r, hc, h => by
    obtain ⟨expr, hexpr, rfl⟩ := map_eq_ok_iff.mp h
    rintro e ⟨⟩
    exact clean_resolve_linkFilter hcx hscope hexpr
  | .freeText _ _, r, hc, h => by
    cases h
    rintro e ⟨⟩
    exact hc
  | .group members, r, hc, h => by
    obtain ⟨parts, hparts, rfl⟩ := map_eq_ok_iff.mp h
    exact clean_groupOf? (Criterion.clean_resolveParts hcx hscope members hc hparts)

theorem Criterion.clean_resolve (hcx : cx.Clean) {scope : Scope} (hscope : scope.Clean) :
    ∀ (c : Criterion) {r : Option Expr}, c.Clean → c.resolve cx scope = .ok r →
      ∀ e, r = some e → e.Clean
  | ⟨condition, negated, _⟩, r, hc, h => by
    obtain ⟨resolved, hresolved, rfl⟩ := map_eq_ok_iff.mp h
    have hclean := Condition.clean_resolve hcx hscope condition hc hresolved
    cases negated with
    | false => exact hclean
    | true =>
      intro e he
      obtain ⟨expr, rfl, rfl⟩ := Option.map_eq_some_iff.mp he
      exact (hclean expr rfl).negated

theorem Criterion.clean_resolveParts (hcx : cx.Clean) {scope : Scope} (hscope : scope.Clean) :
    ∀ (members : List Criterion) {parts : List (Expr × Connective)},
      Criterion.AllClean members → Criterion.resolveParts cx scope members = .ok parts →
      ∀ p ∈ parts, p.1.Clean
  | [], parts, hc, h => by
    cases h
    exact List.forall_mem_nil _
  | member :: rest, parts, hc, h => by
    obtain ⟨resolved, hresolved, h⟩ := bind_eq_ok_iff.mp h
    obtain ⟨others, hothers, h⟩ := bind_eq_ok_iff.mp h
    have hmember := Criterion.clean_resolve hcx hscope member hc.1 hresolved
    have hrest := Criterion.clean_resolveParts hcx hscope rest hc.2 hothers
    cases resolved with
    | none =>
      cases h
      exact hrest
    | some expr =>
      cases h
      exact List.forall_mem_cons.mpr ⟨hmember expr rfl, hrest⟩

theorem Node.clean_resolveNested (hcx : cx.Clean) {defaultAlias : String}
    (halias : Neutral defaultAlias) :
    ∀ (n : Node) {select : Subselect}, n.Clean → n.resolveNested cx defaultAlias = .ok select →
      select.Clean
  | ⟨settings, predicate⟩, select, hn, h => by
    obtain ⟨source, hsource, h⟩ := bind_eq_ok_iff.mp h
    obtain ⟨filter, hfilter, h⟩ := bind_eq_ok_iff.mp h
    cases h
    have hname : Neutral (settings.givenAlias.getD defaultAlias) := by
      cases hgiven : settings.givenAlias with
      | none => exact halias
      | some aliasName => exact hn.1.givenAlias aliasName hgiven
    have hscope := NodeSettings.clean_scope (n := settings) hname cx.physical
    have hread := hn.1.requireSource hsource
    have hcolumns := hn.1.nestedColumns hscope hread
    have htable := hread.tableRef hname cx.physical
    cases filter with
    | none => exact ⟨hcolumns, htable⟩
    | some filter =>
      exact ⟨hcolumns, htable,
        Criterion.clean_resolveOwn hcx hscope settings predicate hn.2 hfilter filter rfl⟩

theorem Criterion.clean_resolveOwn (hcx : cx.Clean) {scope : Scope} (hscope : scope.Clean)
    (settings : NodeSettings) :
    ∀ (predicate : Option Criterion) {r : Option Expr}, Criterion.CleanIfAny predicate →
      Criterion.resolveOwn cx scope settings predicate = .ok r → ∀ e, r = some e → e.Clean
  | none, r, hc, h => by
    cases h
    refine clean_withValidity (clean_validityExpr? hscope settings cx) ?_
    rintro e ⟨⟩
  | some predicate, r, hc, h => by
    obtain ⟨own, hown, rfl⟩ := map_eq_ok_iff.mp h
    refine clean_withValidity (clean_validityExpr? hscope settings cx) fun e he => ?_
    exact Criterion.clean_resolve hcx hscope predicate hc hown e (Option.some.inj he)

end

end Resolution

end ObjectQuery.Query
