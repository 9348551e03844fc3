import ObjectQuery.Proofs.Compilable
import ObjectQuery.Proofs.Names

/-!
# How columns are qualified

A column of a node is written under the alias of the node, with one exception: where the
repository table and the type table of a node stand side by side, the columns of the repository
table are written under its own alias.  A node in a derived table shows all of its columns
under one alias to the other nodes.

## Main Definitions

* `NodeSettings.Qualifies` — the rule for one column of a node
* `Node.freeTexts` — the texts that the caller gave to the criterion of a node
* `Node.SelectedBy` — the rule for the select of a node inside a condition
* `Named` — conditions whose columns satisfy a predicate, with the selects of given nodes and
  given texts inside

## Main Statements

* `NodeSettings.Qualifies.among` — a column written by the rule is reached
* `Condition.named_resolve`, `Node.named_resolvePredicate` — criteria follow the rule
* `NodeSettings.qualifies_derivedColumns`, `NodeSettings.source_of_mem_items` — so do lists of
  columns
-/

namespace ObjectQuery.Query

open ObjectQuery.Sql ObjectQuery.Outcome

/-! ### The rule -/

namespace NodeSettings

/-- The columns that the repository table of a node shows; none if the node reads no table. -/
def repositoryColumns (n : NodeSettings) : List String :=
  n.table?.elim [] fun t => t.repositoryFields.map (·.name)

/-- A column of a node is written under the alias of its repository table if the tables of the
node stand side by side, the repository table has the column and the node is not hidden in a
derived table; else it is written under the alias of the node. -/
def Qualifies (n : NodeSettings) (aliasName : String) (physical hidden : Bool) (c : ColumnRef) :
    Prop :=
  c.qualifier =
    if physical = true ∧ c.column ∈ n.repositoryColumns ∧ hidden = false then
      repositoryAlias aliasName
    else aliasName

variable {n : NodeSettings} {aliasName : String} {physical hidden : Bool}

/-- The scope of a node follows the rule. -/
theorem qualifies_scope (n : NodeSettings) (aliasName : String) (physical : Bool)
    (column : String) :
    n.Qualifies aliasName physical false ((n.scope aliasName physical).column column) := by
  unfold Qualifies repositoryColumns scope
  cases n.table? with
  | none => simp [Scope.column, Scope.aliasOf, Scope.uniform]
  | some t =>
    cases physical with
    | false => simp [Scope.column, Scope.aliasOf, Scope.uniform]
    | true => simp [Scope.column, Scope.aliasOf]

/-- All columns of a hidden node are written under its alias. -/
theorem qualifies_hidden_iff {c : ColumnRef} :
    n.Qualifies aliasName physical true c ↔ c.qualifier = aliasName := by
  simp [Qualifies]

/-- Outside of physical mode all columns are written under the alias of the node. -/
theorem qualifies_of_view {c : ColumnRef} (hphysical : physical = false)
    (h : c.qualifier = aliasName) : n.Qualifies aliasName physical hidden c := by
  simp [Qualifies, hphysical, h]

/-- A node without a table has a single alias. -/
theorem qualifies_of_table?_eq_none {c : ColumnRef} (htable : n.table? = none)
    (h : c.qualifier = aliasName) : n.Qualifies aliasName physical hidden c := by
  simp [Qualifies, repositoryColumns, htable, h]

/-- The table reference of a node declares the names under which its columns are written. -/
theorem Qualifies.among {c : ColumnRef} (h : n.Qualifies aliasName physical hidden c)
    {source : Source} (hsource : n.requireSource = .ok source) :
    c.Among (source.tableRef aliasName physical).names := by
  unfold Qualifies repositoryColumns table? at h
  rw [requireSource_eq_ok_iff.mp hsource] at h
  unfold ColumnRef.Among
  rw [h]
  cases source with
  | subQuery q => simp [Source.tableRef, TableRef.names]
  | table t =>
    cases physical with
    | false => simp [Source.tableRef, TableRef.names]
    | true =>
      simp only [Source.tableRef, TableRef.names, if_true]
      split <;> simp

/-- The columns of a nested node follow the rule. -/
theorem qualifies_nestedColumns {source : Source} (hsource : n.requireSource = .ok source)
    (aliasName : String) (physical : Bool) :
    (n.nestedColumns (n.scope aliasName physical) source).Refers
      (n.Qualifies aliasName physical false) := by
  have hlisted : ∀ columns : List String, ∀ c ∈ columns.map (n.scope aliasName physical).column,
      n.Qualifies aliasName physical false c := by
    intro columns c hc
    obtain ⟨column, -, rfl⟩ := List.mem_map.mp hc
    exact n.qualifies_scope aliasName physical column
  unfold nestedColumns
  cases n.fields with
  | some fields => exact hlisted fields
  | none =>
    cases source with
    | table t => exact hlisted [Catalog.objectId]
    | subQuery q =>
      dsimp only
      cases q.fields with
      | cons first rest => exact hlisted [first]
      | nil =>
        have htable : n.table? = none := by rw [table?, requireSource_eq_ok_iff.mp hsource]
        exact fun column =>
          qualifies_of_table?_eq_none htable (n.aliasName_scope aliasName physical)

/-- The columns of a node inside a derived table follow the rule. -/
theorem qualifies_derivedColumns (n : NodeSettings) (aliasName : String) (physical : Bool) :
    (n.derivedColumns (n.scope aliasName physical) physical).Refers
      (n.Qualifies aliasName physical false) := by
  unfold derivedColumns
  cases ht : n.table? with
  | none =>
    exact fun column => qualifies_of_table?_eq_none ht (n.aliasName_scope aliasName physical)
  | some t =>
    cases physical with
    | false => exact fun column => qualifies_of_view rfl (n.aliasName_scope aliasName false)
    | true =>
      intro c hc
      obtain ⟨f, -, rfl⟩ := List.mem_map.mp hc
      exact n.qualifies_scope aliasName true f.name

end NodeSettings

/-- The row condition of a table reference is about its own tables. -/
theorem Source.scoped_tableRef (source : Source) (aliasName : String) (physical : Bool) :
    (source.tableRef aliasName physical).Scoped := by
  cases source with
  | subQuery q => trivial
  | table t =>
    cases physical with
    | false => trivial
    | true => exact ⟨rfl, rfl⟩

/-! ### Texts of the caller -/

mutual

/-- The texts that the caller gave to a condition, with their values; those of the nodes inside
are left out. -/
def Condition.freeTexts : Condition → List Fragment
  | .freeText sql values => [⟨sql, values⟩]
  | .group members => Criterion.freeTextsAll members
  | .compare _ _ _ => []
  | .compareFields _ _ _ => []
  | .isNull _ => []
  | .between _ _ _ => []
  | .valueBetween _ _ _ => []
  | .touches _ _ => []
  | .inList _ _ => []
  | .inSubquery _ _ => []
  | .linked _ _ => []

/-- The texts of a criterion. -/
def Criterion.freeTexts : Criterion → List Fragment
  | ⟨condition, _, _⟩ => condition.freeTexts

/-- The texts of the members of a group. -/
def Criterion.freeTextsAll : List Criterion → List Fragment
  | [] => []
  | member :: rest => member.freeTexts ++ Criterion.freeTextsAll rest

end

/-- The texts of a criterion, if there is one. -/
def Criterion.freeTextsOf (predicate : Option Criterion) : List Fragment :=
  predicate.elim [] Criterion.freeTexts

/-- The texts of the criterion of a node. -/
def Node.freeTexts (n : Node) : List Fragment := Criterion.freeTextsOf n.predicate

/-! ### Selects inside conditions -/

/-- A node inside a condition makes a select: from its table under its own alias or a default
one, with its columns written by the rule and the texts of its criterion. -/
def Node.SelectedBy (physical : Bool) (n : Node) : Subselect → Prop
  | .mk columns source filter => ∃ aliasName given,
      (∀ own, n.givenAlias = some own → aliasName = own) ∧
      n.requireSource = .ok given ∧ source = given.tableRef aliasName physical ∧
      columns.Refers (n.Qualifies aliasName physical false) ∧
      filter.toList.flatMap Expr.texts = n.freeTexts ∧
      ∀ e, filter = some e → e.Refers (n.Qualifies aliasName physical false)

/-- Such a select is well scoped. -/
theorem Node.SelectedBy.scoped {physical : Bool} {n : Node} {select : Subselect}
    (h : n.SelectedBy physical select) : select.Scoped := by
  cases select with
  | mk columns source filter =>
    obtain ⟨aliasName, given, -, hgiven, rfl, hcolumns, -, hfilter⟩ := h
    refine ⟨given.scoped_tableRef aliasName physical, ?_, fun e he => ?_⟩
    · exact hcolumns.mono fun c hc => hc.among hgiven
    · exact (hfilter e he).mono fun c hc => hc.among hgiven

/-! ### Conditions -/

/-- The columns of conditions satisfy a predicate, the selects inside belong to the nodes inside,
and the texts are those of a caller. -/
structure Named (physical : Bool) (ok : ColumnRef → Prop) (nodes : List Node)
    (texts : List Fragment) (conditions : List Expr) : Prop where
  refers : ∀ e ∈ conditions, e.Refers ok
  selects : List.Forall₂ (Node.SelectedBy physical) nodes (conditions.flatMap Expr.selects)
  texts : conditions.flatMap Expr.texts = texts

namespace Named

variable {physical : Bool} {ok : ColumnRef → Prop} {nodes others : List Node}
  {texts further : List Fragment} {conditions more : List Expr}

theorem nil : Named physical ok [] [] [] := ⟨List.forall_mem_nil _, .nil, rfl⟩

/-- A condition without a select inside. -/
theorem leaf {e : Expr} (h : e.Refers ok) (hselects : e.selects = []) (htexts : e.texts = texts) :
    Named physical ok [] texts [e] := by
  refine ⟨List.forall_mem_singleton.mpr h, ?_, ?_⟩
  · rw [List.flatMap_singleton, hselects]
    exact .nil
  · rw [List.flatMap_singleton, htexts]

theorem append (h : Named physical ok nodes texts conditions)
    (hmore : Named physical ok others further more) :
    Named physical ok (nodes ++ others) (texts ++ further) (conditions ++ more) := by
  refine ⟨List.forall_mem_append.mpr ⟨h.refers, hmore.refers⟩, ?_, ?_⟩
  · rw [List.flatMap_append]
    exact List.rel_append h.selects hmore.selects
  · rw [List.flatMap_append, h.texts, hmore.texts]

/-- Conditions without selects and texts inside in front of others. -/
theorem prepend (h : Named physical ok [] [] conditions)
    (hmore : Named physical ok nodes texts more) :
    Named physical ok nodes texts (conditions ++ more) := h.append hmore

theorem cons {e : Expr} (h : Named physical ok [] [] [e])
    (hmore : Named physical ok nodes texts more) : Named physical ok nodes texts (e :: more) :=
  h.append hmore

/-- There is no select inside conditions without nodes inside. -/
theorem selects_eq_nil (h : Named physical ok [] texts conditions) :
    conditions.flatMap Expr.selects = [] := List.forall₂_nil_left_iff.mp h.selects

/-- A condition that refers to the same columns and has the same selects and texts inside as
others. -/
theorem single (h : Named physical ok nodes texts conditions) {e : Expr} (hrefers : e.Refers ok)
    (hselects : e.selects = conditions.flatMap Expr.selects)
    (htexts : e.texts = conditions.flatMap Expr.texts) : Named physical ok nodes texts [e] := by
  refine ⟨List.forall_mem_singleton.mpr hrefers, ?_, ?_⟩
  · rw [List.flatMap_singleton, hselects]
    exact h.selects
  · rw [List.flatMap_singleton, htexts, h.texts]

/-- The same for a condition made of one other. -/
theorem wrapped {e wrapper : Expr} (h : Named physical ok nodes texts [e])
    (hrefers : wrapper.Refers ok) (hselects : wrapper.selects = e.selects)
    (htexts : wrapper.texts = e.texts) : Named physical ok nodes texts [wrapper] := by
  refine h.single hrefers ?_ ?_
  · rw [hselects, List.flatMap_singleton]
  · rw [htexts, List.flatMap_singleton]

theorem enclosed {r : Option Expr} (h : Named physical ok nodes texts r.toList) :
    Named physical ok nodes texts (r.map Expr.enclosed).toList := by
  cases r with
  | none => exact h
  | some e =>
    have he : e.Refers ok := h.refers e (List.mem_singleton_self e)
    exact h.wrapped he.enclosed e.selects_enclosed e.texts_enclosed

theorem negated {r : Option Expr} (h : Named physical ok nodes texts r.toList) :
    Named physical ok nodes texts (r.map Expr.negated).toList := by
  cases r with
  | none => exact h
  | some e =>
    have he : e.Refers ok := h.refers e (List.mem_singleton_self e)
    exact h.wrapped he.negated e.selects_negated e.texts_negated

/-- The condition on a row that has to exist may also be about that row. -/
theorem linked {table aliasName : String} {first : Expr} {rest : List Expr}
    (h : Named physical (fun c => c.qualifier = aliasName ∨ ok c) nodes texts (first :: rest)) :
    Named physical ok nodes texts [.linked table aliasName (.conjunction first rest)] := by
  obtain ⟨hfirst, hrest⟩ := List.forall_mem_cons.mp h.refers
  refine ⟨List.forall_mem_singleton.mpr (Chain.refers_conjunction hfirst hrest), ?_, ?_⟩
  · rw [List.flatMap_singleton, Expr.selects, Chain.selects_conjunction]
    exact h.selects
  · rw [List.flatMap_singleton, Expr.texts, Chain.texts_conjunction]
    exact h.texts

/-- The group of conditions with connectives. -/
theorem groupOf? {parts : List (Expr × Connective)}
    (h : Named physical ok nodes texts (parts.map (·.1))) :
    Named physical ok nodes texts (groupOf? parts).toList := by
  have hselects := Chain.selects_ofParts? parts
  have htexts := Chain.texts_ofParts? parts
  rw [← List.flatMap_map] at hselects htexts
  cases hchain : Chain.ofParts? parts with
  | none =>
    rw [ObjectQuery.Query.groupOf?, hchain]
    rw [hchain] at hselects htexts
    have hnodes := h.selects
    rw [← hselects] at hnodes
    exact ⟨List.forall_mem_nil _, hnodes, htexts.trans h.texts⟩
  | some chain =>
    rw [ObjectQuery.Query.groupOf?, hchain]
    rw [hchain] at hselects htexts
    refine h.single ?_ hselects htexts
    exact Chain.refers_ofParts? (fun p hp => h.refers p.1 (List.mem_map_of_mem hp)) chain hchain

/-- Validity in front of a node's own condition. -/
theorem withValidity {validity : Option Expr}
    (hvalidity : Named physical ok [] [] validity.toList) {own : Option (Option Expr)}
    (hown : Named physical ok nodes texts (own.join).toList) :
    Named physical ok nodes texts (withValidity validity own).toList := by
  cases validity with
  | none =>
    cases own with
    | none => exact hown
    | some own => exact hown.enclosed
  | some validity =>
    have hboth := hvalidity.prepend hown
    have hrefers : validity.Refers ok := hvalidity.refers validity (List.mem_singleton_self _)
    cases own with
    | none => exact hboth.wrapped hrefers.enclosed validity.selects_enclosed validity.texts_enclosed
    | some own =>
      cases own with
      | none =>
        have hgroup : (Expr.group (.last validity)).Refers ok := hrefers
        exact hboth.wrapped hgroup rfl rfl
      | some e =>
        refine hboth.single ⟨hrefers, hown.refers e (List.mem_singleton_self _)⟩ ?_ ?_
        · simp [Expr.selects, Chain.selects]
        · simp [Expr.texts, Chain.texts]

end Named

section Resolution

variable {cx : Context} {ok : ColumnRef → Prop}

/-- An equality is about its two sides. -/
theorem named_equality {physical : Bool} {left right : ColumnRef} (hleft : ok left)
    (hright : ok right) : Named physical ok [] [] [equality left right] :=
  .leaf ⟨hleft, hright⟩ rfl rfl

/-- A validity condition is about the two columns that bound it. -/
theorem named_validityExpr {physical : Bool} {validFrom validTo : ColumnRef}
    (hfrom : ok validFrom) (hto : ok validTo) (date : Option Calendar.DateTime)
    (leftJoined : Bool) (maxDate : Calendar.DateTime) :
    Named physical ok [] [] [validityExpr validFrom validTo date leftJoined maxDate] := by
  unfold validityExpr
  cases date with
  | some date => exact .leaf ⟨hfrom, hto⟩ rfl rfl
  | none =>
    cases leftJoined with
    | false => exact .leaf hto rfl rfl
    | true => exact .leaf (e := .group _) ⟨hto, hto⟩ rfl rfl

theorem named_validityExpr? (n : NodeSettings) {scope : Scope}
    (hscope : ∀ column, ok (scope.column column)) :
    Named cx.physical ok [] [] (n.validityExpr? cx scope).toList := by
  unfold NodeSettings.validityExpr?
  split
  · exact .nil
  · exact named_validityExpr (hscope Catalog.validFrom) (hscope Catalog.validTo)
      n.referenceDate (n.join == .left) cx.maxDate

/-- The status of a link row is a column of it. -/
theorem named_statusFilter {physical : Bool} {t : LinkTable} {aliasName : String}
    (hrow : ∀ column ∈ t.columns.all, ok ⟨aliasName, column⟩) (statuses : List String) :
    Named physical ok [] [] (t.statusFilter aliasName statuses).toList := by
  unfold LinkTable.statusFilter
  split
  · exact .nil
  · exact .leaf (hrow _ (by simp [LinkColumns.all])) rfl rfl

/-- A link filter is about its own link row and the object of the node. -/
theorem named_resolve_linkFilter {scope : Scope} (hscope : ∀ column, ok (scope.column column))
    {near : LinkEnd} {f : LinkFilter} {e : Expr} (h : f.resolve cx scope near = .ok e) :
    Named cx.physical ok [] [] [e] := by
  unfold LinkFilter.resolve at h
  cases htable : cx.linkTable with
  | none =>
    rw [htable] at h
    cases h
  | some table =>
    rw [htable] at h
    cases h
    refine .linked (.cons (named_equality (Or.inl rfl) (Or.inr (hscope _))) ?_)
    refine .prepend (.prepend ?_ ?_)
      (named_statusFilter (fun _ _ => Or.inl rfl) cx.statuses)
    · exact .cons (.leaf (Or.inl rfl) rfl rfl)
        (named_validityExpr (Or.inl rfl) (Or.inl rfl) f.referenceDate false cx.maxDate)
    · split
      · exact .nil
      · exact .leaf (Or.inl rfl) rfl rfl

mutual

/-- A condition over the columns of a scope is about the columns of that scope, the selects inside
are those of the nodes inside, and the texts are those of the caller.  By recursion on the
condition: a nested node brings its own scope. -/
theorem Condition.named_resolve : ∀ (c : Condition) {scope : Scope} {ok : ColumnRef → Prop}
    {r : Option Expr}, (∀ column, ok (scope.column column)) → c.resolve cx scope = .ok r →
      Named cx.physical ok c.nestedNodes c.freeTexts r.toList
  | .compare field _ _, _, _, r, hok, h => by cases h; exact .leaf (hok field) rfl rfl
  | .compareFields field _ other, _, _, r, hok, h => by
    cases h
    exact .leaf ⟨hok field, hok other⟩ rfl rfl
  | .isNull field, _, _, r, hok, h => by cases h; exact .leaf (hok field) rfl rfl
  | .between field _ _, _, _, r, hok, h => by cases h; exact .leaf (hok field) rfl rfl
  | .valueBetween _ low high, _, _, r, hok, h => by
    cases h
    exact .leaf ⟨hok low, hok high⟩ rfl rfl
  | .touches field _, _, _, r, hok, h => by cases h; exact .leaf (hok field) rfl rfl
  | .inList field _, _, _, r, hok, h => by cases h; exact .leaf (hok field) rfl rfl
  | .freeText _ _, _, _, r, _, h => by cases h; exact .leaf trivial rfl rfl
  | .inSubquery field query, _, _, r, hok, h => by
    obtain ⟨select, hselect, rfl⟩ := map_eq_ok_iff.mp h
    obtain ⟨hown, hinside⟩ := Node.named_resolveNested query hselect
    refine ⟨List.forall_mem_singleton.mpr (hok field), ?_, rfl⟩
    rw [Option.toList_some, List.flatMap_singleton]
    exact .cons hown hinside
  | .linked near filter, _, _, r, hok, h => by
    obtain ⟨e, he, rfl⟩ := map_eq_ok_iff.mp h
    exact named_resolve_linkFilter hok he
  | .group members, _, _, r, hok, h => by
    obtain ⟨parts, hparts, rfl⟩ := map_eq_ok_iff.mp h
    exact (Criterion.named_resolveParts members hok hparts).groupOf?

theorem Criterion.named_resolve : ∀ (c : Criterion) {scope : Scope} {ok : ColumnRef → Prop}
    {r : Option Expr}, (∀ column, ok (scope.column column)) → c.resolve cx scope = .ok r →
      Named cx.physical ok c.nestedNodes c.freeTexts r.toList
  | ⟨condition, negated, _⟩, _, _, r, hok, h => by
    obtain ⟨own, hown, rfl⟩ := map_eq_ok_iff.mp h
    have hcondition := Condition.named_resolve condition hok hown
    cases negated with
    | false => exact hcondition
    | true => exact hcondition.negated

theorem Criterion.named_resolveParts : ∀ (members : List Criterion) {scope : Scope}
    {ok : ColumnRef → Prop} {parts : List (Expr × Connective)},
    (∀ column, ok (scope.column column)) → Criterion.resolveParts cx scope members = .ok parts →
      Named cx.physical ok (Criterion.nestedNodesAll members) (Criterion.freeTextsAll members)
        (parts.map (·.1))
  | [], _, _, parts, _, h => by
    cases h
    exact .nil
  | member :: rest, _, _, parts, hok, h => by
    obtain ⟨resolved, hresolved, h⟩ := bind_eq_ok_iff.mp h
    obtain ⟨others, hothers, h⟩ := bind_eq_ok_iff.mp h
    have hboth := (Criterion.named_resolve member hok hresolved).append
      (Criterion.named_resolveParts rest hok hothers)
    cases resolved with
    | none =>
      cases h
      exact hboth
    | some e =>
      cases h
      exact hboth

theorem Node.named_resolveNested : ∀ (n : Node) {defaultAlias : String} {select : Subselect},
    n.resolveNested cx defaultAlias = .ok select →
      n.SelectedBy cx.physical select ∧
        List.Forall₂ (Node.SelectedBy cx.physical) n.nestedNodes select.selects
  | ⟨settings, predicate⟩, defaultAlias, select, h => by
    obtain ⟨source, hsource, h⟩ := bind_eq_ok_iff.mp h
    obtain ⟨filter, hfilter, h⟩ := bind_eq_ok_iff.mp h
    cases h
    have hscope := settings.qualifies_scope (settings.givenAlias.getD defaultAlias) cx.physical
    have hnamed := Criterion.named_resolveOwn settings predicate hscope hfilter
    refine ⟨⟨_, source, ?_, hsource, rfl, ?_, hnamed.texts, ?_⟩, ?_⟩
    · intro own hown
      show settings.givenAlias.getD defaultAlias = own
      rw [show settings.givenAlias = some own from hown]
      rfl
    · exact settings.qualifies_nestedColumns hsource _ _
    · intro e he
      exact hnamed.refers e (by rw [he]; exact List.mem_singleton_self e)
    · have hselects := hnamed.selects
      cases filter with
      | none => exact hselects
      | some e =>
        rw [Option.toList_some, List.flatMap_singleton] at hselects
        exact hselects

theorem Criterion.named_resolveOwn (settings : NodeSettings) : ∀ (predicate : Option Criterion)
    {scope : Scope} {ok : ColumnRef → Prop} {r : Option Expr},
    (∀ column, ok (scope.column column)) →
    Criterion.resolveOwn cx scope settings predicate = .ok r →
      Named cx.physical ok (Criterion.nestedNodesOf predicate) (Criterion.freeTextsOf predicate)
        r.toList
  | none, _, _, r, hok, h => by
    cases h
    exact (named_validityExpr? settings hok).withValidity .nil
  | some predicate, _, _, r, hok, h => by
    obtain ⟨own, hown, rfl⟩ := map_eq_ok_iff.mp h
    exact (named_validityExpr? settings hok).withValidity
      (Criterion.named_resolve predicate hok hown)

end

/-- What the rows of a node have to meet is about the node. -/
theorem Node.named_resolvePredicate {n : Node} {scope : Scope} {r : Option Expr}
    (hok : ∀ column, ok (scope.column column)) (h : n.resolvePredicate cx scope = .ok r) :
    Named cx.physical ok n.nestedNodes n.freeTexts r.toList := by
  cases n with
  | mk settings predicate => exact Criterion.named_resolveOwn settings predicate hok h

end Resolution

/-- The select items of a node are columns of its scope. -/
theorem NodeSettings.source_of_mem_items {n : NodeSettings} {scope : Scope} {geometry : Bool}
    {items : List SelectItem} (h : n.items scope geometry = .ok items) {item : SelectItem}
    (hitem : item ∈ items) : ∃ column, item.source = scope.column column := by
  unfold NodeSettings.items at h
  split at h
  · cases h
    obtain ⟨column, -, rfl⟩ := List.mem_map.mp hitem
    refine ⟨column, ?_⟩
    unfold NodeSettings.customItem
    split
    · split <;> rfl
    · rfl
  · obtain ⟨source, -, rfl⟩ := map_eq_ok_iff.mp h
    cases source with
    | subQuery q =>
      obtain ⟨column, -, rfl⟩ := List.mem_map.mp hitem
      exact ⟨column, rfl⟩
    | table t =>
      obtain ⟨field, -, hfield⟩ := List.mem_filterMap.mp hitem
      refine ⟨field.name, ?_⟩
      unfold NodeSettings.fieldItem? at hfield
      split at hfield
      · split at hfield
        · cases hfield
          rfl
        · cases hfield
      · cases hfield
        rfl

end ObjectQuery.Query
