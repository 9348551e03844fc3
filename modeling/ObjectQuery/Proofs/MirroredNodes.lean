import ObjectQuery.Definition.Build
import ObjectQuery.Proofs.Compilable

/-!
# Nodes that mirror their definitions

What a built node and a built link are, said of the definition alone: a node has the settings
that its definition writes down, its criterion stands member by member for the criteria of the
definition, nodes inside criteria included, and a link names the link type that the definition
gives or that the catalog knows between the two nodes.

## Main Definitions

* `NodeSource.Names` — the table or sub-query that a definition names
* `NodeSource.Sets` — the settings that a definition writes down
* `NodeDefinition.Mirrors`, `CriterionDefinition.Mirrors` — a node, a criterion that stands for
  its definition
* `LinkDefinition.Resolves` — a link between nodes of two object types

## Main Statements

* `NodeDefinition.mirrors_build` — a built node mirrors its definition
* `NodeSource.resolves_buildLink` — a built link resolves its definition
-/

namespace ObjectQuery.Definition

open ObjectQuery.Catalog (CatalogError)
open ObjectQuery.Calendar ObjectQuery.Query ObjectQuery.Sql ObjectQuery.Outcome

variable {c : Catalog}

/-! ### Successful steps -/

theorem fromGraph_eq_ok_iff {α : Type} {r : Except CompileError α} {a : α} :
    fromGraph r = .ok a ↔ r = .ok a := by
  cases r <;> simp [fromGraph, Except.mapError]

theorem fromCatalog_eq_ok_iff {α : Type} {r : Except CatalogError α} {a : α} :
    fromCatalog r = .ok a ↔ r = .ok a := by
  cases r <;> simp [fromCatalog, Except.mapError]

/-! ### Settings -/

/-- A definition names what a node reads: a table by its name, a table by its object type, or a
sub-query that is written out; and only one of them. -/
inductive NodeSource.Names (c : Catalog) (d : NodeSource) : Source → Prop
  | byName {name : String} {t : Catalog.Table} (htable : d.table = some name)
      (htype : d.objectType = none) (hquery : d.subQuery = none)
      (hfound : c.tableNamed name = .ok t) : Names c d (.table t)
  | byType {id : Int64} {t : Catalog.Table} (htable : d.table = none)
      (htype : d.objectType = some id) (hquery : d.subQuery = none)
      (hfound : c.table id = .ok t) : Names c d (.table t)
  | written {query : SubQuery} (htable : d.table = none) (htype : d.objectType = none)
      (hquery : d.subQuery = some query) : Names c d (.subQuery query)

/-- A date is the one that is written down; none if none is. -/
def Dated (written : Option String) (date : Option DateTime) : Prop :=
  written.map DateTime.ofConfigured? = date.map some

/-- The settings of a node are those that its definition writes down.  Its link and its place in
a graph are left open. -/
structure NodeSource.Sets (c : Catalog) (d : NodeSource) (n : NodeSettings) : Prop where
  source : ∃ source, n.source = some source ∧ d.Names c source
  givenAlias : n.givenAlias = d.aliasName
  join : n.join = d.join
  connective : n.connective = some d.connective
  referenceDate : Dated d.referenceDate n.referenceDate
  linkReferenceDate : Dated d.linkReferenceDate n.linkReferenceDate
  history : n.history = d.history
  sort : n.sort = d.sort
  returned : n.returned = d.returned
  showsLinkColumns : n.showsLinkColumns = d.showsLinkColumns
  fields : n.fields = d.fields
  /-- Nothing else is set. -/
  fresh : n.lastMode = {} ∧ n.standalone = {}

theorem NodeSource.names_of_source {d : NodeSource} {source : Source}
    (h : d.source c = .ok source) : d.Names c source := by
  unfold NodeSource.source at h
  split at h
  · next name htable htype hquery =>
    obtain ⟨t, ht, rfl⟩ := map_eq_ok_iff.mp h
    exact .byName htable htype hquery (fromCatalog_eq_ok_iff.mp ht)
  · next id htable htype hquery =>
    obtain ⟨t, ht, rfl⟩ := map_eq_ok_iff.mp h
    exact .byType htable htype hquery (fromCatalog_eq_ok_iff.mp ht)
  · next query htable htype hquery =>
    cases h
    exact .written htable htype hquery
  · cases h

theorem dated_of_readDate {field : String} {written : Option String} {date : Option DateTime}
    (h : readDate field written = .ok date) : Dated written date := by
  unfold readDate at h
  split at h
  · cases h
    rfl
  · split at h
    · next value date' hvalue =>
      cases h
      exact congrArg some hvalue
    · cases h

/-- A node gets the settings of its definition; no link yet, and no place. -/
theorem NodeSource.sets_settings {d : NodeSource} {settings : NodeSettings}
    (h : d.settings c = .ok settings) :
    d.Sets c settings ∧ settings.link = none ∧ settings.position = 0 := by
  obtain ⟨source, hsource, h⟩ := bind_eq_ok_iff.mp h
  obtain ⟨_, -, h⟩ := bind_eq_ok_iff.mp h
  obtain ⟨referenceDate, hreference, h⟩ := bind_eq_ok_iff.mp h
  obtain ⟨linkReferenceDate, hlinkReference, h⟩ := bind_eq_ok_iff.mp h
  cases h
  refine ⟨?_, rfl, rfl⟩
  exact {
    source := ⟨source, rfl, names_of_source hsource⟩
    givenAlias := rfl
    join := rfl
    connective := rfl
    referenceDate := dated_of_readDate hreference
    linkReferenceDate := dated_of_readDate hlinkReference
    history := rfl
    sort := rfl
    returned := rfl
    showsLinkColumns := rfl
    fields := rfl
    fresh := ⟨rfl, rfl⟩ }

/-! ### Criteria -/

mutual

/-- A condition says what its definition says. -/
inductive ConditionDefinition.Mirrors (c : Catalog) : ConditionDefinition → Condition → Prop
  | compare (field : String) (comparison : Comparison) (value : Value) :
      ConditionDefinition.Mirrors c (.compare field comparison (some value) none)
        (.compare field comparison value)
  | compareFields (field : String) (comparison : Comparison) (other : String) :
      ConditionDefinition.Mirrors c (.compare field comparison none (some other))
        (.compareFields field comparison other)
  | isNull (field : String) : ConditionDefinition.Mirrors c (.isNull field) (.isNull field)
  | between (field : String) (low high : Value) :
      ConditionDefinition.Mirrors c (.between field low high) (.between field low high)
  | valueBetween (value : Value) (low high : String) :
      ConditionDefinition.Mirrors c (.valueBetween value low high) (.valueBetween value low high)
  | touches (field : String) (box : BoundingBox) :
      ConditionDefinition.Mirrors c (.touches field box) (.touches field box)
  | inList (field : String) (values : List Value) :
      ConditionDefinition.Mirrors c (.inList field values) (.inList field values)
  /-- A node inside a condition stands alone: it is linked to nothing. -/
  | inSubquery (field : String) {query : NodeDefinition} {n : Node}
      (hquery : NodeDefinition.Mirrors c query n) (hlink : n.link = none)
      (hposition : n.position = 0) :
      ConditionDefinition.Mirrors c (.inSubquery field query) (.inSubquery field n)
  | linked (near : LinkEnd) (linkType : Int64) (related : List Int64) :
      ConditionDefinition.Mirrors c (.linked near linkType related)
        (.linked near ⟨linkType, related, none⟩)
  | freeText (sql : String) (values : List Value) :
      ConditionDefinition.Mirrors c (.freeText sql values) (.freeText sql values)
  | all {members : List CriterionDefinition} {built : List Criterion}
      (hmembers : List.Forall₂ (CriterionDefinition.Mirrors c) members built) :
      ConditionDefinition.Mirrors c (.all members)
        (.group (built.map (Criterion.connectedBy · .and)))
  | any {members : List CriterionDefinition} {built : List Criterion}
      (hmembers : List.Forall₂ (CriterionDefinition.Mirrors c) members built) :
      ConditionDefinition.Mirrors c (.any members)
        (.group (built.map (Criterion.connectedBy · .or)))
  | group {members : List CriterionDefinition} {built : List Criterion}
      (hmembers : List.Forall₂ (CriterionDefinition.Mirrors c) members built) :
      ConditionDefinition.Mirrors c (.group members) (.group built)

/-- A criterion says what its definition says, with the connective that follows it. -/
inductive CriterionDefinition.Mirrors (c : Catalog) : CriterionDefinition → Criterion → Prop
  | mk {condition : ConditionDefinition} {built : Condition} (negated : Bool)
      (connective : Connective) (hcondition : ConditionDefinition.Mirrors c condition built) :
      CriterionDefinition.Mirrors c ⟨condition, negated, connective⟩
        ⟨built, negated, connective⟩

/-- A node has the settings of its definition, and its criterion is made of the criteria of the
definition: a single one as it is, several as a group, with the connective of the node behind
them. -/
inductive NodeDefinition.Mirrors (c : Catalog) : NodeDefinition → Node → Prop
  | bare {source : NodeSource} {settings : NodeSettings} (children : List NodeDefinition)
      (hsets : source.Sets c settings) :
      NodeDefinition.Mirrors c ⟨source, [], children⟩ ⟨settings, none⟩
  | single {source : NodeSource} {settings : NodeSettings} {d : CriterionDefinition}
      {built : Criterion} (children : List NodeDefinition) (hsets : source.Sets c settings)
      (hcriterion : CriterionDefinition.Mirrors c d built) :
      NodeDefinition.Mirrors c ⟨source, [d], children⟩
        ⟨settings, some (built.connectedBy source.connective)⟩
  | several {source : NodeSource} {settings : NodeSettings} {criteria : List CriterionDefinition}
      {built : List Criterion} (children : List NodeDefinition) (hsets : source.Sets c settings)
      (hcriteria : List.Forall₂ (CriterionDefinition.Mirrors c) criteria built)
      (hseveral : 2 ≤ criteria.length) :
      NodeDefinition.Mirrors c ⟨source, criteria, children⟩
        ⟨settings, some ⟨.group built, false, source.connective⟩⟩

end

mutual

/-- A built condition says what its definition says.  By recursion on the definition: nested
nodes are built like all others. -/
theorem ConditionDefinition.mirrors_build : ∀ (d : ConditionDefinition) {condition : Condition},
    d.build c = .ok condition → d.Mirrors c condition
  | .compare field comparison (some value) none, _, h => by
    cases h
    exact .compare field comparison value
  | .compare field comparison none (some other), _, h => by
    cases h
    exact .compareFields field comparison other
  | .compare _ _ (some _) (some _), _, h => nomatch h
  | .compare _ _ none none, _, h => nomatch h
  | .isNull field, _, h => by
    cases h
    exact .isNull field
  | .between field low high, _, h => by
    cases h
    exact .between field low high
  | .valueBetween value low high, _, h => by
    cases h
    exact .valueBetween value low high
  | .touches field box, _, h => by
    cases h
    exact .touches field box
  | .inList field values, _, h => by
    cases h
    exact .inList field values
  | .freeText sql values, _, h => by
    cases h
    exact .freeText sql values
  | .linked near linkType related, _, h => by
    cases h
    exact .linked near linkType related
  | .inSubquery field query, _, h => by
    obtain ⟨n, hn, rfl⟩ := map_eq_ok_iff.mp h
    obtain ⟨hmirrors, hlink, hposition⟩ := NodeDefinition.mirrors_build query hn
    exact .inSubquery field hmirrors hlink hposition
  | .all members, _, h => by
    obtain ⟨built, hbuilt, rfl⟩ := map_eq_ok_iff.mp h
    exact .all (CriterionDefinition.mirrors_buildAll members hbuilt)
  | .any members, _, h => by
    obtain ⟨built, hbuilt, rfl⟩ := map_eq_ok_iff.mp h
    exact .any (CriterionDefinition.mirrors_buildAll members hbuilt)
  | .group members, _, h => by
    obtain ⟨built, hbuilt, rfl⟩ := map_eq_ok_iff.mp h
    exact .group (CriterionDefinition.mirrors_buildAll members hbuilt)

theorem CriterionDefinition.mirrors_build : ∀ (d : CriterionDefinition) {criterion : Criterion},
    d.build c = .ok criterion → d.Mirrors c criterion
  | ⟨condition, negated, connective⟩, _, h => by
    obtain ⟨built, hbuilt, rfl⟩ := map_eq_ok_iff.mp h
    exact .mk negated connective (ConditionDefinition.mirrors_build condition hbuilt)

theorem CriterionDefinition.mirrors_buildAll : ∀ (ds : List CriterionDefinition)
    {criteria : List Criterion}, CriterionDefinition.buildAll c ds = .ok criteria →
      List.Forall₂ (CriterionDefinition.Mirrors c) ds criteria
  | [], _, h => by
    cases h
    exact .nil
  | d :: rest, _, h => by
    obtain ⟨built, hbuilt, h⟩ := bind_eq_ok_iff.mp h
    obtain ⟨others, hothers, h⟩ := bind_eq_ok_iff.mp h
    cases h
    exact .cons (CriterionDefinition.mirrors_build d hbuilt)
      (CriterionDefinition.mirrors_buildAll rest hothers)

/-- A built node mirrors its definition; it has no link yet, and no place. -/
theorem NodeDefinition.mirrors_build : ∀ (d : NodeDefinition) {n : Node}, d.build c = .ok n →
    d.Mirrors c n ∧ n.link = none ∧ n.position = 0
  | ⟨source, criteria, children⟩, _, h => by
    obtain ⟨settings, hsettings, h⟩ := bind_eq_ok_iff.mp h
    obtain ⟨built, hbuilt, h⟩ := bind_eq_ok_iff.mp h
    cases h
    obtain ⟨hsets, hlink, hposition⟩ := NodeSource.sets_settings hsettings
    refine ⟨?_, hlink, hposition⟩
    cases CriterionDefinition.mirrors_buildAll criteria hbuilt with
    | nil => exact .bare children hsets
    | cons hfirst hrest =>
      cases hrest with
      | nil => exact .single children hsets hfirst
      | cons hnext hrest =>
        refine .several children hsets (.cons hfirst (.cons hnext hrest)) ?_
        exact Nat.le_add_left 2 _

end

/-- The link of a node and its place in a graph are no part of what the definition writes
down. -/
theorem NodeSource.Sets.placed {d : NodeSource} {n : NodeSettings} (h : d.Sets c n)
    (link : Option Link) (position : Nat) : d.Sets c { n with link, position } :=
  ⟨h.source, h.givenAlias, h.join, h.connective, h.referenceDate, h.linkReferenceDate,
    h.history, h.sort, h.returned, h.showsLinkColumns, h.fields, h.fresh⟩

/-- A node still mirrors its definition when it gets its link and its place. -/
theorem NodeDefinition.Mirrors.placed {d : NodeDefinition} {n : Node} (h : d.Mirrors c n)
    (link : Option Link) (position : Nat) : d.Mirrors c { n with link, position } := by
  cases h with
  | bare children hsets => exact .bare children (hsets.placed link position)
  | single children hsets hcriterion =>
    exact .single children (hsets.placed link position) hcriterion
  | several children hsets hcriteria hseveral =>
    exact .several children (hsets.placed link position) hcriteria hseveral

/-- The alias of a node is that of its definition, or its place in the graph. -/
theorem NodeDefinition.Mirrors.aliasName_eq {d : NodeDefinition} {n : Node}
    (h : d.Mirrors c n) : n.aliasName = d.aliasName.getD ("t" ++ toString n.position) := by
  cases h with
  | bare _ hsets | single _ hsets _ | several _ hsets _ _ =>
    rw [NodeSettings.aliasName, hsets.givenAlias]

/-- A node that mirrors a definition reads something. -/
theorem NodeDefinition.Mirrors.source_isSome {d : NodeDefinition} {n : Node}
    (h : d.Mirrors c n) : n.source.isSome = true := by
  cases h with
  | bare _ hsets | single _ hsets _ | several _ hsets _ _ =>
    obtain ⟨source, hsource, -⟩ := hsets.source
    exact Option.isSome_of_eq_some hsource

/-! ### Links -/

/-- A link between nodes of two object types is what its definition says.  The link type of a
row in the link table is the identifier that the definition gives, whatever name stands next to
it, or what the catalog knows under the name between the two object types; without either it
stays open. -/
inductive LinkDefinition.Resolves (c : Catalog) (previous next : Option Int64) :
    LinkDefinition → Link → Prop
  | child : Resolves c previous next .child .child
  | parent : Resolves c previous next .parent .parent
  | custom {left right : List String} (hlength : left.length = right.length)
      (hnonempty : left ≠ []) : Resolves c previous next (.custom left right) (.custom left right)
  | freeText (sql : String) : Resolves c previous next (.freeText sql) (.freeText sql)
  | given (near : LinkEnd) (name : Option String) (id : Int64) :
      Resolves c previous next (.linkRow near name (some id)) (.linkRow near (some id))
  | named {a b : Int64} {l : Catalog.LinkType} (near : LinkEnd) (name : String)
      (hprevious : previous = some a) (hnext : next = some b)
      (hfound : c.linkType name a b = .ok l) :
      Resolves c previous next (.linkRow near (some name) none) (.linkRow near (some l.id))
  | unnamed (near : LinkEnd) :
      Resolves c previous next (.linkRow near none none) (.linkRow near none)
  | denormalized (field : String) :
      Resolves c previous next (.denormalized field) (.denormalized field)
  | denormalizedReverse (field : String) :
      Resolves c previous next (.denormalizedReverse field) (.denormalizedReverse field)
  | denormalizedFull (left right : String) :
      Resolves c previous next (.denormalizedFull left right) (.denormalizedFull left right)

/-- A built link is what its definition says. -/
theorem LinkDefinition.resolves_build {previous next : NodeSettings} {label : String}
    {d : LinkDefinition} {link : Link} (h : d.build c previous next label = .ok link) :
    d.Resolves c previous.objectType? next.objectType? link := by
  cases d with
  | child =>
    cases h
    exact .child
  | parent =>
    cases h
    exact .parent
  | custom left right =>
    obtain ⟨u, hlists, hlink⟩ := bind_eq_ok_iff.mp (fromGraph_eq_ok_iff.mp h)
    cases hlink
    obtain ⟨hlength, hnonempty⟩ := exists_checkLists_iff.mp ⟨u, hlists⟩
    exact .custom hlength hnonempty
  | freeText sql =>
    cases h
    exact .freeText sql
  | linkRow near name id =>
    obtain ⟨linkType, htype, rfl⟩ := map_eq_ok_iff.mp h
    unfold linkTypeId at htype
    split at htype
    · next id =>
      cases htype
      exact .given near name id
    · cases htype
      exact .unnamed near
    · next name =>
      split at htype
      · next a b hprevious hnext =>
        obtain ⟨l, hl, rfl⟩ := map_eq_ok_iff.mp htype
        exact .named near name hprevious hnext (fromCatalog_eq_ok_iff.mp hl)
      · cases htype
  | denormalized field =>
    cases h
    exact .denormalized field
  | denormalizedReverse field =>
    cases h
    exact .denormalizedReverse field
  | denormalizedFull left right =>
    cases h
    exact .denormalizedFull left right

/-- The built link of a node is what the definition of the node says; none if it says
nothing. -/
theorem NodeSource.resolves_buildLink {d : NodeSource} {previous next : NodeSettings}
    {link : Option Link} (h : d.buildLink c previous next = .ok link) :
    Option.Rel (LinkDefinition.Resolves c previous.objectType? next.objectType?) d.link link := by
  unfold NodeSource.buildLink at h
  cases hlink : d.link with
  | none =>
    rw [hlink] at h
    cases h
    exact .none
  | some l =>
    rw [hlink] at h
    obtain ⟨built, hbuilt, rfl⟩ := map_eq_ok_iff.mp h
    exact .some (LinkDefinition.resolves_build hbuilt)

end ObjectQuery.Definition
