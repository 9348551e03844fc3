import ObjectQuery.Catalog.Registry
import ObjectQuery.Config.Basic
import ObjectQuery.Definition.Model

/-!
# Building graphs from definitions

Tables, field lists and link types are resolved through a catalog, so that a graph holds
descriptors only.

## Main Definitions

* `DefinitionError` — why a definition cannot be built
* `NodeDefinition.build`, `CriterionDefinition.build` — nodes and criteria
* `QueryDefinition.build` — the graph of a definition
-/

namespace ObjectQuery.Definition

open ObjectQuery.Catalog (CatalogError)
open ObjectQuery.Calendar ObjectQuery.Query ObjectQuery.Sql

/-- What is wrong with a definition. -/
inductive DefinitionFault
  | chainAndTree
  | neither
  | childrenInChain (node : String)
  | unclearSource (node : String)
  | unknownField (field node : String)
  /-- A link type by name between nodes of which one reads no table. -/
  | untypedLink (linkType node : String)
  | unclearComparison (field : String)
  | described (message node : String)
  deriving DecidableEq, Repr

/-- Why a definition cannot be built. -/
inductive DefinitionError
  | catalog (error : CatalogError)
  | compile (error : CompileError)
  | invalid (fault : DefinitionFault)
  | invalidDate (field value : String)
  | unreadable
  | malformed
  deriving DecidableEq

/-- A message with the node it was raised for. -/
def inNode (message node : String) : String := message ++ "\n  Context: node `" ++ node ++ "`"

/-- The wording of a fault. -/
def DefinitionFault.message : DefinitionFault → String
  | .chainAndTree => "a definition has either `nodes` or `root`, not both"
  | .neither => "a definition needs `nodes` or `root`"
  | .childrenInChain node => inNode "`children` is only allowed below `root`" node
  | .unclearSource node =>
    inNode "set exactly one of `table`, `object_type_id` or `sub_query`" node
  | .unknownField field node => inNode ("unknown field `" ++ field ++ "`") node
  | .untypedLink linkType node =>
    inNode ("link type `" ++ linkType ++ "` needs table nodes on both sides") node
  | .unclearComparison field =>
    "comparison on `" ++ field ++ "` needs exactly one of `value` or `other_field`"
  | .described message node => inNode message node

/-- The wording of each cause. -/
def DefinitionError.message : DefinitionError → String
  | .catalog error => error.message
  | .compile error => error.message
  | .invalid fault => "Invalid query definition: " ++ fault.message
  | .invalidDate field value =>
    "Invalid date `" ++ value ++ "` for " ++ field ++ " (expected " ++ Config.dateFormat ++ ")"
  | .unreadable => "Failed to read query definition"
  | .malformed => "Failed to parse query definition"

/-- The result of building a part of a definition. -/
abbrev Built (α : Type) := Except DefinitionError α

/-- The result of a look-up in the catalog. -/
def fromCatalog {α : Type} (result : Except CatalogError α) : Built α :=
  result.mapError .catalog

/-- The result of an operation on graphs. -/
def fromGraph {α : Type} (result : Except CompileError α) : Built α := result.mapError .compile

/-- The date in an optional field. -/
def readDate (field : String) : Option String → Built (Option DateTime)
  | none => .ok none
  | some value =>
    match DateTime.ofConfigured? value with
    | some date => .ok (some date)
    | none => .error (.invalidDate field value)

/-- What a node reads: exactly one of a table by name, a table by object type and a
sub-query. -/
def NodeSource.source (n : NodeSource) (c : Catalog) : Built Source :=
  match n.table, n.objectType, n.subQuery with
  | some name, none, none => (fromCatalog (c.tableNamed name)).map .table
  | none, some id, none => (fromCatalog (c.table id)).map .table
  | none, none, some query => .ok (.subQuery query)
  | _, _, _ => .error (.invalid (.unclearSource n.label))

/-- Checks that the fields a node lists are columns that the catalog knows. -/
def NodeSource.checkFields (n : NodeSource) (c : Catalog) (source : Source) : Built Unit :=
  match n.fields, source with
  | some fields, .table t => do
    let known ← fromCatalog (c.fields t.objectType)
    match fields.find? fun name => !known.any fun f => f.name == name with
    | some unknown => .error (.invalid (.unknownField unknown n.label))
    | none => .ok ()
  | _, _ => .ok ()

/-- The settings of a node, without its link. -/
def NodeSource.settings (n : NodeSource) (c : Catalog) : Built NodeSettings := do
  let source ← n.source c
  n.checkFields c source
  let referenceDate ← readDate "reference_date" n.referenceDate
  let linkReferenceDate ← readDate "link_reference_date" n.linkReferenceDate
  return {
    source := some source
    givenAlias := n.aliasName
    connective := some n.connective
    history := n.history
    referenceDate
    linkReferenceDate
    join := n.join
    sort := n.sort
    returned := n.returned
    showsLinkColumns := n.showsLinkColumns
    fields := n.fields }

/-- The criterion of a node with several criteria: their group, with the connective of the
node behind it. -/
def combine (connective : Connective) : List Criterion → Option Criterion
  | [] => none
  | [criterion] => some (criterion.connectedBy connective)
  | criteria => some ((Criterion.group criteria).connectedBy connective)

mutual

/-- The condition of a definition. -/
def ConditionDefinition.build (c : Catalog) : ConditionDefinition → Built Condition
  | .compare field comparison (some value) none => .ok (.compare field comparison value)
  | .compare field comparison none (some other) => .ok (.compareFields field comparison other)
  | .compare field _ _ _ => .error (.invalid (.unclearComparison field))
  | .isNull field => .ok (.isNull field)
  | .between field low high => .ok (.between field low high)
  | .valueBetween value low high => .ok (.valueBetween value low high)
  | .touches field box => .ok (.touches field box)
  | .inList field values => .ok (.inList field values)
  | .inSubquery field query => (query.build c).map (.inSubquery field)
  | .linked near linkType related => .ok (.linked near ⟨linkType, related, none⟩)
  | .freeText sql values => .ok (.freeText sql values)
  | .all members =>
    (CriterionDefinition.buildAll c members).map fun built => (Criterion.all built).condition
  | .any members =>
    (CriterionDefinition.buildAll c members).map fun built => (Criterion.any built).condition
  | .group members =>
    (CriterionDefinition.buildAll c members).map fun built => (Criterion.group built).condition

/-- The criterion of a definition. -/
def CriterionDefinition.build (c : Catalog) : CriterionDefinition → Built Criterion
  | ⟨condition, negated, connective⟩ =>
    (condition.build c).map fun built => ⟨built, negated, connective⟩

/-- The criteria of definitions, in order. -/
def CriterionDefinition.buildAll (c : Catalog) :
    List CriterionDefinition → Built (List Criterion)
  | [] => .ok []
  | criterion :: rest => do
    let built ← criterion.build c
    let others ← CriterionDefinition.buildAll c rest
    return built :: others

/-- The node of a definition, without its link. -/
def NodeDefinition.build (c : Catalog) : NodeDefinition → Built Node
  | ⟨source, criteria, _⟩ => do
    let settings ← source.settings c
    let built ← CriterionDefinition.buildAll c criteria
    return { settings with predicate := combine source.connective built }

end

/-! ### Links -/

/-- The link type of a link: a given identifier, or a name looked up between the object types
of the two nodes.  Without either the link stays open. -/
def linkTypeId (c : Catalog) (name : Option String) (id : Option Int64)
    (previous next : NodeSettings) (label : String) : Built (Option Int64) :=
  match id, name with
  | some id, _ => .ok (some id)
  | none, none => .ok none
  | none, some name =>
    match previous.objectType?, next.objectType? with
    | some a, some b => (fromCatalog (c.linkType name a b)).map fun l => some l.id
    | _, _ => .error (.invalid (.untypedLink name label))

/-- The link between two nodes, for the node with a label. -/
def LinkDefinition.build (c : Catalog) (previous next : NodeSettings) (label : String) :
    LinkDefinition → Built Link
  | .child => .ok .child
  | .parent => .ok .parent
  | .custom left right => fromGraph (Link.ofLists left right)
  | .freeText sql => .ok (.freeText sql)
  | .linkRow near name id => (linkTypeId c name id previous next label).map (.linkRow near)
  | .denormalized field => .ok (.denormalized field)
  | .denormalizedReverse field => .ok (.denormalizedReverse field)
  | .denormalizedFull left right => .ok (.denormalizedFull left right)

/-- The link of a node if it has one. -/
def NodeSource.buildLink (n : NodeSource) (c : Catalog) (previous next : NodeSettings) :
    Built (Option Link) :=
  match n.link with
  | none => .ok none
  | some link => (link.build c previous next n.label).map some

/-! ### Chains -/

/-- The nodes of a chain with their links; the link of the last node has no partner and is
left out. -/
def linkChain (c : Catalog) : List (NodeDefinition × Node) → Built (List Node)
  | [] => .ok []
  | (d, n) :: rest => do
    if d.children.isEmpty then
      let link ← match rest with
        | (_, next) :: _ =>
          d.toNodeSource.buildLink c n.toNodeSettings next.toNodeSettings
        | [] => pure none
      let others ← linkChain c rest
      return { n with link } :: others
    else throw (.invalid (.childrenInChain d.label))

/-- Adds nodes to the end of a chain. -/
def addItems (g : Graph) : List Node → Built Graph
  | [] => .ok g
  | n :: rest => do
    let (g, _) ← fromGraph (g.addItem n)
    addItems g rest

/-- The chain of a definition. -/
def buildChain (c : Catalog) (config : Config) (e : Environment)
    (definitions : List NodeDefinition) : Built Graph := do
  let nodes ← definitions.mapM (NodeDefinition.build c)
  let linked ← linkChain c (definitions.zip nodes)
  addItems (config.configure (.forward e)) linked

/-! ### Trees -/

mutual

/-- Adds a node and the nodes below it to a tree. -/
def NodeDefinition.addBelow (c : Catalog) (parent : Nat) (g : Graph) :
    NodeDefinition → Built Graph
  | ⟨source, criteria, children⟩ => do
    let n ← NodeDefinition.build c ⟨source, criteria, []⟩
    let partner ← fromGraph (g.node parent)
    let link ← source.buildLink c partner.toNodeSettings n.toNodeSettings
    let (g, id) ← fromGraph (g.addChild parent { n with link })
    NodeDefinition.addAllBelow c id g children

/-- Adds nodes, each with the nodes below it, to a tree. -/
def NodeDefinition.addAllBelow (c : Catalog) (parent : Nat) (g : Graph) :
    List NodeDefinition → Built Graph
  | [] => .ok g
  | d :: rest => do
    let g ← d.addBelow c parent g
    NodeDefinition.addAllBelow c parent g rest

end

/-- The tree of a definition; the link of the root has no partner and is left out. -/
def buildTree (c : Catalog) (config : Config) (e : Environment) (root : NodeDefinition) :
    Built Graph := do
  let n ← root.build c
  NodeDefinition.addAllBelow c 0 (config.configure (.reverse e n)) root.children

/-! ### Queries -/

/-- The graph of a definition, without its return type. -/
def QueryDefinition.buildGraph (q : QueryDefinition) (c : Catalog) (config : Config)
    (e : Environment) : Built Graph :=
  match q.root, q.nodes with
  | some root, [] => buildTree c config e root
  | none, d :: rest => buildChain c config e (d :: rest)
  | some _, _ :: _ => .error (.invalid .chainAndTree)
  | none, [] => .error (.invalid .neither)

/-- The graph of a definition. -/
def QueryDefinition.build (q : QueryDefinition) (c : Catalog) (config : Config)
    (e : Environment) : Built Graph := do
  let g ← q.buildGraph c config e
  match q.returnType with
  | none => return g
  | some name =>
    let t ← fromCatalog (c.tableNamed name)
    return { g with returnType := some t.objectType }

end ObjectQuery.Definition
