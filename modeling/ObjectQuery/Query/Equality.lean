import ObjectQuery.Query.Node

/-!
# Equality of nodes

Two nodes are equal if all their settings agree.  Values are compared as the database
compares them, and environments by their handles.

## Main Definitions

* `Node.same` — equality of nodes
* `Criterion.same` — equality of criteria
-/

namespace ObjectQuery.Query

open ObjectQuery.Sql

/-- Whether two sub-queries are equal. -/
def SubQuery.same (a b : SubQuery) : Bool :=
  a.sql == b.sql && a.fields == b.fields && Value.sameAll a.values b.values

/-- Whether two optional sources are equal. -/
def Source.same : Option Source → Option Source → Bool
  | none, none => true
  | some (.table a), some (.table b) => a == b
  | some (.subQuery a), some (.subQuery b) => a.same b
  | _, _ => false

/-- Whether two nodes agree in their settings for compilation alone. -/
def Standalone.same (a b : Standalone) : Bool :=
  Shared.same a.environment b.environment && a.linkTable == b.linkTable &&
    a.statuses == b.statuses

/-- Whether two nodes agree in all but their criterion. -/
def NodeSettings.same (a b : NodeSettings) : Bool :=
  Source.same a.source b.source && a.givenAlias == b.givenAlias && a.position == b.position &&
    a.connective == b.connective && a.history == b.history &&
    a.referenceDate == b.referenceDate && a.linkReferenceDate == b.linkReferenceDate &&
    a.link == b.link && a.join == b.join && a.sort == b.sort && a.returned == b.returned &&
    a.showsLinkColumns == b.showsLinkColumns && a.fields == b.fields &&
    a.lastMode == b.lastMode && a.standalone.same b.standalone

mutual

/-- Whether two conditions are equal. -/
def Condition.same : Condition → Condition → Bool
  | .compare f c v, .compare f' c' v' => f == f' && c == c' && v.same v'
  | .compareFields f c g, .compareFields f' c' g' => f == f' && c == c' && g == g'
  | .isNull f, .isNull f' => f == f'
  | .between f low high, .between f' low' high' => f == f' && low.same low' && high.same high'
  | .valueBetween v low high, .valueBetween v' low' high' =>
    v.same v' && low == low' && high == high'
  | .touches f box, .touches f' box' => f == f' && box.same box'
  | .inList f values, .inList f' values' => f == f' && Value.sameAll values values'
  | .inSubquery f query, .inSubquery f' query' => f == f' && query.same query'
  | .linked near filter, .linked near' filter' => near == near' && filter == filter'
  | .freeText sql values, .freeText sql' values' => sql == sql' && Value.sameAll values values'
  | .group members, .group members' => Criterion.sameAll members members'
  | _, _ => false

/-- Whether two criteria are equal. -/
def Criterion.same : Criterion → Criterion → Bool
  | ⟨condition, negated, connective⟩, other =>
    condition.same other.condition && negated == other.negated && connective == other.connective

/-- Whether two lists of criteria are equal. -/
def Criterion.sameAll : List Criterion → List Criterion → Bool
  | [], [] => true
  | a :: as, b :: bs => a.same b && Criterion.sameAll as bs
  | _, _ => false

/-- Whether two nodes are equal. -/
def Node.same : Node → Node → Bool
  | ⟨settings, predicate⟩, other =>
    settings.same other.toNodeSettings && Criterion.sameOptional predicate other.predicate

/-- Whether two optional criteria are equal. -/
def Criterion.sameOptional : Option Criterion → Option Criterion → Bool
  | none, none => true
  | some a, some b => a.same b
  | _, _ => false

end

end ObjectQuery.Query
