import ObjectQuery.Definition.Model
import ObjectQuery.Document.Shape

/-!
# Names in definitions

The written names of the choices and fields of a definition, shared by reading and writing.

## Main Definitions

* `connectives`, `joins`, `comparisons`, `linkKinds`, `conditionKinds` — the choices
* `sortFieldShape`, `subQueryShape`, `nodeShape`, `definitionShape` — the fields
-/

namespace ObjectQuery.Definition

open ObjectQuery.Document (Shape)
open ObjectQuery.Sql ObjectQuery.Query

/-- The written name of a connective. -/
def connectiveName : Connective → String
  | .and => "and"
  | .or => "or"

/-- The connectives by name. -/
def connectives : List (String × Connective) := [("and", .and), ("or", .or)]

/-- The written name of a join. -/
def joinName : JoinKind → String
  | .inner => "inner"
  | .left => "left"
  | .right => "right"

/-- The joins by name. -/
def joins : List (String × JoinKind) := [("inner", .inner), ("left", .left), ("right", .right)]

/-- The written name of a comparison. -/
def comparisonName : Comparison → String
  | .equal => "eq"
  | .unequal => "not_eq"
  | .less => "lt"
  | .lessOrEqual => "lt_eq"
  | .greater => "gt"
  | .greaterOrEqual => "gt_eq"
  | .like => "like"
  | .notLike => "not_like"

/-- The comparisons by name. -/
def comparisons : List (String × Comparison) :=
  [("eq", .equal), ("not_eq", .unequal), ("lt", .less), ("lt_eq", .lessOrEqual),
    ("gt", .greater), ("gt_eq", .greaterOrEqual), ("like", .like), ("not_like", .notLike)]

/-- The kinds of links. -/
def linkKinds : List String :=
  ["child", "parent", "custom", "free_text", "db_link", "db_link_reverse", "denormalized",
    "denormalized_reverse", "denormalized_full"]

/-- The kinds of conditions. -/
def conditionKinds : List String :=
  ["compare", "is_null", "between", "value_between", "bbox", "in_list", "in_subquery", "db_link",
    "db_link_reverse", "free_text", "all", "any", "group"]

/-! ### Fields -/

/-- The fields of a field to order by. -/
def sortFieldShape : Shape := .ofNames ["field", "descending"]

/-- The fields of a sub-query. -/
def subQueryShape : Shape := .ofNames ["sql", "fields", "params"]

/-- The fields of a node, with those of its children up to a number of generations. -/
def nodeShape : (generations : Nat) → Shape
  | 0 => .whole
  | generations + 1 =>
    .fields [("table", .whole), ("object_type_id", .whole), ("sub_query", subQueryShape),
      ("alias", .whole), ("join", .whole), ("link", .whole), ("where", .whole),
      ("connector", .whole), ("reference_date", .whole), ("link_reference_date", .whole),
      ("history", .whole), ("order_by", sortFieldShape), ("return", .whole),
      ("link_columns", .whole), ("fields", .whole), ("children", nodeShape generations)]

/-- The names of the fields of a node. -/
def nodeFields : List String := (nodeShape 1).names

/-- The fields of a definition, with those of nodes up to a number of generations. -/
def definitionShape (generations : Nat) : Shape :=
  .fields [("nodes", nodeShape generations), ("root", nodeShape generations),
    ("return_type", .whole)]

end ObjectQuery.Definition
