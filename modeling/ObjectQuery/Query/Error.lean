/-!
# Compile errors

## Main Definitions

* `CompileError` — why a query graph does not compile, by cause
* `CompileError.message` — the wording of each cause
-/

namespace ObjectQuery.Query

/-- What is wrong with the shape of a graph. -/
inductive GraphFault
  | empty
  | itemOnTree
  | childOnChain
  deriving DecidableEq, Repr

/-- What is wrong with a join. -/
inductive JoinFault
  /-- A custom join whose column lists are empty or not equally long. -/
  | unequalLists (left right : Nat)
  /-- Two neighbours without a link. -/
  | noLink (previous next : String)
  | described (message previous next : String)
  deriving DecidableEq, Repr

/-- What keeps a link from being resolved. -/
inductive LinkFault
  /-- A link through the link table without a link type. -/
  | noLinkType (reversed : Bool)
  /-- A join through a link table in a graph without one. -/
  | noTableForJoin (target previous : String)
  /-- A link filter on a node in a graph without a link table. -/
  | noTableForFilter (aliasName : String)
  | described (message context : String)
  deriving DecidableEq, Repr

/-- Why a query graph does not compile. -/
inductive CompileError
  | missingSource (aliasName : String)
  | invalidGraph (fault : GraphFault)
  | joinConfiguration (fault : JoinFault)
  | unresolvedLink (fault : LinkFault)
  | missingKeyword (key : String)
  | unknownNode (id : Nat)
  deriving DecidableEq, Repr

/-- The place of a join between two aliases. -/
def joining (one other : String) : String := "joining '" ++ one ++ "' to '" ++ other ++ "'"

/-- The wording of a fault in the shape of a graph. -/
def GraphFault.message : GraphFault → String
  | .empty => "cannot compile a graph without nodes"
  | .itemOnTree => "add_item called on a reverse graph; use add_child"
  | .childOnChain => "add_child called on a forward graph; use add_item"

/-- The wording of a fault of a join. -/
def JoinFault.message : JoinFault → String
  | .unequalLists left right =>
    "custom join needs equal, non-empty column lists (left has " ++ toString left ++
      ", right has " ++ toString right ++ ")"
  | .noLink previous next =>
    "no link kind configured between nodes\n  Context: " ++ joining previous next
  | .described message previous next => message ++ "\n  Context: " ++ joining previous next

/-- The wording of a fault of a link. -/
def LinkFault.message : LinkFault → String
  | .noLinkType reversed =>
    (if reversed then "DbLinkReverse" else "DbLink") ++ " without a link type id"
  | .noTableForJoin target previous =>
    "link table is not configured for this graph\n  Context: " ++ joining target previous
  | .noTableForFilter aliasName =>
    "link filter requires a configured link table\n  Context: predicate on '" ++ aliasName ++ "'"
  | .described message context => message ++ "\n  Context: " ++ context

/-- The wording of each cause. -/
def CompileError.message : CompileError → String
  | .missingSource aliasName =>
    "Node '" ++ aliasName ++ "' has neither a table descriptor nor a sub-query " ++
      "(resolve the object type through the catalog first)"
  | .invalidGraph fault => "Invalid graph mode: " ++ fault.message
  | .joinConfiguration fault => "Join configuration error: " ++ fault.message
  | .unresolvedLink fault => "Link type unresolved: " ++ fault.message
  | .missingKeyword key => "Keyword `" ++ key ++ "` is missing from the dialect table"
  | .unknownNode id => "Node id " ++ toString id ++ " does not belong to this graph"

end ObjectQuery.Query
