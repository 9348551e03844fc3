import ObjectQuery.Sql.Fragment
import ObjectQuery.Sql.Literal
import ObjectQuery.Sql.Statement
import ObjectQuery.Text.Blank

/-!
# Spelling statements

The text of a statement in a dialect, with its bind values.  Spelling cannot fail: all names
are resolved and the vocabulary is complete.

## Main Definitions

* `Spelling` — a vocabulary and the geometry expressions of a database
* `Expr.render`, `Chain.render`, `Subselect.render` — conditions
* `TableRef.render`, `Join.render`, `SelectItem.render` — the parts of a statement
* `Statement.render` — the whole statement

## Design Notes

A group is the only condition with parentheses of its own, and `NOT` always stands in front of
a pair of parentheses, so neighbouring conditions are separated by connectives alone.
-/

namespace ObjectQuery.Sql

open ObjectQuery.Text (joinWith)
open Fragment (text placeholder join)

/-- How a database spells statements. -/
structure Spelling where
  words : Vocabulary
  geometry : Geometry

/-- A column behind its qualifier. -/
def ColumnRef.render (w : Vocabulary) (c : ColumnRef) : String :=
  c.qualifier ++ "." ++ w.quote c.column

/-- Columns of a select without labels. -/
def Columns.render (w : Vocabulary) : Columns → String
  | .every aliasName => aliasName ++ ".*"
  | .listed columns => joinWith ", " (columns.map (ColumnRef.render w))

/-- A labelled item of a select list. -/
def SelectItem.render (s : Spelling) : SelectItem → String
  | .column source label =>
    source.render s.words ++ " " ++ s.words .label ++ " " ++ s.words.quote label
  | .geometry source label =>
    s.geometry.read (source.render s.words) ++ " " ++ s.words .label ++ " " ++ s.words.quote label

/-- A table with its alias. -/
def TableRef.render (w : Vocabulary) : TableRef → Fragment
  | .named name aliasName => text (name ++ " " ++ aliasName)
  | .paired repository repositoryAlias table aliasName key rowKey =>
    text ("(" ++ repository ++ " " ++ repositoryAlias ++ " " ++ w .innerJoin ++ " " ++ table ++
      " " ++ aliasName ++ " " ++ w .on ++ " " ++ key.render w ++ " " ++ w .equal ++ " " ++
      rowKey.render w ++ ")")
  | .subQuery sql values aliasName => text "(" ++ ⟨sql, values⟩ ++ text (") " ++ aliasName)

mutual

/-- A condition. -/
def Expr.render (s : Spelling) : Expr → Fragment
  | .compare column comparison value =>
    text (column.render s.words ++ " " ++ s.words comparison.keyword ++ " ") ++ placeholder value
  | .compareColumns left comparison right =>
    text (left.render s.words ++ " " ++ s.words comparison.keyword ++ " " ++
      right.render s.words)
  | .isNull column => text (column.render s.words ++ " " ++ s.words .isNull)
  | .between column low high =>
    text (column.render s.words ++ " " ++ s.words .between ++ " ") ++ placeholder low ++
      text (" " ++ s.words .conjunction ++ " ") ++ placeholder high
  | .valueBetween value low high =>
    placeholder value ++ text (" " ++ s.words .between ++ " " ++ low.render s.words ++ " " ++
      s.words .conjunction ++ " " ++ high.render s.words)
  | .touches column box =>
    ⟨s.geometry.touches (column.render s.words), s.geometry.boxValues box⟩
  | .inList column values =>
    if values.isEmpty then text ("1 " ++ s.words .equal ++ " 0")
    else
      text (column.render s.words ++ " " ++ s.words .membership ++ " (") ++
        join ", " (values.map placeholder) ++ text ")"
  | .inSelect column query =>
    text (column.render s.words ++ " " ++ s.words .membership ++ " (") ++ query.render s ++
      text ")"
  | .linked table aliasName conditions =>
    text (s.words .existence ++ " (" ++ s.words .select ++ " 1 " ++ s.words .fromTables ++ " " ++
      table ++ " " ++ aliasName ++ " " ++ s.words .whereFilter ++ " ") ++ conditions.render s ++
      text ")"
  | .hasId column id =>
    text (column.render s.words ++ " " ++ s.words .equal ++ " " ++ toString id.toInt)
  | .hasStatus column statuses =>
    text ("(" ++ joinWith (" " ++ s.words .disjunction ++ " ") (statuses.map fun status =>
      column.render s.words ++ " " ++ s.words .equal ++ " " ++ literal status) ++ ")")
  | .raw sql values => ⟨sql, values⟩
  | .group members => text "(" ++ members.render s ++ text ")"
  | .not members => text (s.words .negation ++ " (") ++ members.render s ++ text ")"

/-- Conditions with connectives between neighbours. -/
def Chain.render (s : Spelling) : Chain → Fragment
  | .last condition => condition.render s
  | .more condition connective rest =>
    condition.render s ++ text (" " ++ s.words connective.keyword ++ " ") ++ rest.render s

/-- The select behind `IN`. -/
def Subselect.render (s : Spelling) : Subselect → Fragment
  | .mk columns source none =>
    text (s.words .select ++ " " ++ columns.render s.words ++ " " ++ s.words .fromTables ++ " ")
      ++ source.render s.words
  | .mk columns source (some filter) =>
    text (s.words .select ++ " " ++ columns.render s.words ++ " " ++ s.words .fromTables ++ " ")
      ++ source.render s.words ++ text (" " ++ s.words .whereFilter ++ " ") ++ filter.render s

end

/-- Conditions that must all hold. -/
def renderAll (s : Spelling) (conditions : List Expr) : Fragment :=
  join (" " ++ s.words .conjunction ++ " ") (conditions.map (Expr.render s))

/-- The tables inside a derived table: the node, behind its link row if it has one. -/
def DerivedTable.renderTables (s : Spelling) (t : DerivedTable) : Fragment :=
  match t.link with
  | none => t.source.render s.words
  | some (link, on) =>
    link.render s.words ++ text (" " ++ s.words .innerJoin ++ " ") ++ t.source.render s.words ++
      text (" " ++ s.words .on ++ " ") ++ renderAll s on

/-- The select of a derived table, without parentheses. -/
def DerivedTable.render (s : Spelling) (t : DerivedTable) : Fragment :=
  let columns := joinWith ", " (t.columns.render s.words :: t.linkItems.map (SelectItem.render s))
  let tables :=
    text (s.words .select ++ " " ++ columns ++ " " ++ s.words .fromTables ++ " ") ++
      t.renderTables s
  if t.filters.isEmpty then tables
  else tables ++ text (" " ++ s.words .whereFilter ++ " ") ++ renderAll s t.filters

/-- A join on a line of its own. -/
def Join.render (s : Spelling) : Join → Fragment
  | .plain kind source on =>
    text ("\n" ++ s.words kind.keyword ++ " ") ++ source.render s.words ++
      text (" " ++ s.words .on ++ " ") ++ renderAll s on
  | .derived table aliasName on =>
    text ("\n" ++ s.words .leftJoin ++ " (") ++ table.render s ++
      text (") " ++ aliasName ++ " " ++ s.words .on ++ " ") ++ renderAll s on

/-- A column to order by, with its direction. -/
def OrderTerm.render (w : Vocabulary) (t : OrderTerm) : String :=
  t.column.render w ++ " " ++ w (if t.descending then .descending else .ascending)

/-- The select list; everything if it has no items. -/
def renderItems (s : Spelling) (items : List SelectItem) : String :=
  if items.isEmpty then "*" else joinWith ", " (items.map (SelectItem.render s))

namespace Statement

/-- The tables of a statement: the first one and its joins. -/
def renderTables (s : Spelling) (q : Statement) : Fragment :=
  join "" (q.root.render s.words :: q.joins.map (Join.render s))

/-- The filter of a statement on a line of its own. -/
def renderFilter (s : Spelling) (q : Statement) : Fragment :=
  match q.filter with
  | none => Fragment.empty
  | some chain => text ("\n" ++ s.words .whereFilter ++ " ") ++ chain.render s

/-- The order of a statement on a line of its own. -/
def renderOrder (s : Spelling) (q : Statement) : String :=
  if q.order.isEmpty then ""
  else "\n" ++ s.words .orderBy ++ " " ++
    joinWith ", " (q.order.map (OrderTerm.render s.words))

/-- A statement. -/
def render (s : Spelling) (q : Statement) : Fragment :=
  text (s.words .select ++ " " ++ renderItems s q.items ++ "\n" ++ s.words .fromTables ++ " ") ++
    q.renderTables s ++ q.renderFilter s ++ text (q.renderOrder s)

end Statement

end ObjectQuery.Sql
