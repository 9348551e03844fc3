/-!
# Vocabularies of SQL dialects

A dialect is a table from keys to the words that a database expects: quotes of identifiers,
clauses, connectives and comparisons.  A statement is only spelled with a complete
vocabulary, so a missing word is found before any text is written.

## Main Definitions

* `Keyword` — the words that statements need, with the key of each
* `Dialect` — a table of words by key
* `Vocabulary` — a word for every keyword
* `Dialect.vocabulary` — the vocabulary of a dialect, or the first key it lacks
-/

namespace ObjectQuery.Sql

/-- The words that statements are spelled with. -/
inductive Keyword
  | quoteOpen | quoteClose
  | select | fromTables | whereFilter | orderBy | ascending | descending | label | on
  | innerJoin | leftJoin | rightJoin | existence
  | conjunction | disjunction | negation
  | equal | unequal | less | lessOrEqual | greater | greaterOrEqual | like | notLike
  | membership | between | isNull
  deriving DecidableEq, Repr

namespace Keyword

/-- All keywords, in the order in which a dialect is asked for them. -/
def all : List Keyword :=
  [quoteOpen, quoteClose, select, fromTables, whereFilter, orderBy, ascending, descending, label,
    on, innerJoin, leftJoin, rightJoin, existence, conjunction, disjunction, negation, equal,
    unequal, less, lessOrEqual, greater, greaterOrEqual, like, notLike, membership, between,
    isNull]

theorem mem_all (k : Keyword) : k ∈ all := by cases k <;> decide

/-- The key of a keyword in the table of a dialect. -/
def key : Keyword → String
  | quoteOpen => "quote_open"
  | quoteClose => "quote_close"
  | select => "select"
  | fromTables => "from"
  | whereFilter => "where"
  | orderBy => "order_by"
  | ascending => "asc"
  | descending => "desc"
  | label => "as"
  | on => "on"
  | innerJoin => "inner_join"
  | leftJoin => "left_join"
  | rightJoin => "right_join"
  | existence => "exists"
  | conjunction => "and"
  | disjunction => "or"
  | negation => "not"
  | equal => "eq"
  | unequal => "ne"
  | less => "lt"
  | lessOrEqual => "le"
  | greater => "gt"
  | greaterOrEqual => "ge"
  | like => "like"
  | notLike => "not_like"
  | membership => "in"
  | between => "between"
  | isNull => "is_null"

/-- The word of standard SQL. -/
def standard : Keyword → String
  | quoteOpen => "\""
  | quoteClose => "\""
  | select => "SELECT"
  | fromTables => "FROM"
  | whereFilter => "WHERE"
  | orderBy => "ORDER BY"
  | ascending => "ASC"
  | descending => "DESC"
  | label => "AS"
  | on => "ON"
  | innerJoin => "INNER JOIN"
  | leftJoin => "LEFT JOIN"
  | rightJoin => "RIGHT JOIN"
  | existence => "EXISTS"
  | conjunction => "AND"
  | disjunction => "OR"
  | negation => "NOT"
  | equal => "="
  | unequal => "<>"
  | less => "<"
  | lessOrEqual => "<="
  | greater => ">"
  | greaterOrEqual => ">="
  | like => "LIKE"
  | notLike => "NOT LIKE"
  | membership => "IN"
  | between => "BETWEEN"
  | isNull => "IS NULL"

end Keyword

/-- A word for every keyword. -/
abbrev Vocabulary := Keyword → String

namespace Vocabulary

/-- The words of standard SQL. -/
def standard : Vocabulary := Keyword.standard

/-- An identifier between the quotes of the dialect, otherwise as it is. -/
def quote (w : Vocabulary) (identifier : String) : String :=
  w .quoteOpen ++ identifier ++ w .quoteClose

end Vocabulary

/-- A table of words by key; of several entries for one key the first counts. -/
structure Dialect where
  entries : List (String × String)
  deriving DecidableEq, Repr

namespace Dialect

/-- The word under a key. -/
def lookup? (d : Dialect) (key : String) : Option String := d.entries.lookup key

/-- The dialect of standard SQL. -/
def standard : Dialect := ⟨Keyword.all.map fun k => (k.key, k.standard)⟩

/-- The standard dialect with some entries replaced or added. -/
def withOverrides (overrides : List (String × String)) : Dialect :=
  ⟨overrides ++ standard.entries⟩

/-- The dialect without the word under a key. -/
def without (d : Dialect) (key : String) : Dialect := ⟨d.entries.filter fun e => e.1 != key⟩

/-- The vocabulary of a dialect, or the first key that it has no word for. -/
def vocabulary (d : Dialect) : Except String Vocabulary :=
  match Keyword.all.find? fun k => (d.lookup? k.key).isNone with
  | some missing => .error missing.key
  | none => .ok fun k => (d.lookup? k.key).getD ""

end Dialect

end ObjectQuery.Sql
