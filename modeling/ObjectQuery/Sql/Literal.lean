/-!
# Literals

## Main Definitions

* `doubleQuotes` — a text with every single quote written twice
* `literal` — a text between single quotes
-/

namespace ObjectQuery.Sql

/-- The text with every single quote written twice. -/
def doubleQuotes : List Char → List Char
  | [] => []
  | c :: rest => if c = '\'' then '\'' :: '\'' :: doubleQuotes rest else c :: doubleQuotes rest

/-- A text as a literal between single quotes. -/
def literal (text : String) : String :=
  "'" ++ String.ofList (doubleQuotes text.toList) ++ "'"

end ObjectQuery.Sql
