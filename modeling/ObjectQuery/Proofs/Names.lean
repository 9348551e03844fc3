import ObjectQuery.Sql.Fragment
import ObjectQuery.Sql.Statement

/-!
# Names in statements

Every table reference declares names, and every column carries the name of a table in front.
A statement is well scoped if each of its columns is reached by a name that is declared where
the column stands: in the select around it, and for a join in that join or an earlier one.
Texts that are taken as they are have no columns; they are listed, so that it can be said whose
they are.

## Main Definitions

* `TableRef.names`, `Join.names`, `Statement.names` — the names that are declared
* `Expr.Refers`, `Columns.Refers`, `DerivedTable.Refers` — all columns satisfy a predicate
* `Expr.selects`, `Statement.selects` — the selects inside conditions
* `Expr.texts`, `Join.texts` — the texts inside conditions
* `Subselect.Scoped`, `DerivedTable.Scoped`, `Statement.Scoped` — well-scoped selects

## Main Statements

* `Expr.Refers.mono` — a weaker predicate is satisfied as well
* `Chain.refers_ofParts?`, `Chain.collected_ofParts?` — conditions with connectives
-/

namespace ObjectQuery.Sql

/-! ### Declared names -/

/-- The names that a table reference declares. -/
def TableRef.names : TableRef → List String
  | .named _ aliasName => [aliasName]
  | .paired _ repositoryAlias _ aliasName _ _ => [repositoryAlias, aliasName]
  | .subQuery _ _ aliasName => [aliasName]

/-- The names that a join declares; those inside a derived table are not among them. -/
def Join.names : Join → List String
  | .plain _ source _ => source.names
  | .derived _ aliasName _ => [aliasName]

/-- The names that joins declare. -/
def joinNames (joins : List Join) : List String := joins.flatMap Join.names

/-- The names that a derived table declares inside. -/
def DerivedTable.names (t : DerivedTable) : List String :=
  (t.link.elim [] fun link => link.1.names) ++ t.source.names

/-- The table references of a join; inside a derived table the link row stands first. -/
def Join.tables : Join → List TableRef
  | .plain _ source _ => [source]
  | .derived table _ _ => (table.link.elim [] fun link => [link.1]) ++ [table.source]

/-- The names that a statement declares in its list of tables. -/
def Statement.names (q : Statement) : List String := q.root.names ++ joinNames q.joins

/-! ### Columns -/

mutual

/-- All columns of a condition satisfy a predicate.  A condition on a row that has to exist
may also use the name of that row; the selects inside are left out, and a text has no columns
of its own. -/
def Expr.Refers : Expr → (ColumnRef → Prop) → Prop
  | .compare column _ _, ok => ok column
  | .compareColumns left _ right, ok => ok left ∧ ok right
  | .isNull column, ok => ok column
  | .between column _ _, ok => ok column
  | .valueBetween _ low high, ok => ok low ∧ ok high
  | .touches column _, ok => ok column
  | .inList column _, ok => ok column
  | .inSelect column _, ok => ok column
  | .linked _ aliasName conditions, ok =>
    conditions.Refers fun c => c.qualifier = aliasName ∨ ok c
  | .hasId column _, ok => ok column
  | .hasStatus column _, ok => ok column
  | .raw _ _, _ => True
  | .group members, ok => members.Refers ok
  | .not members, ok => members.Refers ok

/-- All columns of conditions with connectives satisfy a predicate. -/
def Chain.Refers : Chain → (ColumnRef → Prop) → Prop
  | .last condition, ok => condition.Refers ok
  | .more condition _ rest, ok => condition.Refers ok ∧ rest.Refers ok

end

/-- All columns of a select without labels satisfy a predicate; the columns under an alias are
all columns that there may be. -/
def Columns.Refers (ok : ColumnRef → Prop) : Columns → Prop
  | .every aliasName => ∀ column, ok ⟨aliasName, column⟩
  | .listed columns => ∀ c ∈ columns, ok c

/-- The column of a select item. -/
def SelectItem.source : SelectItem → ColumnRef
  | .column source _ => source
  | .geometry source _ => source

/-- All columns inside a derived table satisfy a predicate. -/
structure DerivedTable.Refers (t : DerivedTable) (ok : ColumnRef → Prop) : Prop where
  columns : t.columns.Refers ok
  link : ∀ link, t.link = some link → ∀ e ∈ link.2, e.Refers ok
  linkItems : ∀ item ∈ t.linkItems, ok item.source
  filters : ∀ e ∈ t.filters, e.Refers ok

/-- The conditions of a join outside of its table. -/
def Join.on : Join → List Expr
  | .plain _ _ on => on
  | .derived _ _ on => on

/-- The derived table of a join, if it has one. -/
def Join.derived? : Join → Option DerivedTable
  | .plain _ _ _ => none
  | .derived table _ _ => some table

/-! ### Selects inside conditions -/

mutual

/-- The selects inside a condition, at any depth, each in front of those inside it. -/
def Expr.selects : Expr → List Subselect
  | .inSelect _ query => query :: query.selects
  | .linked _ _ conditions => conditions.selects
  | .group members => members.selects
  | .not members => members.selects
  | .compare _ _ _ => []
  | .compareColumns _ _ _ => []
  | .isNull _ => []
  | .between _ _ _ => []
  | .valueBetween _ _ _ => []
  | .touches _ _ => []
  | .inList _ _ => []
  | .hasId _ _ => []
  | .hasStatus _ _ => []
  | .raw _ _ => []

/-- The selects inside conditions with connectives. -/
def Chain.selects : Chain → List Subselect
  | .last condition => condition.selects
  | .more condition _ rest => condition.selects ++ rest.selects

/-- The selects inside a select. -/
def Subselect.selects : Subselect → List Subselect
  | .mk _ _ none => []
  | .mk _ _ (some filter) => filter.selects

end

/-- The selects inside the conditions of a join. -/
def Join.selects : Join → List Subselect
  | .plain _ _ on => on.flatMap Expr.selects
  | .derived table _ on =>
    (table.link.elim [] fun link => link.2.flatMap Expr.selects) ++
      table.filters.flatMap Expr.selects ++ on.flatMap Expr.selects

theorem Join.selects_of_derived?_eq_none {j : Join} (h : j.derived? = none) :
    j.selects = j.on.flatMap Expr.selects := by
  cases j with
  | plain kind source on => rfl
  | derived table aliasName on => cases h

/-- The selects inside the conditions of a statement. -/
def Statement.selects (q : Statement) : List Subselect :=
  q.joins.flatMap Join.selects ++ q.filter.elim [] Chain.selects

/-! ### Texts inside conditions -/

mutual

/-- The texts in a condition that are taken as they are, with their values; those in the selects
inside are left out. -/
def Expr.texts : Expr → List Fragment
  | .raw sql values => [⟨sql, values⟩]
  | .linked _ _ conditions => conditions.texts
  | .group members => members.texts
  | .not members => members.texts
  | .compare _ _ _ => []
  | .compareColumns _ _ _ => []
  | .isNull _ => []
  | .between _ _ _ => []
  | .valueBetween _ _ _ => []
  | .touches _ _ => []
  | .inList _ _ => []
  | .inSelect _ _ => []
  | .hasId _ _ => []
  | .hasStatus _ _ => []

/-- The texts in conditions with connectives. -/
def Chain.texts : Chain → List Fragment
  | .last condition => condition.texts
  | .more condition _ rest => condition.texts ++ rest.texts

end

/-- The texts in the conditions inside the derived table of a join. -/
def Join.texts : Join → List Fragment
  | .plain _ _ _ => []
  | .derived table _ _ =>
    (table.link.elim [] fun link => link.2.flatMap Expr.texts) ++ table.filters.flatMap Expr.texts

theorem Join.texts_of_derived?_eq_none {j : Join} (h : j.derived? = none) : j.texts = [] := by
  cases j with
  | plain kind source on => rfl
  | derived table aliasName on => cases h

/-! ### Well-scoped selects -/

/-- A column under one of the names. -/
def ColumnRef.Among (names : List String) (c : ColumnRef) : Prop := c.qualifier ∈ names

namespace ColumnRef.Among

variable {c : ColumnRef} {names : List String}

theorem left (h : c.Among names) (more : List String) : c.Among (names ++ more) :=
  List.mem_append_left more h

theorem right (h : c.Among names) (more : List String) : c.Among (more ++ names) :=
  List.mem_append_right more h

end ColumnRef.Among

/-- The row condition of a paired table reference is about the pair. -/
def TableRef.Scoped : TableRef → Prop
  | .paired _ repositoryAlias _ aliasName key rowKey =>
    key.qualifier = repositoryAlias ∧ rowKey.qualifier = aliasName
  | _ => True

/-- Every column of a select behind `IN`, apart from those of the selects inside, is reached
by a name of the table of that select. -/
def Subselect.Scoped : Subselect → Prop
  | .mk columns source filter => source.Scoped ∧ columns.Refers (·.Among source.names) ∧
      ∀ e, filter = some e → e.Refers (·.Among source.names)

/-- Every column inside a derived table is reached by a name of its own tables. -/
structure DerivedTable.Scoped (t : DerivedTable) : Prop where
  source : t.source.Scoped
  link : ∀ link, t.link = some link → link.1.Scoped
  refers : t.Refers (·.Among t.names)

/-- The tables of a join are well scoped inside. -/
def Join.Scoped : Join → Prop
  | .plain _ source _ => source.Scoped
  | .derived table _ _ => table.Scoped

/-- The conditions of each join use the names in front of it and its own. -/
def OnScoped (earlier : List String) : List Join → Prop
  | [] => True
  | j :: rest =>
    (∀ e ∈ j.on, e.Refers (·.Among (earlier ++ j.names))) ∧ OnScoped (earlier ++ j.names) rest

/-- Every column of a statement is reached by a name that is declared where it stands. -/
structure Statement.Scoped (q : Statement) : Prop where
  root : q.root.Scoped
  joins : ∀ j ∈ q.joins, j.Scoped
  on : OnScoped q.root.names q.joins
  items : ∀ item ∈ q.items, item.source.Among q.names
  filter : ∀ chain, q.filter = some chain → chain.Refers (·.Among q.names)
  order : ∀ term ∈ q.order, term.column.Among q.names
  selects : ∀ select ∈ q.selects, select.Scoped

/-! ### Weaker predicates -/

mutual

/-- A weaker predicate is satisfied as well. -/
theorem Expr.Refers.mono : ∀ {e : Expr} {ok ok' : ColumnRef → Prop}, (∀ c, ok c → ok' c) →
    e.Refers ok → e.Refers ok'
  | .compare _ _ _, _, _, h, he => h _ he
  | .compareColumns _ _ _, _, _, h, he => ⟨h _ he.1, h _ he.2⟩
  | .isNull _, _, _, h, he => h _ he
  | .between _ _ _, _, _, h, he => h _ he
  | .valueBetween _ _ _, _, _, h, he => ⟨h _ he.1, h _ he.2⟩
  | .touches _ _, _, _, h, he => h _ he
  | .inList _ _, _, _, h, he => h _ he
  | .inSelect _ _, _, _, h, he => h _ he
  | .linked _ _ conditions, _, _, h, he =>
    Chain.Refers.mono (c := conditions) (fun c => Or.imp_right (h c)) he
  | .hasId _ _, _, _, h, he => h _ he
  | .hasStatus _ _, _, _, h, he => h _ he
  | .raw _ _, _, _, _, _ => trivial
  | .group members, _, _, h, he => Chain.Refers.mono (c := members) h he
  | .not members, _, _, h, he => Chain.Refers.mono (c := members) h he

theorem Chain.Refers.mono : ∀ {c : Chain} {ok ok' : ColumnRef → Prop}, (∀ r, ok r → ok' r) →
    c.Refers ok → c.Refers ok'
  | .last condition, _, _, h, hc => Expr.Refers.mono (e := condition) h hc
  | .more condition _ rest, _, _, h, hc =>
    ⟨Expr.Refers.mono (e := condition) h hc.1, Chain.Refers.mono (c := rest) h hc.2⟩

end

section Predicates

variable {ok ok' : ColumnRef → Prop}

theorem Columns.Refers.mono {c : Columns} (h : ∀ r, ok r → ok' r) (hc : c.Refers ok) :
    c.Refers ok' := by
  cases c with
  | every aliasName => exact fun column => h _ (hc column)
  | listed columns => exact fun r hr => h r (hc r hr)

theorem DerivedTable.Refers.mono {t : DerivedTable} (h : ∀ r, ok r → ok' r)
    (ht : t.Refers ok) : t.Refers ok' where
  columns := ht.columns.mono h
  link := fun link hlink e he => (ht.link link hlink e he).mono h
  linkItems := fun item hitem => h _ (ht.linkItems item hitem)
  filters := fun e he => (ht.filters e he).mono h

/-! ### Conditions put together -/

/-- Parentheses change no columns. -/
theorem Expr.Refers.enclosed {e : Expr} (h : e.Refers ok) : e.enclosed.Refers ok := by
  cases e with
  | group members => exact h
  | _ => exact h

theorem Expr.Refers.negated {e : Expr} (h : e.Refers ok) : e.negated.Refers ok := by
  cases e with
  | group members => exact h
  | _ => exact h

theorem Expr.selects_enclosed (e : Expr) : e.enclosed.selects = e.selects := by
  cases e with
  | group members => rfl
  | _ => rfl

theorem Expr.selects_negated (e : Expr) : e.negated.selects = e.selects := by
  cases e with
  | group members => rfl
  | _ => rfl

theorem Expr.texts_enclosed (e : Expr) : e.enclosed.texts = e.texts := by
  cases e with
  | group members => rfl
  | _ => rfl

theorem Expr.texts_negated (e : Expr) : e.negated.texts = e.texts := by
  cases e with
  | group members => rfl
  | _ => rfl

/-- A conjunction refers to what its conditions refer to. -/
theorem Chain.refers_conjunction {first : Expr} {rest : List Expr} (h : first.Refers ok)
    (hrest : ∀ e ∈ rest, e.Refers ok) : (Chain.conjunction first rest).Refers ok := by
  induction rest generalizing first with
  | nil => exact h
  | cons next rest ih =>
    rw [List.forall_mem_cons] at hrest
    exact ⟨h, ih hrest.1 hrest.2⟩

section Collected

variable {α : Type} {ofExpr : Expr → List α} {ofChain : Chain → List α}
  (hlast : ∀ e, ofChain (.last e) = ofExpr e)
  (hmore : ∀ e connective rest, ofChain (.more e connective rest) = ofExpr e ++ ofChain rest)

include hlast hmore

/-- What is collected from a conjunction is collected from its conditions. -/
theorem Chain.collected_conjunction (first : Expr) (rest : List Expr) :
    ofChain (.conjunction first rest) = ofExpr first ++ rest.flatMap ofExpr := by
  induction rest generalizing first with
  | nil => exact (hlast first).trans (List.append_nil _).symm
  | cons next rest ih =>
    rw [Chain.conjunction, hmore, ih, List.flatMap_cons]

/-- What is collected from conditions with connectives is collected from the conditions. -/
theorem Chain.collected_ofParts? (parts : List (Expr × Connective)) :
    (Chain.ofParts? parts).elim [] ofChain = parts.flatMap fun p => ofExpr p.1 := by
  induction parts with
  | nil => rfl
  | cons part rest ih =>
    obtain ⟨condition, connective⟩ := part
    rw [Chain.ofParts?, List.flatMap_cons, ← ih]
    cases Chain.ofParts? rest with
    | none => exact (hlast condition).trans (List.append_nil _).symm
    | some others => exact hmore condition connective others

end Collected

theorem Chain.selects_conjunction (first : Expr) (rest : List Expr) :
    (Chain.conjunction first rest).selects = first.selects ++ rest.flatMap Expr.selects :=
  collected_conjunction (fun _ => rfl) (fun _ _ _ => rfl) first rest

theorem Chain.texts_conjunction (first : Expr) (rest : List Expr) :
    (Chain.conjunction first rest).texts = first.texts ++ rest.flatMap Expr.texts :=
  collected_conjunction (fun _ => rfl) (fun _ _ _ => rfl) first rest

/-- Conditions with connectives refer to what the conditions refer to. -/
theorem Chain.refers_ofParts? {parts : List (Expr × Connective)}
    (h : ∀ p ∈ parts, p.1.Refers ok) :
    ∀ chain, Chain.ofParts? parts = some chain → chain.Refers ok := by
  induction parts with
  | nil => exact fun chain hchain => nomatch hchain
  | cons part rest ih =>
    rw [List.forall_mem_cons] at h
    intro chain hchain
    obtain ⟨condition, connective⟩ := part
    rw [Chain.ofParts?] at hchain
    cases hrest : Chain.ofParts? rest with
    | none =>
      rw [hrest] at hchain
      cases hchain
      exact h.1
    | some others =>
      rw [hrest] at hchain
      cases hchain
      exact ⟨h.1, ih h.2 others hrest⟩

theorem Chain.selects_ofParts? (parts : List (Expr × Connective)) :
    (Chain.ofParts? parts).elim [] Chain.selects = parts.flatMap fun p => p.1.selects :=
  collected_ofParts? (fun _ => rfl) (fun _ _ _ => rfl) parts

theorem Chain.texts_ofParts? (parts : List (Expr × Connective)) :
    (Chain.ofParts? parts).elim [] Chain.texts = parts.flatMap fun p => p.1.texts :=
  collected_ofParts? (fun _ => rfl) (fun _ _ _ => rfl) parts

end Predicates

/-! ### Joins one after the other -/

theorem onScoped_append {earlier : List String} {joins more : List Join} :
    OnScoped earlier (joins ++ more) ↔
      OnScoped earlier joins ∧ OnScoped (earlier ++ joinNames joins) more := by
  induction joins generalizing earlier with
  | nil => simp [OnScoped, joinNames]
  | cons j joins ih =>
    rw [List.cons_append, OnScoped, OnScoped, ih, joinNames, joinNames, List.flatMap_cons,
      List.append_assoc, and_assoc]

end ObjectQuery.Sql
