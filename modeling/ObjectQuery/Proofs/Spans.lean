import ObjectQuery.Proofs.FragmentAlgebra
import ObjectQuery.Proofs.Quotations
import ObjectQuery.Sql.Rendering

/-!
# The spans of a statement

The text of a statement is made of words, literals, texts of the caller, and names between the
quotes of the dialect.  Whatever the statement is, something is written between two names, and
between a name and a literal or a text of the caller.

## Main Definitions

* `Span` — a part of a text, by where it comes from
* `Geometry.Writes` — the expressions of a geometry as texts around mentions of the column
* `Expr.spans`, `Statement.spans` — the spans of conditions and of a statement
* `Spaced` — spans with words between those that are not words

## Main Statements

* `Statement.sql_render` — the text of a statement is the text of its spans
* `Statement.spaced_spans` — the spans of a statement are spaced
-/

namespace ObjectQuery.Sql

open ObjectQuery.Text (joinWith)

/-- A part of the text of a statement. -/
inductive Span
  /-- A sign, a word of the dialect, a table or an alias. -/
  | word (text : String)
  /-- A text written as a literal. -/
  | literal (text : String)
  /-- A text of the caller, taken as it is. -/
  | raw (sql : String)
  /-- A name between the quotes of the dialect. -/
  | name (identifier : String)
  deriving DecidableEq

/-- What is written for a span. -/
def Span.spell (w : Vocabulary) : Span → String
  | word text => text
  | literal text => Sql.literal text
  | raw sql => sql
  | name identifier => w.quote identifier

/-- What is written for spans. -/
def spanText (w : Vocabulary) : List Span → String
  | [] => ""
  | span :: rest => span.spell w ++ spanText w rest

/-- Spans with the same spans between neighbours. -/
def joinedSpans (separator : List Span) : List (List Span) → List Span
  | [] => []
  | [part] => part
  | part :: parts => part ++ separator ++ joinedSpans separator parts

/-- A word with a blank on both sides. -/
def amid (word : String) : List Span := [.word " ", .word word, .word " "]

/-! ### Geometry expressions -/

/-- The texts around the mentions of the column in the expressions of a geometry. -/
structure GeometryTexts where
  read : List String
  touches : List String

/-- The expressions of a geometry are texts around mentions of the column. -/
structure Geometry.Writes (g : Geometry) (t : GeometryTexts) : Prop where
  read : ∀ column, g.read column = joinWith column t.read
  touches : ∀ column, g.touches column = joinWith column t.touches

/-- A column mentioned between texts. -/
def mentions (texts : List String) (column : List Span) : List Span :=
  joinedSpans column (texts.map fun text => [.word text])

/-! ### The spans of the parts of a statement -/

section

variable (w : Vocabulary) (t : GeometryTexts)

/-- The spans of a column. -/
def ColumnRef.spans (c : ColumnRef) : List Span :=
  [.word c.qualifier, .word ".", .name c.column]

/-- The spans of columns without labels. -/
def Columns.spans : Columns → List Span
  | .every aliasName => [.word aliasName, .word ".*"]
  | .listed columns => joinedSpans [.word ", "] (columns.map ColumnRef.spans)

/-- The spans of an item of a select list. -/
def SelectItem.spans : SelectItem → List Span
  | .column source label => source.spans ++ amid (w .label) ++ [.name label]
  | .geometry source label => mentions t.read source.spans ++ amid (w .label) ++ [.name label]

/-- The spans of a table with its alias. -/
def TableRef.spans : TableRef → List Span
  | .named name aliasName => [.word name, .word " ", .word aliasName]
  | .paired repository repositoryAlias table aliasName key rowKey =>
    [.word "(", .word repository, .word " ", .word repositoryAlias] ++ amid (w .innerJoin) ++
      [.word table, .word " ", .word aliasName] ++ amid (w .on) ++ key.spans ++
      amid (w .equal) ++ rowKey.spans ++ [.word ")"]
  | .subQuery sql _ aliasName => [.word "(", .raw sql, .word ") ", .word aliasName]

mutual

/-- The spans of a condition. -/
def Expr.spans : Expr → List Span
  | .compare column comparison _ => column.spans ++ amid (w comparison.keyword) ++ [.word "?"]
  | .compareColumns left comparison right =>
    left.spans ++ amid (w comparison.keyword) ++ right.spans
  | .isNull column => column.spans ++ [.word " ", .word (w .isNull)]
  | .between column _ _ =>
    column.spans ++ amid (w .between) ++ [.word "?"] ++ amid (w .conjunction) ++ [.word "?"]
  | .valueBetween _ low high =>
    [.word "?"] ++ amid (w .between) ++ low.spans ++ amid (w .conjunction) ++ high.spans
  | .touches column _ => mentions t.touches column.spans
  | .inList column values =>
    if values.isEmpty then [.word "1 ", .word (w .equal), .word " 0"]
    else
      column.spans ++ [.word " ", .word (w .membership), .word " ("] ++
        joinedSpans [.word ", "] (values.map fun _ => [.word "?"]) ++ [.word ")"]
  | .inSelect column query =>
    column.spans ++ [.word " ", .word (w .membership), .word " ("] ++ query.spans ++ [.word ")"]
  | .linked table aliasName conditions =>
    [.word (w .existence), .word " (", .word (w .select), .word " 1 ", .word (w .fromTables),
      .word " ", .word table, .word " ", .word aliasName] ++ amid (w .whereFilter) ++
      conditions.spans ++ [.word ")"]
  | .hasId column id => column.spans ++ amid (w .equal) ++ [.word (toString id.toInt)]
  | .hasStatus column statuses =>
    [.word "("] ++ joinedSpans (amid (w .disjunction)) (statuses.map fun status =>
      column.spans ++ amid (w .equal) ++ [.literal status]) ++ [.word ")"]
  | .raw sql _ => [.raw sql]
  | .group members => [.word "("] ++ members.spans ++ [.word ")"]
  | .not members => [.word (w .negation), .word " ("] ++ members.spans ++ [.word ")"]

/-- The spans of conditions with connectives. -/
def Chain.spans : Chain → List Span
  | .last condition => condition.spans
  | .more condition connective rest =>
    condition.spans ++ amid (w connective.keyword) ++ rest.spans

/-- The spans of the select behind `IN`. -/
def Subselect.spans : Subselect → List Span
  | .mk columns source none =>
    [.word (w .select), .word " "] ++ columns.spans ++ amid (w .fromTables) ++ source.spans w
  | .mk columns source (some filter) =>
    [.word (w .select), .word " "] ++ columns.spans ++ amid (w .fromTables) ++ source.spans w ++
      amid (w .whereFilter) ++ filter.spans

end

/-- The spans of conditions that must all hold. -/
def spansOfAll (conditions : List Expr) : List Span :=
  joinedSpans (amid (w .conjunction)) (conditions.map (Expr.spans w t))

/-- The spans of the tables inside a derived table. -/
def DerivedTable.tableSpans (table : DerivedTable) : List Span :=
  match table.link with
  | none => table.source.spans w
  | some (link, on) =>
    link.spans w ++ amid (w .innerJoin) ++ table.source.spans w ++ amid (w .on) ++
      spansOfAll w t on

/-- The spans of the select of a derived table. -/
def DerivedTable.spans (table : DerivedTable) : List Span :=
  let tables := [.word (w .select), .word " "] ++
    joinedSpans [.word ", "] (table.columns.spans :: table.linkItems.map (SelectItem.spans w t)) ++
    amid (w .fromTables) ++ table.tableSpans w t
  if table.filters.isEmpty then tables
  else tables ++ amid (w .whereFilter) ++ spansOfAll w t table.filters

/-- The spans of a join. -/
def Join.spans : Join → List Span
  | .plain kind source on =>
    [.word "\n", .word (w kind.keyword), .word " "] ++ source.spans w ++ amid (w .on) ++
      spansOfAll w t on
  | .derived table aliasName on =>
    [.word "\n", .word (w .leftJoin), .word " ("] ++ table.spans w t ++
      [.word ") ", .word aliasName] ++ amid (w .on) ++ spansOfAll w t on

/-- The spans of a column to order by. -/
def OrderTerm.spans (term : OrderTerm) : List Span :=
  term.column.spans ++ [.word " ", .word (w (if term.descending then .descending else .ascending))]

/-- The spans of a select list. -/
def spansOfItems (items : List SelectItem) : List Span :=
  if items.isEmpty then [.word "*"]
  else joinedSpans [.word ", "] (items.map (SelectItem.spans w t))

namespace Statement

/-- The spans of the filter of a statement. -/
def filterSpans (q : Statement) : List Span :=
  match q.filter with
  | none => []
  | some chain => [.word "\n", .word (w .whereFilter), .word " "] ++ chain.spans w t

/-- The spans of the order of a statement. -/
def orderSpans (q : Statement) : List Span :=
  if q.order.isEmpty then []
  else [.word "\n", .word (w .orderBy), .word " "] ++
    joinedSpans [.word ", "] (q.order.map (OrderTerm.spans w))

/-- The spans of a statement. -/
def spans (q : Statement) : List Span :=
  [.word (w .select), .word " "] ++ spansOfItems w t q.items ++
    [.word "\n", .word (w .fromTables), .word " "] ++ q.root.spans w ++
    q.joins.flatMap (Join.spans w t) ++ q.filterSpans w t ++ q.orderSpans w

end Statement

end

/-! ### The text of spans -/

section

variable (w : Vocabulary)

@[simp] theorem spanText_nil : spanText w [] = "" := rfl

@[simp] theorem spanText_cons (span : Span) (rest : List Span) :
    spanText w (span :: rest) = span.spell w ++ spanText w rest := rfl

@[simp] theorem spanText_append (v v' : List Span) :
    spanText w (v ++ v') = spanText w v ++ spanText w v' := by
  induction v with
  | nil => exact String.empty_append.symm
  | cons span v ih => rw [List.cons_append, spanText_cons, spanText_cons, ih, String.append_assoc]

@[simp] theorem spanText_amid (word : String) :
    spanText w (amid word) = " " ++ (word ++ " ") := by
  simp [amid, Span.spell]

theorem spanText_joinedSpans (separator : List Span) (parts : List (List Span)) :
    spanText w (joinedSpans separator parts) =
      joinWith (spanText w separator) (parts.map (spanText w)) := by
  induction parts with
  | nil => rfl
  | cons part parts ih =>
    cases parts with
    | nil => rfl
    | cons next parts =>
      show spanText w (part ++ separator ++ joinedSpans separator (next :: parts)) = _
      rw [spanText_append, spanText_append, ih]
      rfl

/-- Parts with spans of their own are joined like their spans. -/
theorem spanText_joinedSpans_map {α : Type} (spell : α → String) (spans : α → List Span)
    (h : ∀ x, spell x = spanText w (spans x)) {separator : List Span} {text : String}
    (hseparator : spanText w separator = text) (parts : List α) :
    spanText w (joinedSpans separator (parts.map spans)) = joinWith text (parts.map spell) := by
  rw [spanText_joinedSpans, hseparator, List.map_map]
  exact congrArg _ (List.map_congr_left fun x _ => (h x).symm)

theorem Fragment.sql_join (separator : String) (parts : List Fragment) :
    (Fragment.join separator parts).sql = joinWith separator (parts.map (·.sql)) := by
  induction parts with
  | nil => rfl
  | cons part parts ih =>
    cases parts with
    | nil => rfl
    | cons next parts =>
      rw [Fragment.join_cons _ _ (List.cons_ne_nil _ _), Fragment.sql_append, Fragment.sql_append,
        ih]
      rfl

theorem ColumnRef.render_eq (c : ColumnRef) : c.render w = spanText w c.spans := by
  simp [ColumnRef.render, ColumnRef.spans, Span.spell, String.append_assoc]

theorem Columns.render_eq (columns : Columns) : columns.render w = spanText w columns.spans := by
  cases columns with
  | every aliasName => simp [Columns.render, Columns.spans, Span.spell]
  | listed columns =>
    exact (spanText_joinedSpans_map w _ _ (ColumnRef.render_eq w) (by simp [Span.spell])
      columns).symm

theorem TableRef.sql_render (table : TableRef) :
    (table.render w).sql = spanText w (table.spans w) := by
  cases table <;>
    simp [TableRef.render, TableRef.spans, Span.spell, ColumnRef.render_eq, String.append_assoc]

end

section

variable {s : Spelling} {t : GeometryTexts}

theorem spanText_mentions (w : Vocabulary) (texts : List String) (column : List Span) :
    spanText w (mentions texts column) = joinWith (spanText w column) texts := by
  rw [mentions, spanText_joinedSpans, List.map_map]
  congr 1
  simp [Function.comp_def, Span.spell]

theorem SelectItem.render_eq (hg : s.geometry.Writes t) (item : SelectItem) :
    item.render s = spanText s.words (item.spans s.words t) := by
  cases item <;>
    simp [SelectItem.render, SelectItem.spans, Span.spell, ColumnRef.render_eq, hg.read,
      spanText_mentions, String.append_assoc]

mutual

theorem Expr.sql_render (hg : s.geometry.Writes t) :
    ∀ e : Expr, (e.render s).sql = spanText s.words (e.spans s.words t)
  | .compare _ _ _ => by
    simp [Expr.render, Expr.spans, Span.spell, ColumnRef.render_eq, String.append_assoc]
  | .compareColumns _ _ _ => by
    simp [Expr.render, Expr.spans, ColumnRef.render_eq, String.append_assoc]
  | .isNull _ => by
    simp [Expr.render, Expr.spans, Span.spell, ColumnRef.render_eq, String.append_assoc]
  | .between _ _ _ => by
    simp [-String.reduceAppend, Expr.render, Expr.spans, Span.spell, ColumnRef.render_eq,
      String.append_assoc]
  | .valueBetween _ _ _ => by
    simp [Expr.render, Expr.spans, Span.spell, ColumnRef.render_eq, String.append_assoc]
  | .touches _ _ => by
    simp [Expr.render, Expr.spans, ColumnRef.render_eq, hg.touches, spanText_mentions]
  | .inList column values => by
    have hmarks : spanText s.words (joinedSpans [.word ", "] (values.map fun _ => [.word "?"])) =
        (Fragment.join ", " (values.map Fragment.placeholder)).sql := by
      rw [Fragment.sql_join, List.map_map]
      exact spanText_joinedSpans_map s.words _ _ (fun _ => rfl) rfl values
    rw [Expr.render, Expr.spans]
    generalize joinedSpans [.word ", "] (values.map fun _ => [.word "?"]) = marks at hmarks ⊢
    split
    · simp [Span.spell, String.append_assoc]
    · simp [Span.spell, ColumnRef.render_eq, hmarks, String.append_assoc]
  | .inSelect _ query => by
    simp [Expr.render, Expr.spans, Span.spell, ColumnRef.render_eq, query.sql_render hg,
      String.append_assoc]
  | .linked _ _ conditions => by
    simp [Expr.render, Expr.spans, Span.spell, conditions.sql_render hg, String.append_assoc]
  | .hasId _ _ => by
    simp [Expr.render, Expr.spans, Span.spell, ColumnRef.render_eq, String.append_assoc]
  | .hasStatus column statuses => by
    have hseparator : spanText s.words (amid (s.words .disjunction)) =
        " " ++ s.words .disjunction ++ " " := by simp [String.append_assoc]
    have hjoin := spanText_joinedSpans_map s.words
      (fun status => column.render s.words ++ " " ++ s.words .equal ++ " " ++ literal status)
      (fun status => column.spans ++ amid (s.words .equal) ++ [.literal status])
      (fun status => by simp [Span.spell, ColumnRef.render_eq, String.append_assoc])
      hseparator statuses
    simp only [Expr.render, Expr.spans, Fragment.sql_text, spanText_append, hjoin]
    simp [Span.spell]
  | .raw _ _ => by simp [Expr.render, Expr.spans, Span.spell]
  | .group members => by
    simp [Expr.render, Expr.spans, Span.spell, members.sql_render hg, String.append_assoc]
  | .not members => by
    simp [Expr.render, Expr.spans, Span.spell, members.sql_render hg, String.append_assoc]

theorem Chain.sql_render (hg : s.geometry.Writes t) :
    ∀ c : Chain, (c.render s).sql = spanText s.words (c.spans s.words t)
  | .last condition => condition.sql_render hg
  | .more condition _ rest => by
    simp [Chain.render, Chain.spans, condition.sql_render hg, rest.sql_render hg,
      String.append_assoc]

theorem Subselect.sql_render (hg : s.geometry.Writes t) :
    ∀ query : Subselect, (query.render s).sql = spanText s.words (query.spans s.words t)
  | .mk _ _ none => by
    simp [Subselect.render, Subselect.spans, Span.spell, Columns.render_eq, TableRef.sql_render,
      String.append_assoc]
  | .mk _ _ (some filter) => by
    simp [Subselect.render, Subselect.spans, Span.spell, Columns.render_eq, TableRef.sql_render,
      filter.sql_render hg, String.append_assoc]

end

theorem sql_renderAll (hg : s.geometry.Writes t) (conditions : List Expr) :
    (renderAll s conditions).sql = spanText s.words (spansOfAll s.words t conditions) := by
  rw [renderAll, Fragment.sql_join, List.map_map]
  exact (spanText_joinedSpans_map s.words _ _ (Expr.sql_render hg)
    (by simp [String.append_assoc]) conditions).symm

theorem DerivedTable.sql_renderTables (hg : s.geometry.Writes t) (table : DerivedTable) :
    (table.renderTables s).sql = spanText s.words (table.tableSpans s.words t) := by
  obtain ⟨columns, link, items, source, filters⟩ := table
  cases link with
  | none => exact TableRef.sql_render s.words source
  | some row =>
    simp [DerivedTable.renderTables, DerivedTable.tableSpans, TableRef.sql_render,
      sql_renderAll hg, String.append_assoc]

theorem DerivedTable.sql_render (hg : s.geometry.Writes t) (table : DerivedTable) :
    (table.render s).sql = spanText s.words (table.spans s.words t) := by
  have hitems : table.linkItems.map (SelectItem.render s) =
      (table.linkItems.map (SelectItem.spans s.words t)).map (spanText s.words) := by
    rw [List.map_map]
    exact List.map_congr_left fun item _ => SelectItem.render_eq hg item
  have hcolumns := spanText_joinedSpans s.words [.word ", "]
    (table.columns.spans :: table.linkItems.map (SelectItem.spans s.words t))
  rw [List.map_cons, ← hitems, ← Columns.render_eq] at hcolumns
  simp only [DerivedTable.render, DerivedTable.spans]
  split <;>
    simp [-String.reduceAppend, Span.spell, hcolumns, table.sql_renderTables hg, sql_renderAll hg,
      String.append_assoc]

theorem Join.sql_render (hg : s.geometry.Writes t) (j : Join) :
    (j.render s).sql = spanText s.words (j.spans s.words t) := by
  cases j with
  | plain kind source on =>
    simp [Join.render, Join.spans, Span.spell, TableRef.sql_render, sql_renderAll hg,
      String.append_assoc]
  | derived table aliasName on =>
    simp [Join.render, Join.spans, Span.spell, table.sql_render hg, sql_renderAll hg,
      String.append_assoc]

theorem OrderTerm.render_eq (w : Vocabulary) (term : OrderTerm) :
    term.render w = spanText w (term.spans w) := by
  simp [OrderTerm.render, OrderTerm.spans, Span.spell, ColumnRef.render_eq, String.append_assoc]

theorem renderItems_eq_spanText (hg : s.geometry.Writes t) (items : List SelectItem) :
    renderItems s items = spanText s.words (spansOfItems s.words t items) := by
  rw [renderItems, spansOfItems]
  split
  · simp [Span.spell]
  · exact (spanText_joinedSpans_map s.words _ _ (SelectItem.render_eq hg) (by simp [Span.spell])
      items).symm

namespace Statement

variable (q : Statement)

theorem sql_renderFilter (hg : s.geometry.Writes t) :
    (q.renderFilter s).sql = spanText s.words (q.filterSpans s.words t) := by
  obtain ⟨items, root, joins, filter, order⟩ := q
  cases filter with
  | none => rfl
  | some chain =>
    simp [renderFilter, filterSpans, Span.spell, Chain.sql_render hg, String.append_assoc]

theorem renderOrder_eq_spanText (w : Vocabulary) (g : Geometry) :
    q.renderOrder ⟨w, g⟩ = spanText w (q.orderSpans w) := by
  rw [renderOrder, orderSpans]
  split
  · rfl
  · have hterms := spanText_joinedSpans_map w _ _ (OrderTerm.render_eq w)
      (show spanText w [.word ", "] = ", " by simp [Span.spell]) q.order
    simp [Span.spell, hterms, String.append_assoc]

theorem sql_renderTables (hg : s.geometry.Writes t) :
    (q.renderTables s).sql =
      spanText s.words (q.root.spans s.words ++ q.joins.flatMap (Join.spans s.words t)) := by
  have hjoins : (Fragment.join "" (q.joins.map (Join.render s))).sql =
      spanText s.words (q.joins.flatMap (Join.spans s.words t)) := by
    induction q.joins with
    | nil => rfl
    | cons j joins ih =>
      rw [List.map_cons, Fragment.join_empty_cons, Fragment.sql_append, ih, j.sql_render hg,
        List.flatMap_cons, spanText_append]
  rw [renderTables, Fragment.join_empty_cons, Fragment.sql_append, hjoins, TableRef.sql_render,
    spanText_append]

/-- The text of a statement is the text of its spans. -/
theorem sql_render (hg : s.geometry.Writes t) :
    (q.render s).sql = spanText s.words (q.spans s.words t) := by
  obtain ⟨w, g⟩ := s
  simp [-String.reduceAppend, render, spans, Span.spell, renderItems_eq_spanText hg,
    q.sql_renderTables hg, q.sql_renderFilter hg, renderOrder_eq_spanText, String.append_assoc]

end Statement

end

/-! ### Spaced spans -/

/-- Between two spans that are not words stands a word with characters, and in front of the
first one too if something touches the spans from the left. -/
def Spaced : (touched : Bool) → List Span → Prop
  | _, [] => True
  | touched, .word text :: rest => Spaced (touched && decide (text = "")) rest
  | touched, .literal _ :: rest => touched = false ∧ Spaced true rest
  | touched, .raw _ :: rest => touched = false ∧ Spaced true rest
  | touched, .name _ :: rest => touched = false ∧ Spaced true rest

section

variable {touched : Bool} {v v' : List Span}

theorem Spaced.weaken (h : Spaced true v) : Spaced touched v := by
  cases touched with
  | true => exact h
  | false =>
    induction v with
    | nil => trivial
    | cons span v ih =>
      cases span with
      | word text =>
        by_cases hempty : text = ""
        · exact ih (by simpa [Spaced, hempty] using h)
        · simpa [Spaced, hempty] using h
      | literal _ => cases h.1
      | raw _ => cases h.1
      | name _ => cases h.1

theorem Spaced.append (h : Spaced touched v) (h' : Spaced true v') : Spaced touched (v ++ v') := by
  induction v generalizing touched with
  | nil => exact h'.weaken
  | cons span v ih =>
    cases span with
    | word text => exact ih h
    | literal _ => exact ⟨h.1, ih h.2⟩
    | raw _ => exact ⟨h.1, ih h.2⟩
    | name _ => exact ⟨h.1, ih h.2⟩

/-- Behind a word with characters nothing touches the spans. -/
theorem spaced_word {text : String} (hne : text ≠ "") (h : Spaced false v) :
    Spaced touched (.word text :: v) := by
  simpa [Spaced, hne] using h

theorem spaced_amid (word : String) (h : Spaced false v) : Spaced touched (amid word ++ v) :=
  spaced_word (by decide) (by simpa [Spaced] using h)

/-- Parts with words between them are spaced. -/
theorem spaced_joinedSpans {separator : List Span} {parts : List (List Span)}
    (hseparator : ∀ v, Spaced false v → Spaced true (separator ++ v))
    (h : ∀ part ∈ parts, Spaced false part) : Spaced false (joinedSpans separator parts) := by
  induction parts with
  | nil => trivial
  | cons part parts ih =>
    rw [List.forall_mem_cons] at h
    cases parts with
    | nil => exact h.1
    | cons next parts =>
      show Spaced false (part ++ separator ++ joinedSpans separator (next :: parts))
      rw [List.append_assoc]
      exact h.1.append (hseparator _ (ih h.2))

/-- Parts that nothing in front of them touches can stand behind anything. -/
theorem spaced_joinedSpans_behind {separator : List Span} {parts : List (List Span)}
    (hseparator : Spaced true separator) (h : ∀ part ∈ parts, Spaced true part) :
    Spaced true (joinedSpans separator parts) := by
  induction parts with
  | nil => trivial
  | cons part parts ih =>
    rw [List.forall_mem_cons] at h
    cases parts with
    | nil => exact h.1
    | cons next parts => exact (h.1.append hseparator).append (ih h.2)

/-- A list of parts that can stand behind anything can stand there too. -/
theorem spaced_listed {α : Type} (spans : α → List Span) (h : ∀ x, Spaced true (spans x))
    (parts : List α) : Spaced true (joinedSpans [.word ", "] (parts.map spans)) := by
  refine spaced_joinedSpans_behind (spaced_word (by decide) trivial) fun part hpart => ?_
  obtain ⟨x, -, rfl⟩ := List.mem_map.mp hpart
  exact h x

end

section

variable (w : Vocabulary) (t : GeometryTexts)

theorem ColumnRef.spaced_spans (c : ColumnRef) : Spaced true c.spans := by
  simp [ColumnRef.spans, Spaced]

theorem Columns.spaced_spans (columns : Columns) : Spaced true columns.spans := by
  cases columns with
  | every aliasName => simp [Columns.spans, Spaced]
  | listed columns => exact spaced_listed _ ColumnRef.spaced_spans columns

theorem spaced_mentions (texts : List String) {column : List Span} (h : Spaced true column) :
    Spaced true (mentions texts column) := by
  refine spaced_joinedSpans_behind h fun part hpart => ?_
  obtain ⟨text, -, rfl⟩ := List.mem_map.mp hpart
  exact trivial

theorem SelectItem.spaced_spans (item : SelectItem) : Spaced true (item.spans w t) := by
  cases item with
  | column source label =>
    rw [SelectItem.spans, List.append_assoc]
    exact source.spaced_spans.append (spaced_amid _ ⟨rfl, trivial⟩)
  | geometry source label =>
    rw [SelectItem.spans, List.append_assoc]
    exact (spaced_mentions t.read source.spaced_spans).append (spaced_amid _ ⟨rfl, trivial⟩)

theorem TableRef.spaced_spans (table : TableRef) : Spaced true (table.spans w) := by
  cases table with
  | named name aliasName => trivial
  | paired repository repositoryAlias table aliasName key rowKey =>
    have hrow : Spaced true (rowKey.spans ++ [.word ")"]) := rowKey.spaced_spans.append trivial
    have hkeys : Spaced true (key.spans ++ (amid (w .equal) ++ (rowKey.spans ++ [.word ")"]))) :=
      key.spaced_spans.append (spaced_amid _ hrow.weaken)
    simp only [TableRef.spans, List.append_assoc, List.cons_append, List.nil_append]
    refine spaced_word (by decide) ?_
    show Spaced false (amid (w .innerJoin) ++ _)
    refine spaced_amid _ ?_
    show Spaced false (amid (w .on) ++ _)
    exact spaced_amid _ hkeys.weaken
  | subQuery sql values aliasName =>
    exact spaced_word (by decide) ⟨rfl, spaced_word (by decide) trivial⟩

mutual

theorem Expr.spaced_spans : ∀ e : Expr, Spaced false (e.spans w t)
  | .compare column _ _ => by
    rw [Expr.spans, List.append_assoc]
    exact column.spaced_spans.weaken.append (spaced_amid _ trivial)
  | .compareColumns left _ right => by
    rw [Expr.spans, List.append_assoc]
    exact left.spaced_spans.weaken.append (spaced_amid _ right.spaced_spans.weaken)
  | .isNull column =>
    column.spaced_spans.weaken.append (spaced_word (by decide) trivial)
  | .between column _ _ => by
    rw [Expr.spans, List.append_assoc, List.append_assoc, List.append_assoc]
    exact column.spaced_spans.weaken.append (spaced_amid _ trivial)
  | .valueBetween _ low high => by
    rw [Expr.spans, List.append_assoc, List.append_assoc, List.append_assoc]
    exact spaced_amid _
      (low.spaced_spans.weaken.append (spaced_amid _ high.spaced_spans.weaken))
  | .touches column _ => (spaced_mentions t.touches column.spaced_spans).weaken
  | .inList column values => by
    have hmarks : Spaced true (joinedSpans [.word ", "] (values.map fun _ => [.word "?"])) :=
      spaced_listed (fun _ => [.word "?"]) (fun _ => trivial) values
    rw [Expr.spans]
    split
    · trivial
    · rw [List.append_assoc, List.append_assoc]
      exact column.spaced_spans.weaken.append
        (spaced_word (by decide) (hmarks.weaken.append trivial))
  | .inSelect column query => by
    rw [Expr.spans, List.append_assoc, List.append_assoc]
    exact column.spaced_spans.weaken.append
      (spaced_word (by decide) (query.spaced_spans.append trivial))
  | .linked _ _ conditions => by
    rw [Expr.spans, List.append_assoc, List.append_assoc]
    exact spaced_amid _ (conditions.spaced_spans.append trivial)
  | .hasId column _ => by
    rw [Expr.spans, List.append_assoc]
    exact column.spaced_spans.weaken.append (spaced_amid _ trivial)
  | .hasStatus column statuses => by
    have halternatives : Spaced false (joinedSpans (amid (w .disjunction)) (statuses.map
        fun status => column.spans ++ amid (w .equal) ++ [.literal status])) := by
      refine spaced_joinedSpans (fun v hv => spaced_amid _ hv) fun part hpart => ?_
      obtain ⟨status, -, rfl⟩ := List.mem_map.mp hpart
      rw [List.append_assoc]
      exact column.spaced_spans.weaken.append (spaced_amid _ ⟨rfl, trivial⟩)
    rw [Expr.spans, List.append_assoc]
    exact halternatives.append trivial
  | .raw _ _ => ⟨rfl, trivial⟩
  | .group members => by
    rw [Expr.spans, List.append_assoc]
    exact members.spaced_spans.append trivial
  | .not members => by
    rw [Expr.spans, List.append_assoc]
    exact members.spaced_spans.append trivial

theorem Chain.spaced_spans : ∀ c : Chain, Spaced false (c.spans w t)
  | .last condition => condition.spaced_spans
  | .more condition _ rest => by
    rw [Chain.spans, List.append_assoc]
    exact condition.spaced_spans.append (spaced_amid _ rest.spaced_spans)

theorem Subselect.spaced_spans : ∀ query : Subselect, Spaced false (query.spans w t)
  | .mk columns source none => by
    rw [Subselect.spans, List.append_assoc, List.append_assoc]
    exact columns.spaced_spans.weaken.append (spaced_amid _ (source.spaced_spans w).weaken)
  | .mk columns source (some filter) => by
    rw [Subselect.spans]
    simp only [List.append_assoc]
    exact columns.spaced_spans.weaken.append (spaced_amid _
      ((source.spaced_spans w).weaken.append (spaced_amid _ filter.spaced_spans)))

end

theorem spaced_spansOfAll (conditions : List Expr) : Spaced false (spansOfAll w t conditions) := by
  refine spaced_joinedSpans (fun v hv => spaced_amid _ hv) fun part hpart => ?_
  obtain ⟨e, -, rfl⟩ := List.mem_map.mp hpart
  exact e.spaced_spans w t

theorem DerivedTable.spaced_tableSpans (table : DerivedTable) :
    Spaced true (table.tableSpans w t) := by
  obtain ⟨columns, link, items, source, filters⟩ := table
  cases link with
  | none => exact source.spaced_spans w
  | some row =>
    simp only [DerivedTable.tableSpans, List.append_assoc]
    exact (row.1.spaced_spans w).append (spaced_amid _
      ((source.spaced_spans w).weaken.append (spaced_amid _ (spaced_spansOfAll w t row.2))))

theorem DerivedTable.spaced_spans (table : DerivedTable) : Spaced false (table.spans w t) := by
  have hcolumns : Spaced true (joinedSpans [.word ", "]
      (table.columns.spans :: table.linkItems.map (SelectItem.spans w t))) := by
    refine spaced_joinedSpans_behind (spaced_word (by decide) trivial)
      (List.forall_mem_cons.mpr ⟨table.columns.spaced_spans, fun part hpart => ?_⟩)
    obtain ⟨item, -, rfl⟩ := List.mem_map.mp hpart
    exact item.spaced_spans w t
  have htables := table.spaced_tableSpans w t
  simp only [DerivedTable.spans, List.append_assoc]
  split
  · exact hcolumns.weaken.append (spaced_amid _ htables.weaken)
  · exact hcolumns.weaken.append (spaced_amid _
      (htables.weaken.append (spaced_amid _ (spaced_spansOfAll w t table.filters))))

theorem Join.spaced_spans (j : Join) : Spaced true (j.spans w t) := by
  cases j with
  | plain kind source on =>
    simp only [Join.spans, List.append_assoc]
    exact spaced_word (by decide) ((source.spaced_spans w).weaken.append
      (spaced_amid _ (spaced_spansOfAll w t on)))
  | derived table aliasName on =>
    have hon : Spaced true ([.word ") ", .word aliasName] ++
        (amid (w .on) ++ spansOfAll w t on)) :=
      spaced_word (by decide) (spaced_amid _ (spaced_spansOfAll w t on))
    simp only [Join.spans, List.append_assoc]
    exact spaced_word (by decide) ((table.spaced_spans w t).append hon)

theorem OrderTerm.spaced_spans (term : OrderTerm) : Spaced true (term.spans w) :=
  term.column.spaced_spans.append (spaced_word (by decide) trivial)

theorem spaced_spansOfItems (items : List SelectItem) : Spaced true (spansOfItems w t items) := by
  rw [spansOfItems]
  split
  · trivial
  · exact spaced_listed _ (SelectItem.spaced_spans w t) items

namespace Statement

variable (q : Statement)

theorem spaced_filterSpans : Spaced true (q.filterSpans w t) := by
  obtain ⟨items, root, joins, filter, order⟩ := q
  cases filter with
  | none => trivial
  | some chain => exact spaced_word (by decide) (chain.spaced_spans w t)

theorem spaced_orderSpans : Spaced true (q.orderSpans w) := by
  rw [orderSpans]
  split
  · trivial
  · have hterms := spaced_listed _ (OrderTerm.spaced_spans w) q.order
    exact spaced_word (by decide) hterms.weaken

theorem spaced_joins (joins : List Join) : Spaced true (joins.flatMap (Join.spans w t)) := by
  induction joins with
  | nil => trivial
  | cons j joins ih => exact (j.spaced_spans w t).append ih

/-- The spans of a statement are spaced. -/
theorem spaced_spans : Spaced false (q.spans w t) := by
  have htables : Spaced true (q.root.spans w ++ (q.joins.flatMap (Join.spans w t) ++
      (q.filterSpans w t ++ q.orderSpans w))) :=
    (q.root.spaced_spans w).append ((spaced_joins w t q.joins).append
      ((q.spaced_filterSpans w t).append (q.spaced_orderSpans w)))
  simp only [spans, List.append_assoc]
  exact (spaced_spansOfItems w t q.items).weaken.append (spaced_word (by decide) htables.weaken)

end Statement

end

end ObjectQuery.Sql
