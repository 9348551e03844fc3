import ObjectQuery.Proofs.Placeholders
import ObjectQuery.Sql.Rendering

/-!
# Values in place

A second way to spell statements, which writes every value where it is used and so has no
placeholders.  Filling the placeholders of a rendered statement gives the statement spelled
that way, provided that names are neutral and texts taken as they are come with their values.

## Main Definitions

* `Geometry.Balanced`, `Spelling.Balanced` — what a database has to keep to
* `Expr.Clean`, `Join.Clean`, `Statement.Clean` — neutral names and balanced texts
* `Expr.written`, `Join.written`, `Statement.written` — statements with values in place

## Main Statements

* `Expr.fills_render`, `Join.fills_render` — the parts of a statement
* `Statement.fills_render` — a rendered statement is the written one when filled
-/

namespace ObjectQuery.Sql

open ObjectQuery.Text (joinWith)

/-! ### Neutral names and balanced texts -/

/-- Reading a neutral column needs no values, and testing it against a box needs the values of
the box. -/
structure Geometry.Balanced (g : Geometry) : Prop where
  read : ∀ column, Neutral column → Inert (g.read column)
  touches : ∀ column box, Neutral column →
    Fragment.Balanced ⟨g.touches column, g.boxValues box⟩

/-- The words of a database are neutral, and its geometry expressions balanced. -/
structure Spelling.Balanced (s : Spelling) : Prop where
  words : ∀ k, Neutral (s.words k)
  geometry : s.geometry.Balanced

/-- The expressions of the simple features standard keep to it. -/
theorem Geometry.balanced_simpleFeatures (srid : Option Int32) :
    (Geometry.simpleFeatures srid).Balanced := by
  constructor
  · intro column hcolumn
    refine Neutral.inert ?_
    simp +decide [Geometry.simpleFeatures, hcolumn]
  · intro column box hcolumn
    have hfront : Neutral ("ST_Intersects(" ++ column) :=
      neutral_append.mpr ⟨by decide, hcolumn⟩
    have hbox : ∀ t : String, Even (t.toList.count '\'') → placeholderCount t = 4 →
        Fragment.Balanced (.text ("ST_Intersects(" ++ column) ++ ⟨t, box.values⟩) :=
      fun t hclosed hcount => Fragment.Balanced.append hfront.inert ⟨hclosed, hcount⟩
    cases srid with
    | none => exact hbox ", ST_MakeEnvelope(?, ?, ?, ?))" (by decide) (by decide)
    | some id =>
      have hid : Neutral (toString id.toInt) := neutral_intRepr id.toInt
      have hclose : Neutral "))" := by decide
      have hopen := hbox ", ST_MakeEnvelope(?, ?, ?, ?, " (by decide) (by decide)
      exact (hopen.append hid.inert).append hclose.inert

/-- The words of standard SQL are neutral. -/
theorem Keyword.neutral_standard (k : Keyword) : Neutral k.standard := by
  cases k <;> decide

/-- The standard dialect has each of its words under its key. -/
theorem Dialect.lookup_standard (k : Keyword) :
    Dialect.standard.lookup? k.key = some k.standard := by
  cases k <;> rfl

/-- Qualifier and name of a column are neutral. -/
structure ColumnRef.Clean (c : ColumnRef) : Prop where
  qualifier : Neutral c.qualifier
  column : Neutral c.column

/-- All names in a select without labels are neutral. -/
def Columns.Clean : Columns → Prop
  | .every aliasName => Neutral aliasName
  | .listed columns => ∀ c ∈ columns, c.Clean

/-- Column and label of a select item are neutral. -/
def SelectItem.Clean : SelectItem → Prop
  | .column source label => source.Clean ∧ Neutral label
  | .geometry source label => source.Clean ∧ Neutral label

/-- All names in a table reference are neutral, and its sub-query comes with its values. -/
def TableRef.Clean : TableRef → Prop
  | .named name aliasName => Neutral name ∧ Neutral aliasName
  | .paired repository repositoryAlias table aliasName key rowKey =>
    (Neutral repository ∧ Neutral repositoryAlias) ∧ (Neutral table ∧ Neutral aliasName) ∧
      key.Clean ∧ rowKey.Clean
  | .subQuery sql values aliasName => Fragment.Balanced ⟨sql, values⟩ ∧ Neutral aliasName

mutual

/-- All names in a condition are neutral, and texts taken as they are come with their values.
Statuses may be any texts. -/
def Expr.Clean : Expr → Prop
  | .compare column _ _ => column.Clean
  | .compareColumns left _ right => left.Clean ∧ right.Clean
  | .isNull column => column.Clean
  | .between column _ _ => column.Clean
  | .valueBetween _ low high => low.Clean ∧ high.Clean
  | .touches column _ => column.Clean
  | .inList column _ => column.Clean
  | .inSelect column query => column.Clean ∧ query.Clean
  | .linked table aliasName conditions => Neutral table ∧ Neutral aliasName ∧ conditions.Clean
  | .hasId column _ => column.Clean
  | .hasStatus column _ => column.Clean
  | .raw sql values => Fragment.Balanced ⟨sql, values⟩
  | .group members => members.Clean
  | .not members => members.Clean

/-- All conditions of a chain are clean. -/
def Chain.Clean : Chain → Prop
  | .last condition => condition.Clean
  | .more condition _ rest => condition.Clean ∧ rest.Clean

/-- All parts of a subselect are clean. -/
def Subselect.Clean : Subselect → Prop
  | .mk columns source none => columns.Clean ∧ source.Clean
  | .mk columns source (some filter) => columns.Clean ∧ source.Clean ∧ filter.Clean

end

/-- All parts of a derived table are clean. -/
structure DerivedTable.Clean (t : DerivedTable) : Prop where
  columns : t.columns.Clean
  link : ∀ row on, t.link = some (row, on) → row.Clean ∧ ∀ e ∈ on, e.Clean
  linkItems : ∀ item ∈ t.linkItems, item.Clean
  source : t.source.Clean
  filters : ∀ e ∈ t.filters, e.Clean

/-- All parts of a join are clean. -/
def Join.Clean : Join → Prop
  | .plain _ source on => source.Clean ∧ ∀ e ∈ on, e.Clean
  | .derived table aliasName on => table.Clean ∧ Neutral aliasName ∧ ∀ e ∈ on, e.Clean

/-- All parts of a statement are clean. -/
structure Statement.Clean (q : Statement) : Prop where
  items : ∀ item ∈ q.items, item.Clean
  root : q.root.Clean
  joins : ∀ j ∈ q.joins, j.Clean
  filter : ∀ chain, q.filter = some chain → chain.Clean
  order : ∀ t ∈ q.order, t.column.Clean

/-! ### Clean chains -/

theorem Chain.clean_conjunction {first : Expr} {rest : List Expr}
    (h : ∀ e ∈ first :: rest, e.Clean) : (Chain.conjunction first rest).Clean := by
  induction rest generalizing first with
  | nil => exact h first List.mem_cons_self
  | cons next rest ih =>
    rw [List.forall_mem_cons] at h
    exact ⟨h.1, ih h.2⟩

theorem Chain.clean_ofParts? {parts : List (Expr × Connective)} (h : ∀ p ∈ parts, p.1.Clean) :
    ∀ chain, Chain.ofParts? parts = some chain → chain.Clean := by
  induction parts with
  | nil =>
    intro chain hchain
    cases hchain
  | cons part rest ih =>
    rw [List.forall_mem_cons] at h
    intro chain hchain
    rw [Chain.ofParts?] at hchain
    cases hrest : Chain.ofParts? rest with
    | none =>
      rw [hrest] at hchain
      cases hchain
      exact h.1
    | some others =>
      rw [hrest] at hchain
      cases hchain
      exact ⟨h.1, ih h.2 others hrest⟩

theorem Expr.Clean.enclosed {e : Expr} (h : e.Clean) : e.enclosed.Clean := by
  unfold Expr.enclosed
  split
  · exact h
  · exact h

theorem Expr.Clean.negated {e : Expr} (h : e.Clean) : e.negated.Clean := by
  unfold Expr.negated
  split
  · exact h
  · exact h

/-! ### Statements with their values in place -/

/-- A table with its alias; the values of a sub-query stand inside its text. -/
def TableRef.written (w : Vocabulary) : TableRef → List Piece
  | .subQuery sql values aliasName =>
    characters "(" ++ Fragment.filled ⟨sql, values⟩ ++ characters (") " ++ aliasName)
  | table => characters (table.render w).sql

mutual

/-- A condition with its values in place. -/
def Expr.written (s : Spelling) : Expr → List Piece
  | .compare column comparison value =>
    characters (column.render s.words ++ " " ++ s.words comparison.keyword ++ " ") ++
      [.value value]
  | .compareColumns left comparison right =>
    characters (left.render s.words ++ " " ++ s.words comparison.keyword ++ " " ++
      right.render s.words)
  | .isNull column => characters (column.render s.words ++ " " ++ s.words .isNull)
  | .between column low high =>
    characters (column.render s.words ++ " " ++ s.words .between ++ " ") ++ [.value low] ++
      characters (" " ++ s.words .conjunction ++ " ") ++ [.value high]
  | .valueBetween value low high =>
    [.value value] ++ characters (" " ++ s.words .between ++ " " ++ low.render s.words ++ " " ++
      s.words .conjunction ++ " " ++ high.render s.words)
  | .touches column box =>
    Fragment.filled ⟨s.geometry.touches (column.render s.words), s.geometry.boxValues box⟩
  | .inList column values =>
    if values.isEmpty then characters ("1 " ++ s.words .equal ++ " 0")
    else
      characters (column.render s.words ++ " " ++ s.words .membership ++ " (") ++
        (characters ", ").intercalate (values.map fun value => [.value value]) ++
        characters ")"
  | .inSelect column query =>
    characters (column.render s.words ++ " " ++ s.words .membership ++ " (") ++
      query.written s ++ characters ")"
  | .linked table aliasName conditions =>
    characters (s.words .existence ++ " (" ++ s.words .select ++ " 1 " ++ s.words .fromTables ++
      " " ++ table ++ " " ++ aliasName ++ " " ++ s.words .whereFilter ++ " ") ++
      conditions.written s ++ characters ")"
  | .hasId column id =>
    characters (column.render s.words ++ " " ++ s.words .equal ++ " " ++ toString id.toInt)
  | .hasStatus column statuses =>
    characters ("(" ++ joinWith (" " ++ s.words .disjunction ++ " ") (statuses.map fun status =>
      column.render s.words ++ " " ++ s.words .equal ++ " " ++ literal status) ++ ")")
  | .raw sql values => Fragment.filled ⟨sql, values⟩
  | .group members => characters "(" ++ members.written s ++ characters ")"
  | .not members => characters (s.words .negation ++ " (") ++ members.written s ++ characters ")"

/-- Conditions with connectives between neighbours. -/
def Chain.written (s : Spelling) : Chain → List Piece
  | .last condition => condition.written s
  | .more condition connective rest =>
    condition.written s ++ characters (" " ++ s.words connective.keyword ++ " ") ++
      rest.written s

/-- The select behind `IN`. -/
def Subselect.written (s : Spelling) : Subselect → List Piece
  | .mk columns source none =>
    characters (s.words .select ++ " " ++ columns.render s.words ++ " " ++ s.words .fromTables ++
      " ") ++ source.written s.words
  | .mk columns source (some filter) =>
    characters (s.words .select ++ " " ++ columns.render s.words ++ " " ++ s.words .fromTables ++
      " ") ++ source.written s.words ++ characters (" " ++ s.words .whereFilter ++ " ") ++
      filter.written s

end

/-- Conditions that must all hold. -/
def writtenAll (s : Spelling) (conditions : List Expr) : List Piece :=
  (characters (" " ++ s.words .conjunction ++ " ")).intercalate
    (conditions.map (Expr.written s))

/-- The tables inside a derived table. -/
def DerivedTable.writtenTables (s : Spelling) (t : DerivedTable) : List Piece :=
  match t.link with
  | none => t.source.written s.words
  | some (link, on) =>
    link.written s.words ++ characters (" " ++ s.words .innerJoin ++ " ") ++
      t.source.written s.words ++ characters (" " ++ s.words .on ++ " ") ++ writtenAll s on

/-- The select of a derived table, without parentheses. -/
def DerivedTable.written (s : Spelling) (t : DerivedTable) : List Piece :=
  let columns := joinWith ", " (t.columns.render s.words :: t.linkItems.map (SelectItem.render s))
  let tables :=
    characters (s.words .select ++ " " ++ columns ++ " " ++ s.words .fromTables ++ " ") ++
      t.writtenTables s
  if t.filters.isEmpty then tables
  else tables ++ characters (" " ++ s.words .whereFilter ++ " ") ++ writtenAll s t.filters

/-- A join on a line of its own. -/
def Join.written (s : Spelling) : Join → List Piece
  | .plain kind source on =>
    characters ("\n" ++ s.words kind.keyword ++ " ") ++ source.written s.words ++
      characters (" " ++ s.words .on ++ " ") ++ writtenAll s on
  | .derived table aliasName on =>
    characters ("\n" ++ s.words .leftJoin ++ " (") ++ table.written s ++
      characters (") " ++ aliasName ++ " " ++ s.words .on ++ " ") ++ writtenAll s on

namespace Statement

/-- The filter of a statement on a line of its own. -/
def writtenFilter (s : Spelling) (q : Statement) : List Piece :=
  match q.filter with
  | none => []
  | some chain => characters ("\n" ++ s.words .whereFilter ++ " ") ++ chain.written s

/-- A statement with its values in place. -/
def written (s : Spelling) (q : Statement) : List Piece :=
  characters (s.words .select ++ " " ++ renderItems s q.items ++ "\n" ++ s.words .fromTables ++
    " ") ++ (q.root.written s.words :: q.joins.map (Join.written s)).flatten ++
    q.writtenFilter s ++ characters (q.renderOrder s)

end Statement

/-! ### Texts without values -/

section Texts

variable {s : Spelling}

theorem ColumnRef.Clean.neutral_render {c : ColumnRef} (h : c.Clean) (hs : s.Balanced) :
    Neutral (c.render s.words) := by
  simp [ColumnRef.render, Vocabulary.quote, hs.words, h.qualifier, h.column]

theorem Columns.Clean.neutral_render {c : Columns} (h : c.Clean) (hs : s.Balanced) :
    Neutral (c.render s.words) := by
  cases c with
  | every aliasName =>
    have hname : Neutral aliasName := h
    simp [Columns.render, hname]
  | listed columns =>
    refine neutral_joinWith (by simp) fun part hpart => ?_
    obtain ⟨column, hcolumn, rfl⟩ := List.mem_map.mp hpart
    exact (h column hcolumn).neutral_render hs

/-- A select item needs no values, and neither does reading a geometry column. -/
theorem SelectItem.Clean.inert_render {item : SelectItem} (h : item.Clean) (hs : s.Balanced) :
    Inert (item.render s) := by
  cases item with
  | column source label =>
    refine Neutral.inert ?_
    simp [SelectItem.render, Vocabulary.quote, hs.words, h.1.neutral_render hs, h.2]
  | geometry source label =>
    have hlabel : Neutral (" " ++ s.words .label ++ " " ++ s.words.quote label) := by
      simp [Vocabulary.quote, hs.words, h.2]
    have hread := inert_append (hs.geometry.read _ (h.1.neutral_render hs)) hlabel.inert
    simpa only [SelectItem.render, String.append_assoc] using hread

/-- The statuses of link rows are written as literals, so they may be any texts. -/
theorem inert_statuses (hs : s.Balanced) {column : ColumnRef} (h : column.Clean)
    (statuses : List String) :
    Inert ("(" ++ joinWith (" " ++ s.words .disjunction ++ " ") (statuses.map fun status =>
      column.render s.words ++ " " ++ s.words .equal ++ " " ++ literal status) ++ ")") := by
  have hopen : Neutral "(" := by simp
  have hclose : Neutral ")" := by simp
  have hor : Neutral (" " ++ s.words .disjunction ++ " ") := by simp [hs.words]
  refine inert_append (inert_append hopen.inert (inert_joinWith hor.inert ?_)) hclose.inert
  intro part hpart
  obtain ⟨status, -, rfl⟩ := List.mem_map.mp hpart
  refine inert_append (Neutral.inert ?_) (inert_literal status)
  simp [hs.words, h.neutral_render hs]

theorem inert_render_items (hs : s.Balanced) {items : List SelectItem}
    (h : ∀ item ∈ items, item.Clean) : ∀ part ∈ items.map (SelectItem.render s), Inert part := by
  intro part hpart
  obtain ⟨item, hitem, rfl⟩ := List.mem_map.mp hpart
  exact (h item hitem).inert_render hs

/-- A select list that needs no values, up to the first table. -/
theorem inert_selectFrom (hs : s.Balanced) {columns separator : String} (hcolumns : Inert columns)
    (hseparator : Neutral separator) :
    Inert (s.words .select ++ " " ++ columns ++ separator ++ s.words .fromTables ++ " ") := by
  have hfront : Neutral (s.words .select ++ " ") := by simp [hs.words]
  have hback : Neutral (separator ++ s.words .fromTables ++ " ") := by
    simp [hs.words, hseparator]
  have hall := inert_append (inert_append hfront.inert hcolumns) hback.inert
  simpa only [String.append_assoc] using hall

end Texts

/-! ### Rendering fills to writing -/

section Fills

open Fragment (Fills)

variable {s : Spelling}

/-- A neutral text is filled with nothing. -/
theorem fills_text {t : String} (h : Neutral t) : (Fragment.text t).Fills (characters t) :=
  Fills.text h.inert

theorem TableRef.fills_render (hs : s.Balanced) {t : TableRef} (h : t.Clean) :
    (t.render s.words).Fills (t.written s.words) := by
  cases t with
  | named name aliasName =>
    refine fills_text ?_
    simp [h.1, h.2]
  | paired repository repositoryAlias table aliasName key rowKey =>
    obtain ⟨⟨hrepository, hrepositoryAlias⟩, ⟨htable, haliasName⟩, hkey, hrowKey⟩ := h
    refine fills_text ?_
    simp [hs.words, hrepository, hrepositoryAlias, htable, haliasName,
      hkey.neutral_render hs, hrowKey.neutral_render hs]
  | subQuery sql values aliasName =>
    refine ((fills_text (by simp)).append (Fills.raw h.1)).append (fills_text ?_)
    simp [h.2]

/-- Each member of a list of values has its own placeholder. -/
theorem fills_values (values : List Value) :
    (Fragment.join ", " (values.map Fragment.placeholder)).Fills
      ((characters ", ").intercalate (values.map fun value => [.value value])) := by
  refine Fills.join (Neutral.inert (by simp)) ?_
  rw [List.forall₂_map_left_iff, List.forall₂_map_right_iff]
  exact List.forall₂_same.mpr fun value _ => Fills.placeholder value

mutual

/-- A condition is filled in place.  By recursion on the condition. -/
theorem Expr.fills_render (hs : s.Balanced) :
    ∀ e : Expr, e.Clean → (e.render s).Fills (e.written s)
  | .compare column comparison value, h => by
    refine (fills_text ?_).append (Fills.placeholder value)
    simp [hs.words, ColumnRef.Clean.neutral_render h hs]
  | .compareColumns left comparison right, h => by
    refine fills_text ?_
    simp [hs.words, h.1.neutral_render hs, h.2.neutral_render hs]
  | .isNull column, h => by
    refine fills_text ?_
    simp [hs.words, ColumnRef.Clean.neutral_render h hs]
  | .between column low high, h => by
    refine (((fills_text ?_).append (Fills.placeholder low)).append (fills_text ?_)).append
      (Fills.placeholder high)
    · simp [hs.words, ColumnRef.Clean.neutral_render h hs]
    · simp [hs.words]
  | .valueBetween value low high, h => by
    refine (Fills.placeholder value).append (fills_text ?_)
    simp [hs.words, h.1.neutral_render hs, h.2.neutral_render hs]
  | .touches column box, h =>
    Fills.raw (hs.geometry.touches _ box (ColumnRef.Clean.neutral_render h hs))
  | .inList column values, h => by
    unfold Expr.render Expr.written
    cases values with
    | nil =>
      refine fills_text ?_
      simp [hs.words]
    | cons value values =>
      refine ((fills_text ?_).append (fills_values _)).append (fills_text (by simp))
      simp [hs.words, ColumnRef.Clean.neutral_render h hs]
  | .inSelect column query, h => by
    refine ((fills_text ?_).append (Subselect.fills_render hs query h.2)).append
      (fills_text (by simp))
    simp [hs.words, h.1.neutral_render hs]
  | .linked table aliasName conditions, h => by
    refine ((fills_text ?_).append (Chain.fills_render hs conditions h.2.2)).append
      (fills_text (by simp))
    simp [hs.words, h.1, h.2.1]
  | .hasId column id, h => by
    refine fills_text ?_
    simp [hs.words, ColumnRef.Clean.neutral_render h hs, neutral_intRepr]
  | .hasStatus column statuses, h => Fills.text (inert_statuses hs h statuses)
  | .raw sql values, h => Fills.raw h
  | .group members, h =>
    ((fills_text (by simp)).append (Chain.fills_render hs members h)).append
      (fills_text (by simp))
  | .not members, h => by
    refine ((fills_text ?_).append (Chain.fills_render hs members h)).append
      (fills_text (by simp))
    simp [hs.words]

theorem Chain.fills_render (hs : s.Balanced) :
    ∀ c : Chain, c.Clean → (c.render s).Fills (c.written s)
  | .last condition, h => Expr.fills_render hs condition h
  | .more condition connective rest, h => by
    refine ((Expr.fills_render hs condition h.1).append (fills_text ?_)).append
      (Chain.fills_render hs rest h.2)
    simp [hs.words]

theorem Subselect.fills_render (hs : s.Balanced) :
    ∀ q : Subselect, q.Clean → (q.render s).Fills (q.written s)
  | .mk columns source none, h => by
    refine (fills_text ?_).append (TableRef.fills_render hs h.2)
    simp [hs.words, h.1.neutral_render hs]
  | .mk columns source (some filter), h => by
    refine (((fills_text ?_).append (TableRef.fills_render hs h.2.1)).append
      (fills_text ?_)).append (Expr.fills_render hs filter h.2.2)
    · simp [hs.words, h.1.neutral_render hs]
    · simp [hs.words]

end

theorem fills_renderAll (hs : s.Balanced) {conditions : List Expr}
    (h : ∀ e ∈ conditions, e.Clean) : (renderAll s conditions).Fills (writtenAll s conditions) := by
  refine Fills.join (Neutral.inert ?_) ?_
  · simp [hs.words]
  · rw [List.forall₂_map_left_iff, List.forall₂_map_right_iff]
    exact List.forall₂_same.mpr fun e he => Expr.fills_render hs e (h e he)

theorem DerivedTable.fills_renderTables (hs : s.Balanced) {t : DerivedTable} (h : t.Clean) :
    (t.renderTables s).Fills (t.writtenTables s) := by
  unfold DerivedTable.renderTables DerivedTable.writtenTables
  cases hlink : t.link with
  | none => exact TableRef.fills_render hs h.source
  | some link =>
    obtain ⟨hrow, hon⟩ := h.link link.1 link.2 hlink
    refine ((((TableRef.fills_render hs hrow).append (fills_text ?_)).append
      (TableRef.fills_render hs h.source)).append (fills_text ?_)).append (fills_renderAll hs hon)
    · simp [hs.words]
    · simp [hs.words]

theorem DerivedTable.fills_render (hs : s.Balanced) {t : DerivedTable} (h : t.Clean) :
    (t.render s).Fills (t.written s) := by
  have hcolumns : Inert (joinWith ", " (t.columns.render s.words ::
      t.linkItems.map (SelectItem.render s))) := by
    refine inert_joinWith (Neutral.inert (by simp)) (List.forall_mem_cons.mpr ⟨?_, ?_⟩)
    · exact (h.columns.neutral_render hs).inert
    · exact inert_render_items hs h.linkItems
  have htables := (Fills.text (inert_selectFrom hs hcolumns (by simp : Neutral " "))).append
    (DerivedTable.fills_renderTables hs h)
  unfold DerivedTable.render DerivedTable.written
  cases hfilters : t.filters with
  | nil => exact htables
  | cons filter filters =>
    refine (htables.append (fills_text ?_)).append (fills_renderAll hs ?_)
    · simp [hs.words]
    · exact hfilters ▸ h.filters

theorem Join.fills_render (hs : s.Balanced) {j : Join} (h : j.Clean) :
    (j.render s).Fills (j.written s) := by
  cases j with
  | plain kind source on =>
    refine (((fills_text ?_).append (TableRef.fills_render hs h.1)).append
      (fills_text ?_)).append (fills_renderAll hs h.2)
    · simp [hs.words]
    · simp [hs.words]
  | derived table aliasName on =>
    refine (((fills_text ?_).append (DerivedTable.fills_render hs h.1)).append
      (fills_text ?_)).append (fills_renderAll hs h.2.2)
    · simp [hs.words]
    · simp [hs.words, h.2.1]

namespace Statement

variable {q : Statement}

theorem fills_renderFilter (hs : s.Balanced) (h : q.Clean) :
    (q.renderFilter s).Fills (q.writtenFilter s) := by
  unfold renderFilter writtenFilter
  cases hfilter : q.filter with
  | none => exact Fills.empty
  | some chain =>
    refine (fills_text ?_).append (Chain.fills_render hs chain (h.filter chain hfilter))
    simp [hs.words]

theorem neutral_renderOrder (hs : s.Balanced) (h : q.Clean) : Neutral (q.renderOrder s) := by
  have hterms : Neutral (joinWith ", " (q.order.map (OrderTerm.render s.words))) := by
    refine neutral_joinWith (by simp) fun part hpart => ?_
    obtain ⟨t, ht, rfl⟩ := List.mem_map.mp hpart
    simp [OrderTerm.render, hs.words, (h.order t ht).neutral_render hs]
  unfold renderOrder
  split
  · simp
  · simp [hs.words, hterms]

theorem inert_renderItems (hs : s.Balanced) (h : q.Clean) : Inert (renderItems s q.items) := by
  unfold renderItems
  split
  · exact Neutral.inert (by simp)
  · exact inert_joinWith (Neutral.inert (by simp)) (inert_render_items hs h.items)

theorem fills_renderTables (hs : s.Balanced) (h : q.Clean) :
    (q.renderTables s).Fills
      (q.root.written s.words :: q.joins.map (Join.written s)).flatten := by
  refine Fills.join_empty (List.Forall₂.cons (TableRef.fills_render hs h.root) ?_)
  rw [List.forall₂_map_left_iff, List.forall₂_map_right_iff]
  exact List.forall₂_same.mpr fun j hj => Join.fills_render hs (h.joins j hj)

/-- A rendered statement has its literals closed and one value for each placeholder, and when
filled it is the written statement. -/
theorem fills_render (hs : s.Balanced) (h : q.Clean) : (q.render s).Fills (q.written s) := by
  have hselect := inert_selectFrom hs (inert_renderItems hs h) (by simp : Neutral "\n")
  exact (((Fills.text hselect).append (fills_renderTables hs h)).append
    (fills_renderFilter hs h)).append (fills_text (neutral_renderOrder hs h))

end Statement

end Fills

end ObjectQuery.Sql
