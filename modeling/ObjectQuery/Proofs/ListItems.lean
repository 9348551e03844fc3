import ObjectQuery.Proofs.GeometryColumns

/-!
# The items of a field list

A field list is one text.  The commas outside of parentheses cut it into its items again, so the
columns that it shows can be read back from the text: the system columns, then the columns of the
type without the row identifier, and of the geometry columns all or none.  A geometry column is
read by an expression of the database, whose own commas have to stand inside of parentheses.

## Main Definitions

* `Text.splitTopLevel`, `Text.topLevelItems` — the pieces between commas outside of parentheses
* `Text.IsItem` — texts that stand as one piece between such commas
* `Catalog.Table.shownFields` — the columns that are shown unless a node lists its own
* `NodeSettings.itemText` — such a column as a field list writes it

## Main Statements

* `Text.splitTopLevel_append` — a split passes over an item
* `Text.topLevelItems_joinWith` — joined items are split into the same items
* `NodeSettings.topLevelItems_fieldList` — the items of a field list
-/

namespace ObjectQuery.Text

/-! ### Commas outside of parentheses -/

/-- What a character adds to the number of open parentheses. -/
def opens : Char → Int
  | '(' => 1
  | ')' => -1
  | _ => 0

/-- The pieces of a text between the commas that stand outside of parentheses, with a number of
parentheses open in front of the text. -/
def splitTopLevel : Int → List Char → List (List Char)
  | _, [] => [[]]
  | depth, c :: rest =>
    if c = ',' ∧ depth = 0 then [] :: splitTopLevel depth rest
    else (splitTopLevel (depth + opens c) rest).modifyHead (c :: ·)

/-- The items of a list: its pieces between commas outside of parentheses, and none if there is
nothing. -/
def topLevelItems (text : String) : List String :=
  if text = "" then [] else (splitTopLevel 0 text.toList).map String.ofList

/-- A text opens and closes parentheses from one number of open ones to another, and no comma
stands outside of them.  Within the text the number may be negative: a list is cut by the number
alone. -/
def Encloses : Int → List Char → Int → Prop
  | depth, [], final => depth = final
  | depth, c :: rest, final => (c = ',' → depth ≠ 0) ∧ Encloses (depth + opens c) rest final

instance : ∀ depth text final, Decidable (Encloses depth text final)
  | depth, [], final => inferInstanceAs (Decidable (depth = final))
  | depth, c :: rest, final =>
    have : Decidable (Encloses (depth + opens c) rest final) :=
      instDecidableEncloses (depth + opens c) rest final
    inferInstanceAs (Decidable ((c = ',' → depth ≠ 0) ∧ _))

/-- A text that stands as one item of a list: its parentheses match, and its commas are inside of
them. -/
def IsItem (text : String) : Prop := Encloses 0 text.toList 0

/-- A text without commas and parentheses. -/
def Unmarked (text : String) : Prop := ∀ c ∈ text.toList, c ≠ ',' ∧ c ≠ '(' ∧ c ≠ ')'

-- Named, since characters can be decided over as a finite type as well.
instance (text : String) : Decidable (Unmarked text) :=
  List.decidableBAll (fun c => c ≠ ',' ∧ c ≠ '(' ∧ c ≠ ')') text.toList

theorem opens_of_ne {c : Char} (h : c ≠ '(') (h' : c ≠ ')') : opens c = 0 := by
  unfold opens
  split <;> trivial

/-- Texts one behind the other. -/
theorem Encloses.append {text rest : List Char} {depth middle final : Int}
    (h : Encloses depth text middle) (hrest : Encloses middle rest final) :
    Encloses depth (text ++ rest) final := by
  induction text generalizing depth with
  | nil =>
    cases h
    exact hrest
  | cons c text ih => exact ⟨h.1, ih h.2⟩

/-- A text without commas and parentheses may stand anywhere. -/
theorem Unmarked.encloses {text : String} (h : Unmarked text) (depth : Int) :
    Encloses depth text.toList depth := by
  unfold Unmarked at h
  generalize text.toList = characters at h ⊢
  induction characters with
  | nil => rfl
  | cons c rest ih =>
    rw [List.forall_mem_cons] at h
    obtain ⟨⟨hcomma, hopen, hclose⟩, hrest⟩ := h
    refine ⟨fun hc => absurd hc hcomma, ?_⟩
    rw [opens_of_ne hopen hclose, Int.add_zero]
    exact ih hrest

theorem Unmarked.isItem {text : String} (h : Unmarked text) : IsItem text := h.encloses 0

theorem Unmarked.append {text rest : String} (h : Unmarked text) (hrest : Unmarked rest) :
    Unmarked (text ++ rest) := by
  unfold Unmarked
  rw [String.toList_append, List.forall_mem_append]
  exact ⟨h, hrest⟩

/-- Items one behind the other are one item: there is no comma between them. -/
theorem IsItem.append {text rest : String} (h : IsItem text) (hrest : IsItem rest) :
    IsItem (text ++ rest) := by
  unfold IsItem
  rw [String.toList_append]
  exact Encloses.append h hrest

/-! ### Splitting what is joined -/

/-- A split passes over a text without commas outside of parentheses: what follows is split as it
would be without the text. -/
theorem splitTopLevel_append {text : List Char} {depth final : Int}
    (h : Encloses depth text final) (rest : List Char) :
    splitTopLevel depth (text ++ rest) = (splitTopLevel final rest).modifyHead (text ++ ·) := by
  induction text generalizing depth with
  | nil =>
    cases h
    exact (congrFun List.modifyHead_id _).symm
  | cons c text ih =>
    obtain ⟨hcomma, htext⟩ := h
    rw [List.cons_append, splitTopLevel, if_neg fun hc => hcomma hc.1 hc.2, ih htext,
      List.modifyHead_modifyHead]
    rfl

/-- Texts as they stand behind commas with a blank: all but the first with the blank. -/
def afterCommas : List String → List String
  | [] => []
  | first :: rest => first :: rest.map (" " ++ ·)

/-- Items that are joined with commas are split into the same items. -/
theorem splitTopLevel_joinWith {item : String} {items : List String}
    (h : ∀ i ∈ item :: items, IsItem i) :
    splitTopLevel 0 (joinWith ", " (item :: items)).toList =
      (afterCommas (item :: items)).map String.toList := by
  induction items generalizing item with
  | nil =>
    have hsplit := splitTopLevel_append (h item List.mem_cons_self) []
    rw [List.append_nil] at hsplit
    rw [joinWith, hsplit]
    exact congrArg ([·]) (List.append_nil item.toList)
  | cons next items ih =>
    rw [List.forall_mem_cons] at h
    have hjoined : (joinWith ", " (item :: next :: items)).toList =
        item.toList ++ ',' :: ' ' :: (joinWith ", " (next :: items)).toList := by
      rw [joinWith_cons ", " item (List.cons_ne_nil next items), String.toList_append,
        String.toList_append, List.append_assoc]
      rfl
    have hblank : splitTopLevel 0 (' ' :: (joinWith ", " (next :: items)).toList) =
        (splitTopLevel 0 (joinWith ", " (next :: items)).toList).modifyHead (' ' :: ·) := rfl
    rw [hjoined, splitTopLevel_append h.1, splitTopLevel, if_pos ⟨rfl, rfl⟩, hblank, ih h.2]
    simp [afterCommas, String.toList_append]

/-- A list of items is read back from its text. -/
theorem topLevelItems_joinWith {items : List String} (h : ∀ item ∈ items, IsItem item)
    (hne : ∀ item ∈ items, item ≠ "") :
    topLevelItems (joinWith ", " items) = afterCommas items := by
  cases items with
  | nil => rfl
  | cons item items =>
    have htext := mt (joinWith_eq_empty_iff ", " hne).mp (List.cons_ne_nil item items)
    have hid : String.ofList ∘ String.toList = id := funext fun _ => String.ofList_toList
    rw [topLevelItems, if_neg htext, splitTopLevel_joinWith h, List.map_map, hid, List.map_id]

end ObjectQuery.Text

namespace ObjectQuery.Catalog.Table

/-- The columns of a table that are shown unless a node lists its own: the system columns, then
those of the type without the row identifier; geometry columns only on demand. -/
def shownFields (t : Table) (geometry : Bool) : List Field :=
  (t.repositoryFields ++ t.typeFields.filter fun f => f.name ≠ t.rowColumn).filter fun f =>
    geometry || !f.isGeometry

/-- The alias of a column under two aliases: system columns stand under the first of them. -/
def shownUnder (t : Table) (repositoryAlias aliasName column : String) : String :=
  if t.isRepositoryField column then repositoryAlias else aliasName

end ObjectQuery.Catalog.Table

namespace ObjectQuery.Query

open ObjectQuery.Sql ObjectQuery.Text

namespace NodeSettings

variable {n : NodeSettings} {t : Catalog.Table}

/-! ### The items of field lists -/

/-- A column as the field list of a node writes it under an alias: the column, read by the
database if it holds geometry, and its label. -/
def itemText (n : NodeSettings) (s : Spelling) (aliasName : String) (f : Catalog.Field) :
    String :=
  let column := aliasName ++ "." ++ s.words.quote f.name
  (if f.isGeometry then s.geometry.read column else column) ++ " " ++ s.words .label ++ " " ++
    s.words.quote (n.aliasName ++ "_" ++ f.name)

variable (hsource : n.source = some (.table t))

include hsource

/-- The scope of a field list finds the columns under their aliases. -/
theorem column_listScope (repositoryAlias aliasName column : String) :
    (n.listScope repositoryAlias aliasName).column column =
      ⟨t.shownUnder repositoryAlias aliasName column, column⟩ := by
  have hcontains : (t.repositoryFields.map (·.name)).contains column =
      t.isRepositoryField column := by
    rw [Catalog.Table.isRepositoryField, List.contains_eq_any_beq, List.any_map]
    exact congrArg (t.repositoryFields.any) (funext fun f => Bool.beq_comm)
  unfold listScope table? Catalog.Table.shownUnder
  rw [hsource]
  show (if repositoryAlias = aliasName then _ else _ : Scope).column column = _
  split
  · next hsame =>
    rw [hsame, ite_self]
    rfl
  · rw [← hcontains]
    rfl

/-- A column of the descriptor is written as its item, unless it is geometry that is not asked
for. -/
theorem render_fieldItem? (s : Spelling) (repositoryAlias aliasName : String) (geometry : Bool)
    (f : Catalog.Field) :
    (n.fieldItem? (n.listScope repositoryAlias aliasName) geometry f).map (SelectItem.render s) =
      if geometry || !f.isGeometry then
        some (n.itemText s (t.shownUnder repositoryAlias aliasName f.name) f)
      else none := by
  unfold fieldItem? geometryItem plainItem itemText
  rw [column_listScope hsource]
  cases f.isGeometry <;> cases geometry <;> rfl

/-- The field list of a table joins the items of its shown columns. -/
theorem fieldList_eq (hfields : n.fields = none) {d : Dialect} {words : Vocabulary}
    (hwords : vocabulary d = .ok words) (g : Geometry) (repositoryAlias aliasName : String)
    (geometry : Bool) :
    n.fieldList d g repositoryAlias aliasName geometry =
      .ok (joinWith ", " ((t.shownFields geometry).map fun f =>
        n.itemText ⟨words, g⟩ (t.shownUnder repositoryAlias aliasName f.name) f)) := by
  have hitems : n.items (n.listScope repositoryAlias aliasName) geometry =
      .ok (t.selectedFields.filterMap
        (n.fieldItem? (n.listScope repositoryAlias aliasName) geometry)) := by
    rw [items, hfields, requireSource, hsource]
    rfl
  have hown : t.ownFields = t.typeFields.filter fun f => f.name ≠ t.rowColumn :=
    List.filter_congr fun f _ => by rw [bne, beq_eq_decide, decide_not]
  rw [fieldList, hwords, hitems]
  refine congrArg (fun texts => Except.ok (joinWith ", " texts)) ?_
  rw [List.map_filterMap, Catalog.Table.shownFields, ← hown, ← Catalog.Table.selectedFields,
    ← List.filterMap_eq_map, List.filterMap_filter]
  exact List.filterMap_congr fun f _ =>
    render_fieldItem? hsource ⟨words, g⟩ repositoryAlias aliasName geometry f

omit hsource

/-- Without commas and parentheses in the names of a column, of its alias and of its node, its
text is one item. -/
theorem isItem_itemText {s : Spelling} {aliasName : String} {f : Catalog.Field}
    (hwords : ∀ k, Unmarked (s.words k)) (hname : Unmarked f.name) (hnode : Unmarked n.aliasName)
    (halias : Unmarked aliasName)
    (hread : ∀ column, Unmarked column → IsItem (s.geometry.read column)) :
    IsItem (n.itemText s aliasName f) := by
  have hquoted {name : String} (h : Unmarked name) : Unmarked (s.words.quote name) :=
    ((hwords .quoteOpen).append h).append (hwords .quoteClose)
  have hcolumn : Unmarked (aliasName ++ "." ++ s.words.quote f.name) :=
    (halias.append (by decide)).append (hquoted hname)
  have hlabel : Unmarked (n.aliasName ++ "_" ++ f.name) := (hnode.append (by decide)).append hname
  have hblank : IsItem " " := Unmarked.isItem (by decide)
  unfold itemText
  refine IsItem.append (IsItem.append (IsItem.append (IsItem.append ?_ hblank)
    (hwords .label).isItem) hblank) (hquoted hlabel).isItem
  split
  · exact hread _ hcolumn
  · exact hcolumn.isItem

/-- Behind the column and in front of its label there is a blank. -/
theorem itemText_ne_empty (s : Spelling) (aliasName : String) (f : Catalog.Field) :
    n.itemText s aliasName f ≠ "" := by
  intro h
  have hlength := congrArg String.length h
  simp only [itemText, String.length_append] at hlength
  have hblank : " ".length = 1 := rfl
  have hempty : "".length = 0 := rfl
  omega

/-- The field list of a table, under one alias or under two, is cut into its items by the commas
outside of parentheses, if no name and no word of the dialect has a comma or a parenthesis and the
database reads geometry by expressions that keep their commas inside of parentheses.  There is one
item for each system column and then one for each column of the type that is not the row
identifier, in the order of the descriptor, without the geometry columns unless they are asked
for; and the list is empty only if there is no such column. -/
theorem topLevelItems_fieldList (hsource : n.source = some (.table t)) (hfields : n.fields = none)
    {d : Dialect} {words : Vocabulary} (hwords : vocabulary d = .ok words)
    (hmarks : ∀ k, Unmarked (words k)) (hnames : ∀ f ∈ t.fields, Unmarked f.name)
    (hnode : Unmarked n.aliasName) (repositoryAlias aliasName : String)
    (hrepository : Unmarked repositoryAlias) (halias : Unmarked aliasName) {g : Geometry}
    (hread : ∀ column, Unmarked column → IsItem (g.read column)) (geometry : Bool) :
    ∃ list, n.fieldList d g repositoryAlias aliasName geometry = .ok list ∧
      topLevelItems list = afterCommas ((t.shownFields geometry).map fun f =>
        n.itemText ⟨words, g⟩ (t.shownUnder repositoryAlias aliasName f.name) f) ∧
      (list = "" ↔ t.shownFields geometry = []) := by
  have hshown : ∀ f ∈ t.shownFields geometry, Unmarked f.name := by
    intro f hf
    refine hnames f ?_
    rcases List.mem_append.mp (List.mem_of_mem_filter hf) with hsystem | hown
    · exact List.mem_append_left _ hsystem
    · exact List.mem_append_right _ (List.mem_of_mem_filter hown)
  have hitem : ∀ f ∈ t.shownFields geometry, IsItem
      (n.itemText ⟨words, g⟩ (t.shownUnder repositoryAlias aliasName f.name) f) := by
    intro f hf
    refine isItem_itemText hmarks (hshown f hf) hnode ?_ hread
    unfold Catalog.Table.shownUnder
    split
    · exact hrepository
    · exact halias
  refine ⟨_, fieldList_eq hsource hfields hwords g repositoryAlias aliasName geometry, ?_, ?_⟩
  · refine topLevelItems_joinWith (List.forall_mem_map.mpr hitem) (List.forall_mem_map.mpr ?_)
    exact fun f _ => itemText_ne_empty _ _ f
  · rw [joinWith_eq_empty_iff ", " (List.forall_mem_map.mpr fun f _ => itemText_ne_empty _ _ f)]
    exact List.map_eq_nil_iff

end NodeSettings

namespace Farm

/-- An expression that reads geometry with commas of its own. -/
def rounded : Geometry where
  read column := "ST_AsText(ST_ReducePrecision(" ++ column ++ ", 0.1), 6)"
  touches column := "ST_Intersects(" ++ column ++ ", ST_MakeEnvelope(?, ?, ?, ?))"

end Farm

/-- The field list of the pastures, with their places rounded: the commas of the expression cut
nothing. -/
theorem NodeSettings.topLevelItems_fieldList_farm :
    ∃ list, ({ source := some (.table Farm.pastures) } : NodeSettings).fieldList .standard
        Farm.rounded "rt0" "t0" true = .ok list ∧
      topLevelItems list =
        ["rt0.\"object_id\" AS \"t0_object_id\"", " rt0.\"pkid\" AS \"t0_pkid\"",
          " rt0.\"parent_id\" AS \"t0_parent_id\"", " rt0.\"dt_insert\" AS \"t0_dt_insert\"",
          " rt0.\"dt_delete\" AS \"t0_dt_delete\"", " rt0.\"status\" AS \"t0_status\"",
          " rt0.\"user_id\" AS \"t0_user_id\"", " t0.\"name\" AS \"t0_name\"",
          " ST_AsText(ST_ReducePrecision(t0.\"place\", 0.1), 6) AS \"t0_place\""] := by
  have hmarks : ∀ k : Keyword, Unmarked ((Dialect.standard.lookup? k.key).getD "") := by
    intro k
    cases k <;> decide
  have hread : ∀ column, Unmarked column → IsItem (Farm.rounded.read column) := by
    intro column hcolumn
    have hfront : Encloses 0 "ST_AsText(ST_ReducePrecision(".toList 2 := by decide
    have hback : Encloses 2 ", 0.1), 6)".toList 0 := by decide
    unfold IsItem Farm.rounded
    rw [String.toList_append, String.toList_append]
    exact (hfront.append (hcolumn.encloses 2)).append hback
  obtain ⟨list, hlist, hitems, -⟩ := topLevelItems_fieldList
    (n := { source := some (.table Farm.pastures) }) rfl rfl (d := .standard) rfl hmarks
    (by decide) (by decide) "rt0" "t0" (by decide) (by decide) hread true
  exact ⟨list, hlist, hitems⟩

end ObjectQuery.Query
