import ObjectQuery.Proofs.SelectedColumns

/-!
# Labels of a result

The columns of a result are labelled with the alias of their node, or of the link row that leads
to it, and their own name.  In a graph whose nodes have no given aliases the aliases are places
behind fixed letters, so a label can be read back: the digits end at the first separator, and
whatever a column is called stands behind it.  The place leads to the node as long as no two
shown nodes have the same.  Graphs that are grown number their nodes, but a caller who changes a
node may as well put a new one there, and that stands at the place it was made with.

## Main Definitions

* `Label` — what the label of a column says
* `Label.text`, `Label.ofText?` — how it is written, and reading it
* `NodeSettings.shownColumns` — the columns of its own that a node shows
* `Graph.labelled` — the shown nodes with the labels of their columns
* `Graph.labelled?` — the node and the label that a text stands for
* `Graph.PlacesApart`, `Graph.ShowsDistinct` — shown nodes differ in their places, and their
  columns in their names

## Main Statements

* `Label.ofText?_text` — a label is read back, whatever the name of the column
* `Graph.Visits.labels_of_shown` — the labels of one node
* `Graph.PlacesApart.labelled?_text` — the text of a label leads to its node
* `Graph.Grown.placesApart` — the nodes of a graph that has been grown differ in their places
* `Graph.compile_labels_nodup` — the labels of a compiled graph
* `Graph.exists_labels_not_nodup` — a label that stands for two columns
-/

namespace ObjectQuery.Sql

/-- The label of a select item. -/
def SelectItem.label : SelectItem → String
  | .column _ label => label
  | .geometry _ label => label

end ObjectQuery.Sql

namespace ObjectQuery.Query

open ObjectQuery.Sql ObjectQuery.Outcome

/-! ### Labels -/

/-- What the label of a column says: the place of its node, whether the column is one of the link
row that leads to the node, and its name. -/
structure Label where
  place : Nat
  ofLinkRow : Bool
  column : String
  deriving DecidableEq, Repr

namespace Label

/-- The letters in front of the alias of the node. -/
def lead (l : Label) : String := if l.ofLinkRow then "lnk" else ""

/-- A label as it is written. -/
def text (l : Label) : String := l.lead ++ ("t" ++ toString l.place) ++ "_" ++ l.column

/-- A place and a column, read from the text behind the letter of an alias. -/
def ofPlaced? (ofLinkRow : Bool) (text : List Char) : Option Label :=
  match text.dropWhile Char.isDigit with
  | '_' :: column =>
    some ⟨Nat.ofDigitChars 10 (text.takeWhile Char.isDigit) 0, ofLinkRow, String.ofList column⟩
  | _ => none

/-- The label that a text stands for. -/
def ofText? (text : String) : Option Label :=
  match text.toList with
  | 't' :: text => ofPlaced? false text
  | 'l' :: 'n' :: 'k' :: 't' :: text => ofPlaced? true text
  | _ => none

/-- A place ends where the separator stands, since that is no digit. -/
theorem ofPlaced?_digits (place : Nat) (ofLinkRow : Bool) (column : List Char) :
    ofPlaced? ofLinkRow (Nat.toDigits 10 place ++ '_' :: column) =
      some ⟨place, ofLinkRow, String.ofList column⟩ := by
  have hdigits : ∀ c ∈ Nat.toDigits 10 place, c.isDigit = true :=
    fun c hc => Nat.isDigit_of_mem_toDigits (by decide) (by decide) hc
  have hseparator : ('_' :: column).takeWhile Char.isDigit = [] := rfl
  have hrest : ('_' :: column).dropWhile Char.isDigit = '_' :: column := rfl
  rw [ofPlaced?, List.dropWhile_append_of_pos hdigits, List.takeWhile_append_of_pos hdigits,
    hseparator, hrest, List.append_nil]
  exact congrArg (fun number => some (Label.mk number ofLinkRow (String.ofList column)))
    Nat.ofDigitChars_ten_toDigits

/-- A label is read back, whatever the name of the column. -/
theorem ofText?_text (l : Label) : ofText? l.text = some l := by
  obtain ⟨place, ofLinkRow, column⟩ := l
  have hplace : (toString place).toList = Nat.toDigits 10 place := Nat.toList_repr
  unfold ofText?
  cases ofLinkRow with
  | false | true =>
    simp only [text, lead, String.toList_append, hplace, if_true, Bool.false_eq_true, if_false]
    simpa using ofPlaced?_digits place _ column.toList

example : ofText? "lnkt10_t1_2" = some ⟨10, true, "t1_2"⟩ := rfl

end Label

/-! ### Columns of one node -/

namespace NodeSettings

variable {n : NodeSettings}

/-- The columns of its own that a node shows: its own list, else the columns of its sub-query,
else the selected columns of its table. -/
def shownColumns (n : NodeSettings) (geometry : Bool) : List String :=
  match n.fields, n.source with
  | some fields, _ => fields
  | none, some (.subQuery q) => q.fields
  | none, some (.table t) =>
    (t.selectedFields.filter fun f => geometry || !f.isGeometry).map (·.name)
  | none, none => []

theorem label_customItem (scope : Scope) (column : String) :
    (n.customItem scope column).label = n.labelOf column := by
  unfold customItem
  cases n.table? with
  | none => rfl
  | some t =>
    show (if t.isGeometryField column then n.geometryItem scope column
      else n.plainItem scope column).label = _
    split <;> rfl

theorem label_fieldItem? (scope : Scope) (geometry : Bool) (f : Catalog.Field) :
    (n.fieldItem? scope geometry f).map SelectItem.label =
      if geometry || !f.isGeometry then some (n.labelOf f.name) else none := by
  unfold fieldItem?
  cases geometry <;> cases f.isGeometry <;> rfl

/-- The labels of the select items of a node. -/
theorem labels_items {scope : Scope} {geometry : Bool} {items : List SelectItem}
    (h : n.items scope geometry = .ok items) :
    items.map SelectItem.label = (n.shownColumns geometry).map n.labelOf := by
  rw [NodeSettings.items] at h
  unfold shownColumns
  cases hfields : n.fields with
  | some fields =>
    rw [hfields] at h
    cases h
    rw [List.map_map]
    exact List.map_congr_left fun column _ => label_customItem scope column
  | none =>
    rw [hfields] at h
    obtain ⟨source, hsource, rfl⟩ := map_eq_ok_iff.mp h
    rw [requireSource_eq_ok_iff.mp hsource]
    cases source with
    | subQuery q => simp [Function.comp_def, plainItem, SelectItem.label]
    | table t =>
      show (t.selectedFields.filterMap (n.fieldItem? scope geometry)).map SelectItem.label = _
      rw [List.map_filterMap, List.map_map, ← List.filterMap_eq_map, List.filterMap_filter]
      exact List.filterMap_congr fun f _ => label_fieldItem? scope geometry f

/-- The label of a column of a node that has no given alias. -/
theorem labelOf_eq (h : n.givenAlias = none) (column : String) :
    n.labelOf column = Label.text ⟨n.position, false, column⟩ := by
  simp [labelOf, aliasName, h, Label.text, Label.lead]

/-- The label of a column of the link row that leads to such a node. -/
theorem rowLabelOf_eq (h : n.givenAlias = none) (column : String) :
    n.rowLabelOf column = Label.text ⟨n.position, true, column⟩ := by
  simp [rowLabelOf, LinkTable.aliasTo, aliasName, h, Label.text, Label.lead,
    String.append_assoc]

end NodeSettings

/-! ### Columns of a graph -/

namespace Graph

variable (g : Graph) (mode : Mode) (id : Nat)

/-- The labels of the columns that a node shows: its own columns, then those of its link row. -/
def labelsOf : List Label :=
  (g.node? id).elim [] fun n =>
    (n.shownColumns mode.geometry).map (⟨n.position, false, ·⟩) ++
      (g.rowColumns id n.toNodeSettings).map (⟨n.position, true, ·⟩)

/-- The shown nodes with the labels of their columns, in the order of the walk. -/
def labelled : List (Nat × Label) :=
  g.shown.flatMap fun id => (g.labelsOf mode id).map (id, ·)

/-- The shown node at a place. -/
def shownAt? (place : Nat) : Option Nat :=
  g.shown.find? fun id => (g.node? id).any (·.position == place)

/-- The node and the label that a text stands for. -/
def labelled? (text : String) : Option (Nat × Label) := do
  let label ← Label.ofText? text
  let id ← g.shownAt? label.place
  return (id, label)

/-- No two shown nodes are at the same place. -/
def PlacesApart : Prop :=
  ∀ i j n m, g.node? i = some n → g.node? j = some m → g.Shown i → g.Shown j →
    n.position = m.position → i = j

/-- No shown node shows two columns of one name, neither of its own nor of the link table. -/
structure ShowsDistinct : Prop where
  own : ∀ id n, g.node? id = some n → g.Shown id → (n.shownColumns mode.geometry).Nodup
  row : ∀ table, g.linkTable = some table → table.columns.all.Nodup

variable {g mode id}

theorem labelsOf_eq {n : Node} (h : g.node? id = some n) :
    g.labelsOf mode id = (n.shownColumns mode.geometry).map (⟨n.position, false, ·⟩) ++
      (g.rowColumns id n.toNodeSettings).map (⟨n.position, true, ·⟩) := by
  rw [labelsOf, h, Option.elim_some]

theorem mem_labelled {l : Label} :
    (id, l) ∈ g.labelled mode ↔ g.Shown id ∧ l ∈ g.labelsOf mode id := by
  unfold labelled
  rw [List.mem_flatMap]
  constructor
  · rintro ⟨i, hi, hl⟩
    obtain ⟨l', hl', heq⟩ := List.mem_map.mp hl
    cases heq
    exact ⟨mem_shown.mp hi, hl'⟩
  · rintro ⟨hid, hl⟩
    exact ⟨id, mem_shown.mpr hid, List.mem_map.mpr ⟨l, hl, rfl⟩⟩

/-- The labels of a visited node that is shown. -/
theorem Visits.labels_of_shown {v : Visit} (hv : g.Visits mode id v) (h : g.Shown id)
    (hgiven : v.node.givenAlias = none) :
    (v.part g mode id).items.map SelectItem.label = (g.labelsOf mode id).map Label.text := by
  rw [hv.items_of_shown h, List.map_append, NodeSettings.labels_items hv.own, labelsOf_eq hv.node,
    List.map_append, List.map_map, List.map_map, List.map_map]
  refine congrArg₂ (· ++ ·) (List.map_congr_left fun column _ => ?_)
    (List.map_congr_left fun column _ => ?_)
  · exact NodeSettings.labelOf_eq hgiven column
  · exact NodeSettings.rowLabelOf_eq hgiven column

/-- The labels of a statement, column by column. -/
theorem labels_statement {q : Statement} (h : g.statement mode = .ok q)
    (hunnamed : g.givenAliases = []) :
    q.items.map SelectItem.label = (g.labelled mode).map (·.2.text) := by
  obtain ⟨parts, hparts, hitems⟩ := exists_shown_parts h
  rw [hitems, labelled, List.map_flatMap, List.map_flatMap]
  refine flatMap_of_forall₂ (mapM_eq_ok_iff.mp hparts) fun id hid p hp => ?_
  obtain ⟨v, hv, rfl⟩ := part_eq_ok_iff.mp hp
  have hgiven : v.node.givenAlias = none := by
    refine Option.eq_none_iff_forall_not_mem.mpr fun given hgiven => ?_
    have hmem : given ∈ g.givenAliases := mem_collect.mpr ⟨id, v.node, hv.node, hgiven⟩
    rw [hunnamed] at hmem
    exact absurd hmem List.not_mem_nil
  rw [hv.labels_of_shown (mem_shown.mp hid) hgiven, List.map_map]
  rfl

theorem shownAt?_spec {place : Nat} (h : g.shownAt? place = some id) :
    g.Shown id ∧ ∃ n, g.node? id = some n ∧ n.position = place := by
  unfold shownAt? at h
  have hat := List.find?_some h
  rw [Option.any_eq_true] at hat
  obtain ⟨n, hn, hplace⟩ := hat
  exact ⟨mem_shown.mp (List.mem_of_find?_eq_some h), n, hn, beq_iff_eq.mp hplace⟩

namespace PlacesApart

/-- The place of a shown node leads to that node. -/
theorem shownAt?_eq (h : g.PlacesApart) {n : Node} (hn : g.node? id = some n)
    (hid : g.Shown id) : g.shownAt? n.position = some id := by
  have hat : (g.node? id).any (·.position == n.position) = true := by
    rw [hn, Option.any_some, beq_self_eq_true]
  cases hfound : g.shownAt? n.position with
  | none => exact absurd hat (List.find?_eq_none.mp hfound id (mem_shown.mpr hid))
  | some i =>
    obtain ⟨hi, m, hm, hplace⟩ := shownAt?_spec hfound
    rw [h i id m n hm hn hi hid hplace]

/-- The text of a label leads to the node that shows the column. -/
theorem labelled?_text (h : g.PlacesApart) {l : Label} (hl : (id, l) ∈ g.labelled mode) :
    g.labelled? l.text = some (id, l) := by
  obtain ⟨hid, hl⟩ := mem_labelled.mp hl
  obtain ⟨n, hn⟩ : ∃ n, g.node? id = some n := hid.imp fun _ h => h.1
  have hplace : l.place = n.position := by
    rw [labelsOf_eq hn, List.mem_append, List.mem_map, List.mem_map] at hl
    rcases hl with ⟨_, -, rfl⟩ | ⟨_, -, rfl⟩ <;> rfl
  rw [labelled?, Label.ofText?_text]
  show (g.shownAt? l.place >>= _) = _
  rw [hplace, h.shownAt?_eq hn hid]
  rfl

end PlacesApart

/-- The nodes of a graph that has been grown stand at places of their own. -/
theorem Grown.placesApart (h : g.Grown) : g.PlacesApart := by
  intro i j n m hn hm _ _ hplace
  rw [← h.numbered i n hn, ← h.numbered j m hm, hplace]

namespace ShowsDistinct

theorem nodup_rowColumns (h : g.ShowsDistinct mode) (n : NodeSettings) :
    (g.rowColumns id n).Nodup := by
  unfold rowColumns
  split
  · cases htable : g.linkTable with
    | none => exact List.nodup_nil
    | some table => exact h.row table htable
  · exact List.nodup_nil

/-- No node shows a column twice: its own columns differ, those of its link row differ, and no
column is of both kinds. -/
theorem nodup_labelsOf (h : g.ShowsDistinct mode) (hid : g.Shown id) :
    (g.labelsOf mode id).Nodup := by
  obtain ⟨n, hn⟩ : ∃ n, g.node? id = some n := hid.imp fun _ h => h.1
  have hinjective : ∀ ofLinkRow, Function.Injective (Label.mk n.position ofLinkRow) :=
    fun ofLinkRow a b hab => congrArg Label.column hab
  rw [labelsOf_eq hn]
  refine List.nodup_append.mpr ⟨?_, ?_, ?_⟩
  · exact (h.own id n hn hid).map (hinjective false)
  · exact (h.nodup_rowColumns n.toNodeSettings).map (hinjective true)
  · intro own hown row hrow heq
    obtain ⟨_, -, rfl⟩ := List.mem_map.mp hown
    obtain ⟨_, -, rfl⟩ := List.mem_map.mp hrow
    cases heq

/-- No label of a node comes twice, since no node shows a column twice. -/
theorem nodup_labelled (h : g.ShowsDistinct mode) : (g.labelled mode).Nodup := by
  refine List.nodup_flatMap.mpr ⟨fun id hid => ?_, ?_⟩
  · exact (h.nodup_labelsOf (mem_shown.mp hid)).map fun a b hab => congrArg Prod.snd hab
  · refine (nodup_walk.filter _).pairwise_of_forall_ne fun i _ j _ hne l hi hj => ?_
    obtain ⟨_, -, rfl⟩ := List.mem_map.mp hi
    obtain ⟨_, -, heq⟩ := List.mem_map.mp hj
    exact hne (congrArg Prod.fst heq).symm

end ShowsDistinct

/-- The labels of the result of a graph without given aliases differ if no two shown nodes are at
the same place and none of them shows two columns of one name.  Then each label can be read back:
it names the node and the column, or the column of the link row that leads to the node, that it
stands for. -/
theorem compile_labels_nodup {f : Fragment} (h : g.compile mode = .ok f)
    (hunnamed : g.givenAliases = []) (hplaces : g.PlacesApart)
    (hdistinct : g.ShowsDistinct mode) :
    ∃ words q, vocabulary g.environment.dialect = .ok words ∧ g.statement mode = .ok q ∧
      f = q.render ⟨words, g.environment.geometry⟩ ∧
      q.items.map SelectItem.label = (g.labelled mode).map (·.2.text) ∧
      (q.items.map SelectItem.label).Nodup ∧
      (q.items.map fun item => g.labelled? item.label) = (g.labelled mode).map some := by
  obtain ⟨-, words, q, hwords, hq, hf⟩ := compile_eq_ok_iff.mp h
  have hlabels := labels_statement hq hunnamed
  have hread : (q.items.map SelectItem.label).map g.labelled? = (g.labelled mode).map some := by
    rw [hlabels, List.map_map]
    exact List.map_congr_left fun ⟨id, l⟩ hl => hplaces.labelled?_text hl
  refine ⟨words, q, hwords, hq, hf, hlabels, ?_, ?_⟩
  · -- What is read from the labels differs, so they differ themselves.
    refine List.Nodup.of_map g.labelled? ?_
    rw [hread]
    exact hdistinct.nodup_labelled.map fun _ _ => Option.some.inj
  · rw [← hread, List.map_map]
    rfl

end Graph

namespace Farm

/-- The tree asked for the places of the stalls has been grown. -/
theorem grown_places : places.Grown := by
  have hstart : (Graph.start .standard (some animal)).Grown := .start _ _
  have hcalls := hstart.afterCalls [.child 0
    { stall with returned := true, showsLinkColumns := true, fields := some ["places"] },
    .child 0 score]
  exact hcalls.settle rfl

/-- An animal that is asked for its breed. -/
def breedOnly : Node :=
  { source := some (.table animals), fields := some ["breed"], link := some .child }

/-- Two animals that are asked for their breeds. -/
def pair : Graph := (Graph.start .standard none).afterCalls [.item breedOnly, .item breedOnly]

end Farm

namespace Graph

/-- The sample tree, asked for the places of the stalls, shows these and the columns of the link
row. -/
theorem compile_labels_nodup_farm :
    ∃ f q, Farm.places.compile {} = .ok f ∧ Farm.places.statement {} = .ok q ∧
      q.items.map SelectItem.label = ["t1_places", "lnkt1_link_type_id", "lnkt1_link_obj_id_1",
        "lnkt1_link_obj_id_2", "lnkt1_status", "lnkt1_dt_insert", "lnkt1_dt_delete"] ∧
      (q.items.map SelectItem.label).Nodup ∧
      (q.items.map fun item => Farm.places.labelled? item.label) =
        [some (1, ⟨1, false, "places"⟩), some (1, ⟨1, true, "link_type_id"⟩),
          some (1, ⟨1, true, "link_obj_id_1"⟩), some (1, ⟨1, true, "link_obj_id_2"⟩),
          some (1, ⟨1, true, "status"⟩), some (1, ⟨1, true, "dt_insert"⟩),
          some (1, ⟨1, true, "dt_delete"⟩)] := by
  obtain ⟨f, hf⟩ : ∃ f, Farm.places.compile {} = .ok f := ⟨_, rfl⟩
  have hshown : Farm.places.shown = [1] := by decide
  have hdistinct : Farm.places.ShowsDistinct {} := by
    constructor
    · intro id n hn hid
      rw [← mem_shown, hshown, List.mem_singleton] at hid
      subst hid
      cases hn
      decide
    · rintro _ ⟨⟩
      decide
  obtain ⟨_, q, -, hq, -, hlabels, hnodup, hread⟩ :=
    compile_labels_nodup hf rfl Farm.grown_places.placesApart hdistinct
  have hlabelled : Farm.places.labelled {} = (Farm.places.labelsOf {} 1).map (1, ·) := by
    rw [labelled, hshown, List.flatMap_singleton]
  rw [hlabelled] at hlabels hread
  exact ⟨f, q, hf, hq, hlabels, hnodup, hread⟩

/-- A new node in the place of the second of two animals stands at the first place: both labels of
the result are the same. -/
theorem exists_labels_not_nodup :
    ∃ g, Farm.pair.modifyNode 1 (fun _ => Farm.breedOnly) = .ok g ∧ g.givenAliases = [] ∧
      g.ShowsDistinct {} ∧ ∃ f words q, g.compile {} = .ok f ∧ g.statement {} = .ok q ∧
        f = q.render ⟨words, g.environment.geometry⟩ ∧
        q.items.map SelectItem.label = ["t0_breed", "t0_breed"] ∧
        ¬ (q.items.map SelectItem.label).Nodup := by
  obtain ⟨g, hg⟩ : ∃ g, Farm.pair.modifyNode 1 (fun _ => Farm.breedOnly) = .ok g := ⟨_, rfl⟩
  refine ⟨g, hg, ?_⟩
  cases hg
  refine ⟨rfl, ⟨?_, ?_⟩, _, _, _, rfl, rfl, rfl, rfl, by decide⟩
  · -- Both nodes are the new one now.
    intro id n hn _
    match id, hn with
    | 0, rfl | 1, rfl => decide
  · rintro _ ⟨⟩

end Graph

end ObjectQuery.Query
