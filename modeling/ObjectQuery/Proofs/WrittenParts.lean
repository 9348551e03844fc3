import Mathlib.Data.List.Nodup
import ObjectQuery.Definition.Reading
import ObjectQuery.Definition.Writing
import ObjectQuery.Proofs.DateTexts

/-!
# Parts of documents that were written

What the readers of documents give for parts that were written as JSON.  A reader that takes
texts and numbers by their own types reads back what was written; only a bind value may change,
if it is a text in the form of a date-time.

## Main Definitions

* `Value.Stable` — a bind value that is read back from its JSON
* `ReadsBack` — what is written for a value is read back as that value
* `writtenEntries`, `writtenFields` — the entries and fields of a record that was written

## Main Statements

* `readsBack_value`, `stable_of_value?` — bind values, and those that are read
* `ReadsBack.optional`, `ReadsBack.list`, `readsBack_choice` — parts made of other parts
* `fields?_ofPairs`, `variant?_ofPairs` — records, and those whose fields depend on a kind
* `depth_lt_ofPairs`, `depth_add_two_le` — parts have fewer levels
-/

namespace ObjectQuery

open ObjectQuery.Number ObjectQuery.Calendar ObjectQuery.Document

/-! ### Bind values -/

/-- A bind value that keeps its type when it is written as JSON: a text that is not the text of a
date-time. -/
def Sql.Value.Stable (v : Sql.Value) : Prop :=
  ∀ text, v = .text text → DateTime.ofValue? text = none

namespace Document

open ObjectQuery.Sql

theorem int64OfInt?_toInt (i : Int64) : int64OfInt? i.toInt = some i := by
  have hlow := Int64.le_toInt i
  have hhigh := Int64.toInt_lt i
  rw [int64OfInt?, if_pos (by omega), Int64.ofInt_toInt]

/-- What is written for a value is read back as that value. -/
def ReadsBack {α : Type} (read : Document → Option α) (write : α → Json) (a : α) : Prop :=
  read (write a).toDocument = some a

/-- A stable value is read back from its JSON. -/
theorem readsBack_value {v : Value} (h : v.Stable) : ReadsBack value? Value.toJson v := by
  unfold ReadsBack
  cases v with
  | null | bool | float => rfl
  | integer i =>
    have hlow := Int64.le_toInt i
    have hhigh := Int64.toInt_lt i
    have hsettles : (Json.integer i.toInt).toDocument.settles = true := by
      simp only [Json.toDocument, settles, Bool.and_eq_true, decide_eq_true_eq]
      omega
    show (if (Json.integer i.toInt).toDocument.settles then
      some (Datum.toValue (.integer i.toInt)) else none) = _
    rw [if_pos hsettles, Datum.toValue, int64OfInt?_toInt]
  | date d =>
    show some (Datum.toValue (.text d.iso)) = _
    rw [Datum.toValue, d.ofValue?_iso]
  | text s =>
    show some (Datum.toValue (.text s)) = _
    rw [Datum.toValue, h s rfl]

/-- The value of a scalar is stable: a text in the form of a date-time has become one. -/
theorem stable_toValue (datum : Datum) : datum.toValue.Stable := by
  intro text htext
  cases datum with
  | null | bool | float => cases htext
  | integer n =>
    rw [Datum.toValue] at htext
    split at htext
    · cases htext
    · cases htext
  | text s =>
    rw [Datum.toValue] at htext
    split at htext
    · cases htext
    · next hnone =>
      cases htext
      exact hnone

/-- Only stable values are read. -/
theorem stable_of_value? {d : Document} {v : Value} (h : value? d = some v) : v.Stable := by
  unfold value? at h
  split at h
  · obtain ⟨datum, -, rfl⟩ := Option.map_eq_some_iff.mp h
    exact stable_toValue datum
  · cases h

/-- Only the null scalar is read as the null value. -/
theorem eq_null_of_toValue {datum : Datum} (h : datum.toValue = .null) : datum = .null := by
  cases datum with
  | null => rfl
  | bool | float => cases h
  | integer n =>
    rw [Datum.toValue] at h
    split at h
    · cases h
    · cases h
  | text s =>
    rw [Datum.toValue] at h
    split at h
    · cases h
    · cases h

theorem isAbsent?_eq {style : Style} (hs : style ≠ .direct) (d : Document) :
    d.isAbsent? style = some d.isAbsent := by
  cases style with
  | direct => exact absurd rfl hs
  | given | settled => rfl

/-- A value that is read as an optional part is stable, and not the null value. -/
theorem stable_of_optional? {style : Style} (hs : style ≠ .direct) {d : Document} {v : Value}
    (h : d.optional? style value? = some (some v)) : v.Stable ∧ v ≠ .null := by
  rw [optional?, isAbsent?_eq hs, Option.bind_some] at h
  split at h
  · cases h
  · next hpresent =>
    obtain ⟨w, hw, heq⟩ := Option.map_eq_some_iff.mp h
    cases heq
    refine ⟨stable_of_value? hw, ?_⟩
    -- Only a null scalar is read as null, and that would have been absent.
    rintro rfl
    unfold value? at hw
    split at hw
    · obtain ⟨datum, hdatum, hnull⟩ := Option.map_eq_some_iff.mp hw
      rw [isAbsent, hdatum, eq_null_of_toValue hnull] at hpresent
      exact hpresent rfl
    · cases hw

/-! ### Parts -/

theorem settled_ne_direct : Style.settled ≠ .direct := by decide

section Parts

variable {α : Type} {style : Style} {read : Document → Option α} {write : α → Json}

theorem readsBack_text (hs : style ≠ .direct) (s : String) : ReadsBack (text? style) .text s := by
  cases style with
  | direct => exact absurd rfl hs
  | given | settled => rfl

theorem readsBack_bool (hs : style ≠ .direct) (b : Bool) : ReadsBack (bool? style) .bool b := by
  cases style with
  | direct => exact absurd rfl hs
  | given | settled => rfl

theorem readsBack_float (hs : style ≠ .direct) (x : Float) :
    ReadsBack (float? style) .float x := by
  cases style with
  | direct => exact absurd rfl hs
  | given | settled => rfl

theorem readsBack_id (hs : style ≠ .direct) (i : Int64) :
    ReadsBack (int64? style) Definition.writeId i := by
  cases style with
  | direct => exact absurd rfl hs
  | given | settled => exact int64OfInt?_toInt i

/-- A choice is read back from its name. -/
theorem readsBack_choice (hs : style ≠ .direct) {choices : List (String × α)}
    {name : α → String} {a : α} (h : choices.lookup (name a) = some a) :
    ReadsBack (choice? style choices) (fun a => .text (name a)) a := by
  cases style with
  | direct => exact absurd rfl hs
  | given | settled => exact h

/-- An optional part is read back if the part is, and if it is not written as null. -/
theorem ReadsBack.optional (hs : style ≠ .direct) {o : Option α}
    (h : ∀ a, o = some a → ReadsBack read write a ∧ (write a).toDocument.isAbsent = false) :
    ReadsBack (optional? style read) (Json.optional write) o := by
  unfold ReadsBack optional?
  rw [isAbsent?_eq hs, Option.bind_some]
  cases o with
  | none => rfl
  | some a =>
    obtain ⟨hread, hpresent⟩ := h a rfl
    show (if (write a).toDocument.isAbsent then _ else (read (write a).toDocument).map some) = _
    rw [hpresent, hread]
    rfl

theorem readsBack_optionalText (hs : style ≠ .direct) (o : Option String) :
    ReadsBack (optional? style (text? style)) (Json.optional .text) o :=
  ReadsBack.optional hs fun s _ => ⟨readsBack_text hs s, rfl⟩

theorem readsBack_optionalId (hs : style ≠ .direct) (o : Option Int64) :
    ReadsBack (optional? style (int64? style)) (Json.optional Definition.writeId) o :=
  ReadsBack.optional hs fun id _ => ⟨readsBack_id hs id, rfl⟩

theorem toDocuments_eq_map (items : List Json) :
    Json.toDocuments items = items.map Json.toDocument := by
  induction items with
  | nil => rfl
  | cons item items ih => rw [Json.toDocuments, ih, List.map_cons]

/-- A list is read back if its items are. -/
theorem ReadsBack.list (hs : style ≠ .direct) {items : List α}
    (h : ∀ a ∈ items, ReadsBack read write a) :
    ReadsBack (list? style read) (fun items => .list (items.map write)) items := by
  have hitems : ∀ documents : List Document,
      (Document.list documents).items? style = some documents := by
    intro documents
    cases style with
    | direct => exact absurd rfl hs
    | given | settled => rfl
  unfold ReadsBack list?
  rw [Json.toDocument, hitems, Option.bind_some, toDocuments_eq_map]
  induction items with
  | nil => rfl
  | cons a items ih =>
    rw [List.forall_mem_cons] at h
    rw [List.map_cons, List.map_cons, List.mapM_cons, h.1, ih h.2]
    rfl

theorem readsBack_texts (hs : style ≠ .direct) (items : List String) :
    ReadsBack (texts? style) Json.texts items :=
  ReadsBack.list hs fun item _ => readsBack_text hs item

theorem readsBack_values (hs : style ≠ .direct) {values : List Value}
    (h : ∀ v ∈ values, v.Stable) :
    ReadsBack (list? style value?) Definition.writeValues values :=
  ReadsBack.list hs fun v hv => readsBack_value (h v hv)

end Parts

/-! ### Records -/

/-- The key of an entry that was written. -/
def writtenKey (name : String) : Document := .scalar (some (.text name)) none

/-- The entries of a record that was written. -/
def writtenEntries (pairs : List (String × Json)) : List Entry :=
  pairs.map fun p => ⟨writtenKey p.1, p.2.toDocument⟩

/-- The fields of a record that was written. -/
def writtenFields (pairs : List (String × Json)) : Fields :=
  ⟨pairs.map fun p => (p.1, p.2.toDocument)⟩

theorem toDocument_ofPairs (pairs : List (String × Json)) :
    (Json.ofPairs pairs).toDocument = .record (writtenEntries pairs) := by
  rw [Json.ofPairs, Json.toDocument]
  refine congrArg Document.record ?_
  induction pairs with
  | nil => rfl
  | cons p pairs ih =>
    rw [List.map_cons, Json.toEntries, ih]
    rfl

/-- A field has the value that was written for it. -/
theorem get?_writtenFields (pairs : List (String × Json)) (name : String) :
    (writtenFields pairs).get? name = (pairs.lookup name).map Json.toDocument := by
  unfold writtenFields Fields.get?
  induction pairs with
  | nil => rfl
  | cons p pairs ih =>
    rw [List.map_cons, List.lookup_cons, List.lookup_cons]
    cases name == p.1 with
    | true => rfl
    | false => exact ih

/-- A step that gives a value goes on with the value. -/
theorem bind_of_some {α β : Type} {x : Option α} {a : α} (h : x = some a) (f : α → Option β) :
    (x >>= f) = f a := by
  rw [h]
  rfl

section Records

variable {style : Style} {names : List String} {pairs : List (String × Json)}

/-- A key names the field that it was written for. -/
theorem keyName?_writtenKey (hs : style ≠ .direct) (name : String) :
    (writtenKey name).keyName? style names = some name := by
  cases style with
  | direct => exact absurd rfl hs
  | given | settled => rfl

/-- All fields of a record that was written are picked, if all are known and none is repeated. -/
theorem pickFields?_writtenEntries (hs : style ≠ .direct) (hknown : ∀ p ∈ pairs, p.1 ∈ names)
    (hnodup : (pairs.map (·.1)).Nodup) :
    pickFields? style names (writtenEntries pairs) = some (writtenFields pairs) := by
  induction pairs with
  | nil => rfl
  | cons p pairs ih =>
    rw [List.forall_mem_cons] at hknown
    rw [List.map_cons, List.nodup_cons] at hnodup
    have hnew : ((writtenFields pairs).get? p.1).isSome = false := by
      have hnone : pairs.lookup p.1 = none := by
        refine List.lookup_eq_none_iff.mpr fun q hq => ?_
        refine bne_iff_ne.mpr fun heq => hnodup.1 ?_
        exact List.mem_map.mpr ⟨q, hq, heq.symm⟩
      rw [get?_writtenFields, hnone]
      rfl
    show ((writtenKey p.1).keyName? style names).bind _ = _
    rw [keyName?_writtenKey hs, Option.bind_some]
    show (pickFields? style names (writtenEntries pairs)).bind _ = _
    rw [ih hknown.2 hnodup.2, Option.bind_some,
      if_pos (List.contains_iff_mem.mpr hknown.1), hnew]
    rfl

/-- The fields of a record that was written. -/
theorem fields?_ofPairs (hs : style ≠ .direct) (hknown : ∀ p ∈ pairs, p.1 ∈ names)
    (hnodup : (pairs.map (·.1)).Nodup) :
    (Json.ofPairs pairs).toDocument.fields? style names = some (writtenFields pairs) := by
  rw [toDocument_ofPairs]
  cases style with
  | direct => exact absurd rfl hs
  | given | settled => exact pickFields?_writtenEntries hs hknown hnodup

section Fields

variable {α : Type} {read : Document → Option α} {write : α → Json} {a : α} {name : String}

/-- A field that must be given is read back. -/
theorem ReadsBack.required (h : ReadsBack read write a) (hname : pairs.lookup name = some (write a)) :
    (writtenFields pairs).required? name read = some a := by
  rw [Fields.required?, get?_writtenFields, hname, Option.map_some, Option.bind_some]
  exact h

/-- A field that may be left out is read back. -/
theorem ReadsBack.withDefault (h : ReadsBack read write a)
    (hname : pairs.lookup name = some (write a)) (default : α) :
    (writtenFields pairs).withDefault? name default read = some a := by
  rw [Fields.withDefault?, get?_writtenFields, hname, Option.map_some]
  exact h

/-- A field that may be absent is read back. -/
theorem ReadsBack.optionalField {o : Option α}
    (h : ReadsBack (Document.optional? style read) (Json.optional write) o)
    (hname : pairs.lookup name = some (.optional write o)) :
    (writtenFields pairs).optional? name style read = some o :=
  h.withDefault hname none

/-- A field that is left out for none is read back. -/
theorem ReadsBack.omitted (hs : style ≠ .direct) {o : Option α}
    (h : ∀ a, o = some a → ReadsBack read write a ∧ (write a).toDocument.isAbsent = false)
    (hname : pairs.lookup name = o.map write) :
    (writtenFields pairs).optional? name style read = some o := by
  cases o with
  | none =>
    rw [Fields.optional?, Fields.withDefault?, get?_writtenFields, hname]
    rfl
  | some a => exact (ReadsBack.optional hs h).optionalField hname

end Fields

/-- Entries that were written are split where those with some names stand together. -/
theorem splitEntries_writtenEntries {named : Document → Bool}
    {before own after : List (String × Json)} (hown : ∀ p ∈ own, named (writtenKey p.1) = true)
    (hrest : ∀ p ∈ before ++ after, named (writtenKey p.1) = false) :
    splitEntries named (writtenEntries (before ++ own ++ after)) =
      (writtenEntries own, writtenEntries (before ++ after)) := by
  have hnone : ∀ pairs : List (String × Json), (∀ p ∈ pairs, named (writtenKey p.1) = false) →
      pairs.filter (fun p => named (writtenKey p.1)) = [] ∧
        pairs.filter (fun p => !named (writtenKey p.1)) = pairs := by
    intro pairs hpairs
    exact ⟨List.filter_eq_nil_iff.mpr fun p hp => by simp [hpairs p hp],
      List.filter_eq_self.mpr fun p hp => by simp [hpairs p hp]⟩
  have hall : own.filter (fun p => named (writtenKey p.1)) = own ∧
      own.filter (fun p => !named (writtenKey p.1)) = [] :=
    ⟨List.filter_eq_self.mpr hown, List.filter_eq_nil_iff.mpr fun p hp => by simp [hown p hp]⟩
  have hbefore := hnone before fun p hp => hrest p (List.mem_append_left _ hp)
  have hafter := hnone after fun p hp => hrest p (List.mem_append_right _ hp)
  have hsplit : splitEntries named (writtenEntries (before ++ own ++ after)) =
      (writtenEntries ((before ++ own ++ after).filter fun p => named (writtenKey p.1)),
        writtenEntries ((before ++ own ++ after).filter fun p => !named (writtenKey p.1))) := by
    unfold splitEntries writtenEntries
    rw [List.partition_eq_filter_filter, List.filter_map, List.filter_map]
    rfl
  rw [hsplit, List.filter_append, List.filter_append, List.filter_append, List.filter_append,
    hbefore.1, hbefore.2, hall.1, hall.2, hafter.1, hafter.2, List.nil_append, List.append_nil,
    List.append_nil]

/-- The kind of a record that was written, and its other fields. -/
theorem variant?_ofPairs (hs : style ≠ .direct) {kinds : List String} {kind : String}
    (hkind : kind ∈ kinds) (hpairs : ∀ p ∈ pairs, p.1 ≠ "kind") :
    (Json.ofPairs (("kind", .text kind) :: pairs)).toDocument.variant? style kinds =
      some (kind, (Json.ofPairs pairs).toDocument) := by
  have hsplit : splitEntries (fun key => key.text? .settled == some "kind")
      (writtenEntries ([] ++ [("kind", .text kind)] ++ pairs)) =
        ([⟨writtenKey "kind", writtenKey kind⟩], writtenEntries pairs) := by
    refine splitEntries_writtenEntries (List.forall_mem_singleton.mpr rfl) fun p hp => ?_
    simpa [writtenKey, text?, datum?] using hpairs p hp
  have hname : (writtenKey kind).kindName? style kinds = some kind := by
    rw [kindName?, keyName?_writtenKey hs, Option.filter_some,
      if_pos (List.contains_iff_mem.mpr hkind)]
  have hunsettled : ∀ settles : Bool, (style == .direct && !settles) = false := by
    intro settles
    rw [beq_false_of_ne hs, Bool.false_and]
  rw [toDocument_ofPairs, toDocument_ofPairs, variant?]
  rw [List.nil_append, List.singleton_append] at hsplit
  rw [hsplit]
  dsimp only
  rw [variant?.under, hunsettled, if_neg Bool.false_ne_true, hname]
  rfl

end Records

/-! ### What is read

Lists, optional parts and fields hold what their readers give for some part of the document. -/

section Read

variable {α : Type} {style : Style} {read : Document → Option α} {d : Document} {fields : Fields}
  {name : String}

/-- Every value of a list was read. -/
theorem exists_of_mem_list? {values : List α} (h : d.list? style read = some values) {a : α}
    (ha : a ∈ values) : ∃ item, read item = some a := by
  obtain ⟨items, -, hitems⟩ := Option.bind_eq_some_iff.mp h
  clear h
  induction items generalizing values with
  | nil =>
    cases hitems
    cases ha
  | cons item items ih =>
    rw [List.mapM_cons] at hitems
    obtain ⟨first, hfirst, hitems⟩ := Option.bind_eq_some_iff.mp hitems
    obtain ⟨rest, hrest, hitems⟩ := Option.bind_eq_some_iff.mp hitems
    cases hitems
    rcases List.mem_cons.mp ha with rfl | hmem
    · exact ⟨item, hfirst⟩
    · exact ih hmem hrest

/-- So was a part that is not absent. -/
theorem exists_of_optional? {a : α} (h : d.optional? style read = some (some a)) :
    ∃ part, read part = some a := by
  obtain ⟨absent, -, h⟩ := Option.bind_eq_some_iff.mp h
  split at h
  · cases h
  · obtain ⟨b, hb, heq⟩ := Option.map_eq_some_iff.mp h
    cases heq
    exact ⟨d, hb⟩

/-- So was a field that must be given. -/
theorem exists_of_required? {a : α} (h : fields.required? name read = some a) :
    ∃ part, read part = some a := by
  obtain ⟨part, -, hpart⟩ := Option.bind_eq_some_iff.mp h
  exact ⟨part, hpart⟩

/-- A field that may be left out was read, or has its default. -/
theorem withDefault?_cases {default a : α} (h : fields.withDefault? name default read = some a) :
    a = default ∨ ∃ part, read part = some a := by
  unfold Fields.withDefault? at h
  split at h
  · next part _ => exact Or.inr ⟨part, h⟩
  · exact Or.inl (Option.some.inj h).symm

/-- Every value of a field that holds a list was read. -/
theorem exists_of_mem_withDefault? {values : List α}
    (h : fields.withDefault? name [] (list? style read) = some values) {a : α} (ha : a ∈ values) :
    ∃ item, read item = some a := by
  rcases withDefault?_cases h with rfl | ⟨part, hpart⟩
  · cases ha
  · exact exists_of_mem_list? hpart ha

/-- An optional field is absent, or an optional part that was read. -/
theorem exists_of_optionalField {a : α} (h : fields.optional? name style read = some (some a)) :
    ∃ part : Document, part.optional? style read = some (some a) := by
  rcases withDefault?_cases h with hnone | hpart
  · cases hnone
  · exact hpart

end Read

/-! ### Levels -/

/-- An item of a list has fewer levels than the list. -/
theorem depth_lt_list {items : List Json} {item : Json} (h : item ∈ items) :
    item.toDocument.depth < (Json.list items).toDocument.depth := by
  have hle : item.toDocument.depth ≤ depthItems (Json.toDocuments items) := by
    induction items with
    | nil => cases h
    | cons first items ih =>
      rw [Json.toDocuments, depthItems]
      rcases List.mem_cons.mp h with rfl | hrest
      · exact Nat.le_max_left _ _
      · exact Nat.le_trans (ih hrest) (Nat.le_max_right _ _)
  rw [Json.toDocument, depth]
  exact Nat.lt_succ_of_le hle

/-- The levels of the entries that were written. -/
theorem depthEntries_writtenEntries_le {pairs : List (String × Json)} {bound : Nat} :
    depthEntries (writtenEntries pairs) ≤ bound ↔
      ∀ p ∈ pairs, 1 ≤ bound ∧ p.2.toDocument.depth ≤ bound := by
  induction pairs with
  | nil => simp [writtenEntries, depthEntries]
  | cons p pairs ih =>
    rw [List.forall_mem_cons, ← ih]
    show max (max 1 p.2.toDocument.depth) (depthEntries (writtenEntries pairs)) ≤ bound ↔ _
    omega

/-- The value of a field has fewer levels than the record. -/
theorem depth_lt_ofPairs {pairs : List (String × Json)} {p : String × Json} (h : p ∈ pairs) :
    p.2.toDocument.depth < (Json.ofPairs pairs).toDocument.depth := by
  rw [toDocument_ofPairs, depth]
  exact Nat.lt_succ_of_le (depthEntries_writtenEntries_le.mp (Nat.le_refl _) p h).2

/-- A record has no fewer levels than a part of its fields. -/
theorem depth_ofPairs_append_le (pairs more : List (String × Json)) :
    (Json.ofPairs pairs).toDocument.depth ≤ (Json.ofPairs (pairs ++ more)).toDocument.depth := by
  rw [toDocument_ofPairs, toDocument_ofPairs, depth, depth]
  refine Nat.succ_le_succ (depthEntries_writtenEntries_le.mpr fun p hp => ?_)
  exact depthEntries_writtenEntries_le.mp (Nat.le_refl _) p (List.mem_append_left _ hp)

/-- The items of a list in a field have two levels less than the record. -/
theorem depth_add_two_le {pairs : List (String × Json)} {name : String} {items : List Json}
    {item : Json} (hname : (name, Json.list items) ∈ pairs) (hitem : item ∈ items) :
    item.toDocument.depth + 2 ≤ (Json.ofPairs pairs).toDocument.depth := by
  have hlist : (Json.list items).toDocument.depth < (Json.ofPairs pairs).toDocument.depth :=
    depth_lt_ofPairs hname
  have hinside := depth_lt_list hitem
  omega

end Document

end ObjectQuery
