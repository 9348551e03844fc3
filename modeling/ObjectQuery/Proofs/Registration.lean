import Mathlib.Data.List.Nodup
import Mathlib.Logic.Basic
import ObjectQuery.Catalog.Registry
import ObjectQuery.Proofs.Outcome

/-!
# Registering tables and link types

A registry is filled by requests, each of which is accepted or refused.  After any run of
requests the two rows of tables are inverse to each other: every accepted table is found by its
object type and by its name, and nothing else is found.

## Main Definitions

* `Registration`, `Registry.answer`, `Registry.afterCalls` — requests, one by one and in a run
* `Registry.accepted` — the requests of a run that are accepted
* `Apart` — entries of which none is given twice
* `Registry.Holds` — the entries that the rows of a registry stand for
* `Registry.Serves` — what look-ups and requests answer for the tables of a registry

## Main Statements

* `Registry.Holds.answer`, `Registry.Holds.answer_eq_ok_iff` — one request, in the rows
* `Registry.Holds.afterCalls` — a run of requests, in the rows
* `Registry.serves_afterCalls` — what is answered behind a run, and what makes a registry
-/

namespace ObjectQuery.Catalog

open ObjectQuery.Outcome

/-! ### Requests -/

/-- A request to register a table or a link type. -/
inductive Registration
  | table (t : Table)
  | linkType (l : LinkType)

namespace Registration

/-- The table that is to be registered, if it is one. -/
def table? : Registration → Option Table
  | table t => some t
  | linkType _ => none

/-- The link type that is to be registered, if it is one. -/
def linkType? : Registration → Option LinkType
  | table _ => none
  | linkType l => some l

/-- The tables among requests. -/
def tables (calls : List Registration) : List Table := calls.filterMap table?

/-- The link types among requests. -/
def linkTypes (calls : List Registration) : List LinkType := calls.filterMap linkType?

theorem tables_cons (call : Registration) (calls : List Registration) :
    tables (call :: calls) = tables [call] ++ tables calls :=
  List.filterMap_append (l := [call])

theorem linkTypes_cons (call : Registration) (calls : List Registration) :
    linkTypes (call :: calls) = linkTypes [call] ++ linkTypes calls :=
  List.filterMap_append (l := [call])

end Registration

namespace Registry

/-- What a request does to a registry, and its answer. -/
def answer (r : Registry) : Registration → Registry × Except CatalogError Unit
  | .table t => r.enterTable t
  | .linkType l => r.enterLinkType l

/-- What a run of requests does to a registry, refused ones included. -/
def afterCalls (r : Registry) (calls : List Registration) : Registry :=
  calls.foldl (fun r call => (r.answer call).1) r

/-- The requests of a run that are accepted, in their order. -/
def accepted (r : Registry) : List Registration → List Registration
  | [] => []
  | call :: calls =>
    match (r.answer call).2 with
    | .ok _ => call :: (r.answer call).1.accepted calls
    | .error _ => (r.answer call).1.accepted calls

end Registry

/-! ### Rows of pairs -/

section Pairs

variable {α κ β : Type} {key : α → κ} {value : α → β} {items : List α}

/-- One more item keeps the keys different exactly if its key is new. -/
theorem nodup_map_concat_iff (h : (items.map key).Nodup) (a : α) :
    ((items ++ [a]).map key).Nodup ↔ ∀ b ∈ items, key b ≠ key a := by
  rw [List.map_append, List.map_singleton, List.nodup_append]
  simp [h]

variable [DecidableEq κ]

/-- A key that no item has leads to nothing. -/
theorem lookup_pairs_eq_none_iff {k : κ} :
    (items.map fun a => (key a, value a)).lookup k = none ↔ ∀ a ∈ items, key a ≠ k := by
  rw [List.lookup_eq_none_iff, List.forall_mem_map]
  refine forall₂_congr fun a _ => ?_
  rw [bne_iff_ne]
  exact ne_comm

/-- Among items with different keys, a key leads to the item that has it. -/
theorem lookup_pairs_eq_some_iff (h : (items.map key).Nodup) {k : κ} {b : β} :
    (items.map fun a => (key a, value a)).lookup k = some b ↔
      ∃ a ∈ items, key a = k ∧ value a = b := by
  induction items with
  | nil => simp
  | cons a items ih =>
    rw [List.map_cons, List.nodup_cons] at h
    rw [List.map_cons, List.lookup_cons]
    by_cases hk : k = key a
    · have hother : ∀ c ∈ items, key c ≠ k := by
        intro c hc hck
        exact h.1 (List.mem_map.mpr ⟨c, hc, hck.trans hk⟩)
      rw [beq_iff_eq.mpr hk]
      constructor
      · intro hb
        exact ⟨a, List.mem_cons_self, hk.symm, Option.some.inj hb⟩
      · rintro ⟨c, hc, hck, rfl⟩
        rcases List.mem_cons.mp hc with rfl | hc
        · rfl
        · exact absurd hck (hother c hc)
    · rw [beq_eq_false_iff_ne.mpr hk]
      show (items.map fun a => (key a, value a)).lookup k = some b ↔ _
      rw [ih h.2]
      constructor
      · rintro ⟨c, hc, hck, hb⟩
        exact ⟨c, List.mem_cons_of_mem a hc, hck, hb⟩
      · rintro ⟨c, hc, hck, hb⟩
        rcases List.mem_cons.mp hc with rfl | hc
        · exact absurd hck.symm hk
        · exact ⟨c, hc, hck, hb⟩

end Pairs

/-! ### Entries of a registry -/

/-- No object type, no name of a table and no identifier of a link type is given twice. -/
structure Apart (tables : List Table) (linkTypes : List LinkType) : Prop where
  objectTypes : (tables.map (·.objectType)).Nodup
  names : (tables.map (·.name)).Nodup
  ids : (linkTypes.map (·.id)).Nodup

/-- The first of some entries are apart if all are. -/
theorem Apart.left {tables moreTables : List Table} {linkTypes moreLinkTypes : List LinkType}
    (h : Apart (tables ++ moreTables) (linkTypes ++ moreLinkTypes)) : Apart tables linkTypes where
  objectTypes := h.objectTypes.sublist ((List.sublist_append_left _ _).map _)
  names := h.names.sublist ((List.sublist_append_left _ _).map _)
  ids := h.ids.sublist ((List.sublist_append_left _ _).map _)

namespace Registry

/-- The rows of a registry stand for entries: each table is kept under its object type, and
each object type under the name of its table, the newest first. -/
structure Holds (r : Registry) (tables : List Table) (linkTypes : List LinkType) : Prop where
  tables_eq : r.tables = tables.reverse.map fun t => (t.objectType, t)
  objectTypes_eq : r.objectTypes = tables.reverse.map fun t => (t.name, t.objectType)
  linkTypes_eq : r.linkTypes = linkTypes
  apart : Apart tables linkTypes

/-- A new registry holds nothing. -/
theorem holds_empty : Holds {} [] [] where
  tables_eq := rfl
  objectTypes_eq := rfl
  linkTypes_eq := rfl
  apart := ⟨List.nodup_nil, List.nodup_nil, List.nodup_nil⟩

namespace Holds

variable {r : Registry} {tables : List Table} {linkTypes : List LinkType}

/-! ### Look-ups -/

theorem lookup_tables_eq_some (h : r.Holds tables linkTypes) {id : Int64} {t : Table} :
    r.tables.lookup id = some t ↔ t ∈ tables ∧ t.objectType = id := by
  have hapart : (tables.reverse.map (·.objectType)).Nodup := by
    rw [List.map_reverse, List.nodup_reverse]
    exact h.apart.objectTypes
  rw [h.tables_eq, lookup_pairs_eq_some_iff hapart]
  simp

theorem lookup_tables_eq_none (h : r.Holds tables linkTypes) {id : Int64} :
    r.tables.lookup id = none ↔ ∀ t ∈ tables, t.objectType ≠ id := by
  rw [h.tables_eq, lookup_pairs_eq_none_iff]
  simp only [List.mem_reverse]

theorem lookup_objectTypes_eq_some (h : r.Holds tables linkTypes) {name : String} {id : Int64} :
    r.objectTypes.lookup name = some id ↔ ∃ t ∈ tables, t.name = name ∧ t.objectType = id := by
  have hapart : (tables.reverse.map (·.name)).Nodup := by
    rw [List.map_reverse, List.nodup_reverse]
    exact h.apart.names
  rw [h.objectTypes_eq, lookup_pairs_eq_some_iff hapart]
  simp only [List.mem_reverse]

theorem lookup_objectTypes_eq_none (h : r.Holds tables linkTypes) {name : String} :
    r.objectTypes.lookup name = none ↔ ∀ t ∈ tables, t.name ≠ name := by
  rw [h.objectTypes_eq, lookup_pairs_eq_none_iff]
  simp only [List.mem_reverse]

/-- An object type leads to the table that has it. -/
theorem table_eq_ok_iff (h : r.Holds tables linkTypes) {id : Int64} {t : Table} :
    r.table id = .ok t ↔ t ∈ tables ∧ t.objectType = id := by
  rw [← h.lookup_tables_eq_some, Registry.table]
  cases r.tables.lookup id <;> simp

theorem table_eq_error_iff (h : r.Holds tables linkTypes) {id : Int64} {e : CatalogError} :
    r.table id = .error e ↔ (∀ t ∈ tables, t.objectType ≠ id) ∧ e = .unknownObjectType id := by
  rw [← h.lookup_tables_eq_none, Registry.table]
  cases r.tables.lookup id <;> simp [eq_comm]

/-- A name leads to the table that has it. -/
theorem tableNamed_eq_ok_iff (h : r.Holds tables linkTypes) {name : String} {t : Table} :
    r.tableNamed name = .ok t ↔ t ∈ tables ∧ t.name = name := by
  rw [Registry.tableNamed]
  cases hlookup : r.objectTypes.lookup name with
  | none =>
    have hnone := h.lookup_objectTypes_eq_none.mp hlookup
    constructor
    · intro hok
      cases hok
    · rintro ⟨ht, hname⟩
      exact absurd hname (hnone t ht)
  | some id =>
    obtain ⟨s, hs, hsname, hsid⟩ := h.lookup_objectTypes_eq_some.mp hlookup
    show r.table id = .ok t ↔ _
    rw [h.table_eq_ok_iff]
    constructor
    · rintro ⟨ht, hid⟩
      obtain rfl : s = t :=
        List.inj_on_of_nodup_map h.apart.objectTypes hs ht (hsid.trans hid.symm)
      exact ⟨hs, hsname⟩
    · rintro ⟨ht, hname⟩
      obtain rfl : s = t :=
        List.inj_on_of_nodup_map h.apart.names hs ht (hsname.trans hname.symm)
      exact ⟨hs, hsid⟩

/-- A name that no table has is unknown; the object type that a name leads to never is. -/
theorem tableNamed_eq_error_iff (h : r.Holds tables linkTypes) {name : String}
    {e : CatalogError} :
    r.tableNamed name = .error e ↔ (∀ t ∈ tables, t.name ≠ name) ∧ e = .unknownTable name := by
  rw [Registry.tableNamed]
  cases hlookup : r.objectTypes.lookup name with
  | none =>
    have hnone := h.lookup_objectTypes_eq_none.mp hlookup
    constructor
    · intro herror
      cases herror
      exact ⟨hnone, rfl⟩
    · rintro ⟨-, rfl⟩
      rfl
  | some id =>
    obtain ⟨s, hs, hsname, hsid⟩ := h.lookup_objectTypes_eq_some.mp hlookup
    show r.table id = .error e ↔ _
    rw [h.table_eq_error_iff]
    constructor
    · rintro ⟨hmissing, -⟩
      exact absurd hsid (hmissing s hs)
    · rintro ⟨hmissing, -⟩
      exact absurd hsname (hmissing s hs)

/-! ### Requests -/

/-- A request is accepted exactly when the entries stay apart with it. -/
theorem answer_eq_ok_iff (h : r.Holds tables linkTypes) {call : Registration} :
    (r.answer call).2 = .ok () ↔
      Apart (tables ++ Registration.tables [call]) (linkTypes ++ Registration.linkTypes [call]) := by
  cases call with
  | table t =>
    have hnew : Apart (tables ++ [t]) (linkTypes ++ []) ↔
        (∀ s ∈ tables, s.objectType ≠ t.objectType) ∧ ∀ s ∈ tables, s.name ≠ t.name := by
      rw [← nodup_map_concat_iff h.apart.objectTypes t, ← nodup_map_concat_iff h.apart.names t]
      constructor
      · intro happart
        exact ⟨happart.objectTypes, happart.names⟩
      · rintro ⟨hobjectTypes, hnames⟩
        exact ⟨hobjectTypes, hnames, (List.append_nil linkTypes).symm ▸ h.apart.ids⟩
    show (r.enterTable t).2 = .ok () ↔ Apart (tables ++ [t]) (linkTypes ++ [])
    rw [hnew, ← h.lookup_tables_eq_none, ← h.lookup_objectTypes_eq_none, Registry.enterTable]
    cases r.tables.lookup t.objectType with
    | some s => simp
    | none => cases r.objectTypes.lookup t.name <;> simp
  | linkType l =>
    have hnew : Apart (tables ++ []) (linkTypes ++ [l]) ↔ ∀ m ∈ linkTypes, m.id ≠ l.id := by
      rw [← nodup_map_concat_iff h.apart.ids l]
      constructor
      · intro happart
        exact happart.ids
      · intro hids
        rw [List.append_nil]
        exact ⟨h.apart.objectTypes, h.apart.names, hids⟩
    show (r.enterLinkType l).2 = .ok () ↔ Apart (tables ++ []) (linkTypes ++ [l])
    rw [hnew, Registry.enterLinkType, h.linkTypes_eq]
    cases hany : linkTypes.any fun m => m.id == l.id with
    | true => simpa using hany
    | false => simpa using hany

/-- An accepted request adds its entry. -/
theorem answer (h : r.Holds tables linkTypes) {call : Registration}
    (hok : (r.answer call).2 = .ok ()) :
    (r.answer call).1.Holds (tables ++ Registration.tables [call])
      (linkTypes ++ Registration.linkTypes [call]) := by
  have happart := h.answer_eq_ok_iff.mp hok
  cases call with
  | table t =>
    change (r.enterTable t).2 = .ok () at hok
    show (r.enterTable t).1.Holds (tables ++ [t]) (linkTypes ++ [])
    unfold Registry.enterTable at hok ⊢
    split at hok
    · cases hok
    · rename_i hobjectType
      split at hok
      · cases hok
      · rename_i hname
        rw [if_neg hobjectType, if_neg hname]
        refine ⟨?_, ?_, ?_, happart⟩
        · simp [h.tables_eq]
        · simp [h.objectTypes_eq]
        · rw [List.append_nil]
          exact h.linkTypes_eq
  | linkType l =>
    change (r.enterLinkType l).2 = .ok () at hok
    show (r.enterLinkType l).1.Holds (tables ++ []) (linkTypes ++ [l])
    unfold Registry.enterLinkType at hok ⊢
    split at hok
    · cases hok
    · rename_i hid
      rw [if_neg hid]
      refine ⟨?_, ?_, ?_, happart⟩
      · rw [List.append_nil]
        exact h.tables_eq
      · rw [List.append_nil]
        exact h.objectTypes_eq
      · simp [h.linkTypes_eq]

end Holds

/-- A refused request leaves the registry as it is. -/
theorem answer_of_refused {r : Registry} {call : Registration} {e : CatalogError}
    (h : (r.answer call).2 = .error e) : (r.answer call).1 = r := by
  cases call with
  | table t =>
    change (r.enterTable t).2 = .error e at h
    show (r.enterTable t).1 = r
    unfold enterTable at h ⊢
    split at h
    · rename_i hobjectType
      rw [if_pos hobjectType]
    · rename_i hobjectType
      split at h
      · rename_i hname
        rw [if_neg hobjectType, if_pos hname]
      · cases h
  | linkType l =>
    change (r.enterLinkType l).2 = .error e at h
    show (r.enterLinkType l).1 = r
    unfold enterLinkType at h ⊢
    split at h
    · rename_i hid
      rw [if_pos hid]
    · cases h

namespace Holds

variable {r : Registry} {tables : List Table} {linkTypes : List LinkType}

/-- A run adds the entries of its accepted requests. -/
theorem afterCalls (h : r.Holds tables linkTypes) (calls : List Registration) :
    (r.afterCalls calls).Holds (tables ++ Registration.tables (r.accepted calls))
      (linkTypes ++ Registration.linkTypes (r.accepted calls)) := by
  induction calls generalizing r tables linkTypes with
  | nil =>
    rw [Registry.accepted, Registration.tables, Registration.linkTypes, List.filterMap_nil,
      List.filterMap_nil, List.append_nil, List.append_nil]
    exact h
  | cons call calls ih =>
    show ((r.answer call).1.afterCalls calls).Holds _ _
    rw [Registry.accepted]
    cases hanswer : (r.answer call).2 with
    | ok _ =>
      have hrest := ih (h.answer hanswer)
      rw [List.append_assoc, List.append_assoc] at hrest
      rw [Registration.tables_cons, Registration.linkTypes_cons]
      exact hrest
    | error e =>
      have hrest := ih (answer_of_refused hanswer ▸ h)
      rw [answer_of_refused hanswer] at hrest ⊢
      exact hrest

/-- All requests of a run are accepted exactly when the entries stay apart with theirs. -/
theorem exists_foldlM_iff (h : r.Holds tables linkTypes) (calls : List Registration) :
    (∃ r', calls.foldlM (fun r call => unlessRefused (r.answer call)) r = .ok r') ↔
      Apart (tables ++ Registration.tables calls) (linkTypes ++ Registration.linkTypes calls) := by
  induction calls generalizing r tables linkTypes with
  | nil =>
    rw [Registration.tables, Registration.linkTypes, List.filterMap_nil, List.filterMap_nil,
      List.append_nil, List.append_nil]
    exact ⟨fun _ => h.apart, fun _ => ⟨r, rfl⟩⟩
  | cons call calls ih =>
    rw [List.foldlM_cons, exists_bind_eq_ok_iff, Registration.tables_cons,
      Registration.linkTypes_cons, ← List.append_assoc, ← List.append_assoc]
    cases hanswer : (r.answer call).2 with
    | ok _ =>
      rw [← ih (h.answer hanswer)]
      have hkept : unlessRefused (r.answer call) = .ok (r.answer call).1 := by
        rw [unlessRefused, hanswer]
        rfl
      constructor
      · rintro ⟨r', hr', hrest⟩
        cases hkept.symm.trans hr'
        exact hrest
      · intro hrest
        exact ⟨_, hkept, hrest⟩
    | error e =>
      have hrefused : unlessRefused (r.answer call) = .error e := by
        rw [unlessRefused, hanswer]
        rfl
      constructor
      · rintro ⟨r', hr', -⟩
        cases hrefused.symm.trans hr'
      · intro happart
        have hok := h.answer_eq_ok_iff.mpr happart.left
        cases hanswer.symm.trans hok

end Holds

/-! ### Tables -/

/-- What a registry answers for the tables that it has accepted. -/
structure Serves (r : Registry) (tables : List Table) : Prop where
  /-- No object type was accepted twice. -/
  objectTypes_apart : (tables.map (·.objectType)).Nodup
  /-- No name was accepted twice. -/
  names_apart : (tables.map (·.name)).Nodup
  /-- An object type leads to the table that has it. -/
  table_ok : ∀ id t, r.toCatalog.table id = .ok t ↔ t ∈ tables ∧ t.objectType = id
  /-- An object type fails only as unknown, when no table has it. -/
  table_error : ∀ id e, r.toCatalog.table id = .error e ↔
    (∀ t ∈ tables, t.objectType ≠ id) ∧ e = .unknownObjectType id
  /-- A name leads to the table that has it. -/
  tableNamed_ok : ∀ name t, r.toCatalog.tableNamed name = .ok t ↔ t ∈ tables ∧ t.name = name
  /-- A name fails only as unknown, when no table has it. -/
  tableNamed_error : ∀ name e, r.toCatalog.tableNamed name = .error e ↔
    (∀ t ∈ tables, t.name ≠ name) ∧ e = .unknownTable name
  /-- A table is accepted exactly when its object type and its name are new. -/
  accepts : ∀ t, (r.answer (.table t)).2 = .ok () ↔
    ∀ s ∈ tables, s.objectType ≠ t.objectType ∧ s.name ≠ t.name
  /-- A refused request leaves the answer of every look-up as it is. -/
  refused : ∀ call e, (r.answer call).2 = .error e → (r.answer call).1.toCatalog = r.toCatalog

/-- A registry serves the tables that it holds. -/
theorem Holds.serves {r : Registry} {tables : List Table} {linkTypes : List LinkType}
    (h : r.Holds tables linkTypes) : r.Serves tables where
  objectTypes_apart := h.apart.objectTypes
  names_apart := h.apart.names
  table_ok := fun _ _ => h.table_eq_ok_iff
  table_error := fun _ _ => h.table_eq_error_iff
  tableNamed_ok := fun _ _ => h.tableNamed_eq_ok_iff
  tableNamed_error := fun _ _ => h.tableNamed_eq_error_iff
  accepts := by
    intro t
    rw [h.answer_eq_ok_iff]
    constructor
    · intro happart s hs
      exact ⟨(nodup_map_concat_iff h.apart.objectTypes t).mp happart.objectTypes s hs,
        (nodup_map_concat_iff h.apart.names t).mp happart.names s hs⟩
    · intro hnew
      refine ⟨?_, ?_, ?_⟩
      · exact (nodup_map_concat_iff h.apart.objectTypes t).mpr fun s hs => (hnew s hs).1
      · exact (nodup_map_concat_iff h.apart.names t).mpr fun s hs => (hnew s hs).2
      · exact (List.append_nil linkTypes).symm ▸ h.apart.ids
  refused := by
    intro call e hrefused
    rw [answer_of_refused hrefused]

/-- The entries of a registry are requested one after the other. -/
theorem ofEntries_eq (tables : List Table) (linkTypes : List LinkType) :
    ofEntries tables linkTypes =
      (tables.map Registration.table ++ linkTypes.map Registration.linkType).foldlM
        (fun r call => unlessRefused (r.answer call)) {} := by
  rw [List.foldlM_append, List.foldlM_map]
  simp only [List.foldlM_map]
  rfl

/-- Behind any run of requests to a new registry, refused ones included, look-ups find the
accepted tables and nothing else; and entries make a registry exactly when no object type, no
name of a table and no identifier of a link type is given twice. -/
theorem serves_afterCalls :
    (∀ calls, (afterCalls {} calls).Serves (Registration.tables (accepted {} calls))) ∧
      ∀ tables linkTypes, (∃ r, ofEntries tables linkTypes = .ok r) ↔
        (tables.map (·.objectType)).Nodup ∧ (tables.map (·.name)).Nodup ∧
          (linkTypes.map (·.id)).Nodup := by
  constructor
  · intro calls
    exact (holds_empty.afterCalls calls).serves
  · intro tables linkTypes
    have htables : Registration.tables
        (tables.map Registration.table ++ linkTypes.map Registration.linkType) = tables := by
      simp [Registration.tables, Registration.table?, List.filterMap_map, Function.comp_def]
    have hlinkTypes : Registration.linkTypes
        (tables.map Registration.table ++ linkTypes.map Registration.linkType) = linkTypes := by
      simp [Registration.linkTypes, Registration.linkType?, List.filterMap_map, Function.comp_def]
    rw [ofEntries_eq, holds_empty.exists_foldlM_iff, htables, hlinkTypes]
    exact ⟨fun h => ⟨h.objectTypes, h.names, h.ids⟩, fun ⟨h, hnames, hids⟩ => ⟨h, hnames, hids⟩⟩

end Registry

end ObjectQuery.Catalog
