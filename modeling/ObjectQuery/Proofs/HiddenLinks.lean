import ObjectQuery.Proofs.Registration

/-!
# Hidden link types

Link types are looked up by name and object types, and the first one that fits is found; but
they are told apart by their identifier only.  So an accepted link type is found exactly when no
link type of the same name between the same object types was accepted before it, and an earlier
one hides it from every look-up otherwise.

## Main Statements

* `Registry.Holds.find?_linkTypes` — where the search for a link type ends
* `Registry.linkType_afterCalls` — the link type that is found in place of an accepted one
* `Registry.exists_hidden_linkType` — an accepted link type that is not found
-/

namespace ObjectQuery.Catalog

namespace Registry

/-! ### Looking up link types -/

/-- The order of the two object types does not matter. -/
theorem connects_comm (l : LinkType) (name : String) (a b : Int64) :
    l.connects name a b = l.connects name b a := by
  unfold LinkType.connects
  rw [Bool.or_comm]

/-- A link type connects its own object types. -/
theorem connects_self (l : LinkType) : l.connects l.name l.typeA l.typeB = true := by
  simp [LinkType.connects]

/-- The link type that a look-up finds is the first of its name between the object types. -/
theorem linkType_eq_ok_iff {r : Registry} {name : String} {a b : Int64} {m : LinkType} :
    r.linkType name a b = .ok m ↔ r.linkTypes.find? (·.connects name a b) = some m := by
  rw [Registry.linkType]
  cases r.linkTypes.find? (·.connects name a b) <;> simp

theorem linkType_comm {r : Registry} {name : String} {a b : Int64} {m : LinkType} :
    r.linkType name a b = .ok m ↔ r.linkType name b a = .ok m := by
  rw [linkType_eq_ok_iff, linkType_eq_ok_iff]
  simp only [connects_comm _ name a b]

section Earlier

variable {r : Registry} {tables : List Table} {before after : List LinkType} {l : LinkType}

/-- The search for a link type ends with an earlier one if one connects the same, else with the
link type itself. -/
theorem Holds.find?_linkTypes (h : r.Holds tables (before ++ l :: after)) :
    r.linkTypes.find? (·.connects l.name l.typeA l.typeB) =
      (before.find? (·.connects l.name l.typeA l.typeB)).or (some l) := by
  have hself : (l :: after).find? (·.connects l.name l.typeA l.typeB) = some l :=
    List.find?_cons_of_pos (connects_self l)
  rw [h.linkTypes_eq, List.find?_append, hself]

/-- Earlier link types have other identifiers. -/
theorem Holds.id_ne (h : r.Holds tables (before ++ l :: after)) : ∀ m ∈ before, m.id ≠ l.id := by
  have happart := h.apart.ids
  rw [List.append_cons, List.map_append] at happart
  have hfront : ((before ++ [l]).map (·.id)).Nodup := (List.nodup_append.mp happart).1
  have hbefore : (before.map (·.id)).Nodup :=
    hfront.sublist ((List.sublist_append_left _ _).map _)
  exact (nodup_map_concat_iff hbefore l).mp hfront

end Earlier

/-- For an accepted link type a look-up finds an accepted one of the same name between the same
object types, the same in both orders.  It finds the link type itself exactly when no such link
type was accepted before it; a different identifier is all that was asked of it. -/
theorem linkType_afterCalls {calls : List Registration} {before after : List LinkType}
    {l : LinkType} (h : Registration.linkTypes (accepted {} calls) = before ++ l :: after) :
    (∃ m ∈ before ++ [l], m.connects l.name l.typeA l.typeB = true ∧
      (afterCalls {} calls).toCatalog.linkType l.name l.typeA l.typeB = .ok m ∧
      (afterCalls {} calls).toCatalog.linkType l.name l.typeB l.typeA = .ok m) ∧
    ((afterCalls {} calls).toCatalog.linkType l.name l.typeA l.typeB = .ok l ↔
      ∀ m ∈ before, m.connects l.name l.typeA l.typeB = false) ∧
    ∀ m ∈ before, m.id ≠ l.id := by
  have hheld := holds_empty.afterCalls calls
  rw [List.nil_append, List.nil_append, h] at hheld
  have hsearch := hheld.find?_linkTypes
  show (∃ m ∈ before ++ [l], m.connects l.name l.typeA l.typeB = true ∧
      (afterCalls {} calls).linkType l.name l.typeA l.typeB = .ok m ∧
      (afterCalls {} calls).linkType l.name l.typeB l.typeA = .ok m) ∧
    ((afterCalls {} calls).linkType l.name l.typeA l.typeB = .ok l ↔
      ∀ m ∈ before, m.connects l.name l.typeA l.typeB = false) ∧ _
  cases hbefore : before.find? (·.connects l.name l.typeA l.typeB) with
  | none =>
    have hfound : (afterCalls {} calls).linkType l.name l.typeA l.typeB = .ok l := by
      rw [linkType_eq_ok_iff, hsearch, hbefore, Option.none_or]
    have hfirst : ∀ m ∈ before, m.connects l.name l.typeA l.typeB = false := by
      intro m hm
      exact Bool.eq_false_iff.mpr (List.find?_eq_none.mp hbefore m hm)
    refine ⟨⟨l, by simp, connects_self l, hfound, linkType_comm.mp hfound⟩, ?_, hheld.id_ne⟩
    exact ⟨fun _ => hfirst, fun _ => hfound⟩
  | some m =>
    have hm : m ∈ before := List.mem_of_find?_eq_some hbefore
    have hconnects : m.connects l.name l.typeA l.typeB = true := by
      simpa using List.find?_some hbefore
    have hfound : (afterCalls {} calls).linkType l.name l.typeA l.typeB = .ok m := by
      rw [linkType_eq_ok_iff, hsearch, hbefore, Option.some_or]
    refine ⟨⟨m, List.mem_append_left _ hm, hconnects, hfound, linkType_comm.mp hfound⟩, ?_,
      hheld.id_ne⟩
    -- Another link type is found, so that neither side holds.
    constructor
    · intro hself
      have hsame : m = l := Except.ok.inj (hfound.symm.trans hself)
      exact absurd (congrArg LinkType.id hsame) (hheld.id_ne m hm)
    · intro hfirst
      exact absurd hconnects (by rw [hfirst m hm]; exact Bool.false_ne_true)

end Registry

/-! ### Owners and keepers -/

namespace Farm

/-- The link between farmers and their animals. -/
def owns : LinkType := ⟨12, "OWNS", 1, 2⟩

/-- A later link type of the same name between the same object types. -/
def keeps : LinkType := ⟨13, "OWNS", 2, 1⟩

/-- Requests to register both. -/
def relinking : List Registration := [.linkType owns, .linkType keeps]

end Farm

namespace Registry

/-- Both link types are accepted, and the later one is not found. -/
theorem linkType_afterCalls_farm :
    Registration.linkTypes (accepted {} Farm.relinking) = [Farm.owns] ++ Farm.keeps :: [] ∧
    (∃ m ∈ [Farm.owns] ++ [Farm.keeps],
      m.connects Farm.keeps.name Farm.keeps.typeA Farm.keeps.typeB = true ∧
      (afterCalls {} Farm.relinking).toCatalog.linkType Farm.keeps.name Farm.keeps.typeA
        Farm.keeps.typeB = .ok m ∧
      (afterCalls {} Farm.relinking).toCatalog.linkType Farm.keeps.name Farm.keeps.typeB
        Farm.keeps.typeA = .ok m) ∧
    ((afterCalls {} Farm.relinking).toCatalog.linkType Farm.keeps.name Farm.keeps.typeA
        Farm.keeps.typeB = .ok Farm.keeps ↔
      ∀ m ∈ [Farm.owns],
        m.connects Farm.keeps.name Farm.keeps.typeA Farm.keeps.typeB = false) ∧
    ∀ m ∈ [Farm.owns], m.id ≠ Farm.keeps.id := by
  have haccepted : Registration.linkTypes (accepted {} Farm.relinking) =
      [Farm.owns] ++ Farm.keeps :: [] := by rfl
  exact ⟨haccepted, linkType_afterCalls haccepted⟩

/-- An accepted link type is not found under its own name and object types: another one is. -/
theorem exists_hidden_linkType :
    ∃ l ∈ Registration.linkTypes (accepted {} Farm.relinking),
      (afterCalls {} Farm.relinking).toCatalog.linkType l.name l.typeA l.typeB =
        .ok Farm.owns ∧ l.id ≠ Farm.owns.id := by
  have haccepted : Registration.linkTypes (accepted {} Farm.relinking) =
      [Farm.owns, Farm.keeps] := by rfl
  refine ⟨Farm.keeps, ?_, rfl, by decide⟩
  rw [haccepted]
  exact List.mem_cons_of_mem _ List.mem_cons_self

end Registry

end ObjectQuery.Catalog
