import ObjectQuery.Proofs.WrittenParts

/-!
# Stable definitions

A definition is stable if its bind values are: no text of it is the text of a date-time, and no
comparison is with the null value.  Whatever is read is stable, because a text in the form of a
date-time is read as a date-time and a null value as none.

## Main Definitions

* `ConditionDefinition.Stable`, `CriterionDefinition.Stable`, `NodeDefinition.Stable`,
  `QueryDefinition.Stable` — definitions with stable bind values

## Main Statements

* `stable_of_readLeaf` — conditions that hold no other one
* `ReadsStable.readNode_succ`, `ReadsStable.readCriterion_succ`,
  `ReadsStable.readCondition_succ` — one level of reading
* `QueryDefinition.stable_of_ofDocument?` — whatever is read is stable
-/

namespace ObjectQuery.Definition

open ObjectQuery.Sql ObjectQuery.Query ObjectQuery.Document

/-! ### Stable definitions -/

mutual

/-- A condition whose bind values are stable.  A comparison with the null value is not: a value
that is null is no value. -/
inductive ConditionDefinition.Stable : ConditionDefinition → Prop
  | compare {field : String} {comparison : Comparison} {value : Option Value}
      {other : Option String} (h : ∀ v, value = some v → v.Stable ∧ v ≠ .null) :
      (ConditionDefinition.compare field comparison value other).Stable
  | isNull {field : String} : (ConditionDefinition.isNull field).Stable
  | between {field : String} {low high : Value} (hlow : low.Stable) (hhigh : high.Stable) :
      (ConditionDefinition.between field low high).Stable
  | valueBetween {value : Value} {low high : String} (h : value.Stable) :
      (ConditionDefinition.valueBetween value low high).Stable
  | touches {field : String} {box : BoundingBox} : (ConditionDefinition.touches field box).Stable
  | inList {field : String} {values : List Value} (h : ∀ v ∈ values, v.Stable) :
      (ConditionDefinition.inList field values).Stable
  | inSubquery {field : String} {query : NodeDefinition} (h : query.Stable) :
      (ConditionDefinition.inSubquery field query).Stable
  | linked {near : LinkEnd} {linkType : Int64} {related : List Int64} :
      (ConditionDefinition.linked near linkType related).Stable
  | freeText {sql : String} {values : List Value} (h : ∀ v ∈ values, v.Stable) :
      (ConditionDefinition.freeText sql values).Stable
  | all {members : List CriterionDefinition} (h : ∀ c ∈ members, c.Stable) :
      (ConditionDefinition.all members).Stable
  | any {members : List CriterionDefinition} (h : ∀ c ∈ members, c.Stable) :
      (ConditionDefinition.any members).Stable
  | group {members : List CriterionDefinition} (h : ∀ c ∈ members, c.Stable) :
      (ConditionDefinition.group members).Stable

/-- A criterion whose bind values are stable. -/
inductive CriterionDefinition.Stable : CriterionDefinition → Prop
  | mk {condition : ConditionDefinition} {negated : Bool} {connective : Connective}
      (h : condition.Stable) : (CriterionDefinition.mk condition negated connective).Stable

/-- A node whose bind values are stable. -/
inductive NodeDefinition.Stable : NodeDefinition → Prop
  | mk {source : NodeSource} {criteria : List CriterionDefinition}
      {children : List NodeDefinition}
      (hvalues : ∀ q, source.subQuery = some q → ∀ v ∈ q.values, v.Stable)
      (hcriteria : ∀ c ∈ criteria, c.Stable) (hchildren : ∀ n ∈ children, n.Stable) :
      (NodeDefinition.mk source criteria children).Stable

end

/-- A query whose bind values are stable. -/
structure QueryDefinition.Stable (q : QueryDefinition) : Prop where
  nodes : ∀ n ∈ q.nodes, n.Stable
  root : ∀ n, q.root = some n → n.Stable

/-! ### Conditions that hold no other one -/

theorem stable_of_readSubQuery {style : Style} {d : Document} {q : SubQuery}
    (h : readSubQuery style d = some q) : ∀ v ∈ q.values, v.Stable := by
  unfold readSubQuery at h
  obtain ⟨fields, -, h⟩ := Option.bind_eq_some_iff.mp h
  obtain ⟨sql, -, h⟩ := Option.bind_eq_some_iff.mp h
  obtain ⟨columns, -, h⟩ := Option.bind_eq_some_iff.mp h
  obtain ⟨values, hvalues, h⟩ := Option.bind_eq_some_iff.mp h
  cases h
  intro v hv
  obtain ⟨item, hitem⟩ := exists_of_mem_withDefault? hvalues hv
  exact stable_of_value? hitem

theorem stable_of_readLinked {near : LinkEnd} {content : Document} {c : ConditionDefinition}
    (h : readLinked near content = some c) : c.Stable := by
  unfold readLinked at h
  obtain ⟨fields, -, h⟩ := Option.bind_eq_some_iff.mp h
  obtain ⟨linkType, -, h⟩ := Option.bind_eq_some_iff.mp h
  obtain ⟨related, -, h⟩ := Option.bind_eq_some_iff.mp h
  cases h
  exact .linked

/-- A condition that holds no other one is read with stable values. -/
theorem stable_of_readLeaf {kind : String} {content : Document} {c : ConditionDefinition}
    (h : readLeaf kind content = some c) : c.Stable := by
  unfold readLeaf at h
  split at h
  · obtain ⟨fields, -, h⟩ := Option.bind_eq_some_iff.mp h
    obtain ⟨field, -, h⟩ := Option.bind_eq_some_iff.mp h
    obtain ⟨comparison, -, h⟩ := Option.bind_eq_some_iff.mp h
    obtain ⟨value, hvalue, h⟩ := Option.bind_eq_some_iff.mp h
    obtain ⟨other, -, h⟩ := Option.bind_eq_some_iff.mp h
    cases h
    refine .compare fun v hv => ?_
    rw [hv] at hvalue
    obtain ⟨part, hpart⟩ := exists_of_optionalField hvalue
    exact stable_of_optional? (by decide) hpart
  · obtain ⟨fields, -, h⟩ := Option.bind_eq_some_iff.mp h
    obtain ⟨field, -, h⟩ := Option.bind_eq_some_iff.mp h
    cases h
    exact .isNull
  · obtain ⟨fields, -, h⟩ := Option.bind_eq_some_iff.mp h
    obtain ⟨field, -, h⟩ := Option.bind_eq_some_iff.mp h
    obtain ⟨low, hlow, h⟩ := Option.bind_eq_some_iff.mp h
    obtain ⟨high, hhigh, h⟩ := Option.bind_eq_some_iff.mp h
    cases h
    obtain ⟨lowPart, hlow⟩ := exists_of_required? hlow
    obtain ⟨highPart, hhigh⟩ := exists_of_required? hhigh
    exact .between (stable_of_value? hlow) (stable_of_value? hhigh)
  · obtain ⟨fields, -, h⟩ := Option.bind_eq_some_iff.mp h
    obtain ⟨value, hvalue, h⟩ := Option.bind_eq_some_iff.mp h
    obtain ⟨low, -, h⟩ := Option.bind_eq_some_iff.mp h
    obtain ⟨high, -, h⟩ := Option.bind_eq_some_iff.mp h
    cases h
    obtain ⟨part, hpart⟩ := exists_of_required? hvalue
    exact .valueBetween (stable_of_value? hpart)
  · obtain ⟨fields, -, h⟩ := Option.bind_eq_some_iff.mp h
    obtain ⟨field, -, h⟩ := Option.bind_eq_some_iff.mp h
    obtain ⟨box, -, h⟩ := Option.bind_eq_some_iff.mp h
    cases h
    exact .touches
  · obtain ⟨fields, -, h⟩ := Option.bind_eq_some_iff.mp h
    obtain ⟨field, -, h⟩ := Option.bind_eq_some_iff.mp h
    obtain ⟨values, hvalues, h⟩ := Option.bind_eq_some_iff.mp h
    cases h
    obtain ⟨part, hpart⟩ := exists_of_required? hvalues
    refine .inList fun v hv => ?_
    obtain ⟨item, hitem⟩ := exists_of_mem_list? hpart hv
    exact stable_of_value? hitem
  · exact stable_of_readLinked h
  · exact stable_of_readLinked h
  · obtain ⟨fields, -, h⟩ := Option.bind_eq_some_iff.mp h
    obtain ⟨sql, -, h⟩ := Option.bind_eq_some_iff.mp h
    obtain ⟨values, hvalues, h⟩ := Option.bind_eq_some_iff.mp h
    cases h
    refine .freeText fun v hv => ?_
    obtain ⟨item, hitem⟩ := exists_of_mem_withDefault? hvalues hv
    exact stable_of_value? hitem
  · cases h

/-! ### Levels -/

/-- Whatever is read with a number of levels is stable. -/
structure ReadsStable (levels : Nat) : Prop where
  node : ∀ {style : Style} {d : Document} {n : NodeDefinition},
    readNode levels style d = some n → n.Stable
  criterion : ∀ {style : Style} {d : Document} {c : CriterionDefinition},
    readCriterion levels style d = some c → c.Stable
  condition : ∀ {kind : String} {content : Document} {c : ConditionDefinition},
    readCondition levels kind content = some c → c.Stable

namespace ReadsStable

variable {levels : Nat}

theorem readNode_succ (h : ReadsStable levels) {style : Style} {d : Document} {n : NodeDefinition}
    (hread : readNode (levels + 1) style d = some n) : n.Stable := by
  unfold readNode at hread
  -- Bind values stand in the sub-query, in the criteria and below; no other field holds any.
  obtain ⟨fields, -, hread⟩ := Option.bind_eq_some_iff.mp hread
  obtain ⟨table, -, hread⟩ := Option.bind_eq_some_iff.mp hread
  obtain ⟨objectType, -, hread⟩ := Option.bind_eq_some_iff.mp hread
  obtain ⟨subQuery, hsub, hread⟩ := Option.bind_eq_some_iff.mp hread
  obtain ⟨aliasName, -, hread⟩ := Option.bind_eq_some_iff.mp hread
  obtain ⟨join, -, hread⟩ := Option.bind_eq_some_iff.mp hread
  obtain ⟨link, -, hread⟩ := Option.bind_eq_some_iff.mp hread
  obtain ⟨criteria, hcriteria, hread⟩ := Option.bind_eq_some_iff.mp hread
  obtain ⟨connective, -, hread⟩ := Option.bind_eq_some_iff.mp hread
  obtain ⟨referenceDate, -, hread⟩ := Option.bind_eq_some_iff.mp hread
  obtain ⟨linkReferenceDate, -, hread⟩ := Option.bind_eq_some_iff.mp hread
  obtain ⟨history, -, hread⟩ := Option.bind_eq_some_iff.mp hread
  obtain ⟨sort, -, hread⟩ := Option.bind_eq_some_iff.mp hread
  obtain ⟨returned, -, hread⟩ := Option.bind_eq_some_iff.mp hread
  obtain ⟨showsLinkColumns, -, hread⟩ := Option.bind_eq_some_iff.mp hread
  obtain ⟨own, -, hread⟩ := Option.bind_eq_some_iff.mp hread
  obtain ⟨children, hchildren, hread⟩ := Option.bind_eq_some_iff.mp hread
  cases hread
  refine .mk ?_ ?_ ?_
  · intro q hq
    have hsome : subQuery = some q := hq
    rw [hsome] at hsub
    obtain ⟨part, hpart⟩ := exists_of_optionalField hsub
    obtain ⟨part, hpart⟩ := exists_of_optional? hpart
    exact stable_of_readSubQuery hpart
  · intro c hc
    obtain ⟨item, hitem⟩ := exists_of_mem_withDefault? hcriteria hc
    exact h.criterion hitem
  · intro m hm
    obtain ⟨item, hitem⟩ := exists_of_mem_withDefault? hchildren hm
    exact h.node hitem

theorem readCriterion_succ (h : ReadsStable levels) {style : Style} {d : Document}
    {c : CriterionDefinition} (hread : readCriterion (levels + 1) style d = some c) :
    c.Stable := by
  unfold readCriterion at hread
  simp only [Option.bind_eq_bind, Option.bind_eq_some_iff] at hread
  obtain ⟨⟨own, rest⟩, -, fields, -, negated, -, connective, -, ⟨kind, content⟩, -, condition,
    hcondition, hread⟩ := hread
  cases hread
  exact .mk (h.condition hcondition)

theorem readCondition_succ (h : ReadsStable levels) {kind : String} {content : Document}
    {c : ConditionDefinition} (hread : readCondition (levels + 1) kind content = some c) :
    c.Stable := by
  have hmembers : ∀ {members : List CriterionDefinition},
      ((content.fields? .settled ["members"]).bind fun fields =>
        fields.required? "members" (list? .settled (readCriterion levels .settled))) =
          some members → ∀ m ∈ members, m.Stable := by
    intro members hmembers m hm
    obtain ⟨fields, -, hmembers⟩ := Option.bind_eq_some_iff.mp hmembers
    obtain ⟨part, hpart⟩ := exists_of_required? hmembers
    obtain ⟨item, hitem⟩ := exists_of_mem_list? hpart hm
    exact h.criterion hitem
  unfold readCondition at hread
  split at hread
  · obtain ⟨fields, -, hread⟩ := Option.bind_eq_some_iff.mp hread
    obtain ⟨field, -, hread⟩ := Option.bind_eq_some_iff.mp hread
    obtain ⟨query, hquery, hread⟩ := Option.bind_eq_some_iff.mp hread
    cases hread
    obtain ⟨part, hpart⟩ := exists_of_required? hquery
    exact .inSubquery (h.node hpart)
  · obtain ⟨members, hsome, rfl⟩ := Option.map_eq_some_iff.mp hread
    exact .all (hmembers hsome)
  · obtain ⟨members, hsome, rfl⟩ := Option.map_eq_some_iff.mp hread
    exact .any (hmembers hsome)
  · obtain ⟨members, hsome, rfl⟩ := Option.map_eq_some_iff.mp hread
    exact .group (hmembers hsome)
  · exact stable_of_readLeaf hread

/-- By induction on the levels. -/
theorem of_levels (levels : Nat) : ReadsStable levels := by
  induction levels with
  | zero =>
    -- Without levels nothing is read.
    refine ⟨fun hread => ?_, fun hread => ?_, fun hread => ?_⟩
    · rw [readNode] at hread
      cases hread
    · rw [readCriterion] at hread
      cases hread
    · rw [readCondition] at hread
      cases hread
  | succ levels ih => exact ⟨ih.readNode_succ, ih.readCriterion_succ, ih.readCondition_succ⟩

end ReadsStable

/-- Whatever is read is stable. -/
theorem QueryDefinition.stable_of_ofDocument? {style : Style} {d : Document} {q : QueryDefinition}
    (h : QueryDefinition.ofDocument? style d = some q) : q.Stable := by
  unfold QueryDefinition.ofDocument? at h
  simp only [Option.bind_eq_bind, Option.bind_eq_some_iff] at h
  obtain ⟨fields, -, nodes, hnodes, root, hroot, returnType, -, h⟩ := h
  cases h
  have hread := ReadsStable.of_levels (levelsFor d)
  constructor
  · intro n hn
    obtain ⟨item, hitem⟩ := exists_of_mem_withDefault? hnodes hn
    exact hread.node hitem
  · intro n hn
    have hsome : root = some n := hn
    rw [hsome] at hroot
    obtain ⟨part, hpart⟩ := exists_of_optionalField hroot
    obtain ⟨part, hpart⟩ := exists_of_optional? hpart
    exact hread.node hpart

end ObjectQuery.Definition
