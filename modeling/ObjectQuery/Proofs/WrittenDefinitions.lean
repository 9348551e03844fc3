import ObjectQuery.Proofs.StableDefinitions

/-!
# Definitions survive being written

A stable definition is read back from the JSON that is written for it: no field is lost, none is
taken for another, and a part that is left out or written as null is read as none.  What is read
is stable, so a definition that was read survives being written.

## Main Definitions

* `ReadsBackWithin` — what a number of levels is enough for

## Main Statements

* `readsBack_subQuery`, `readsBack_link`, `ConditionDefinition.readLeaf_content` — parts that
  hold no criteria
* `readsBack_node`, `readsBack_criterion` — nodes and criteria whose parts are read back
* `ReadsBackWithin.of_levels` — twice the levels of a document are enough to read it
* `QueryDefinition.ofDocument?_toJson_iff` — exactly the stable definitions are read back
* `QueryDefinition.read_toJson` — definitions survive being written

## Design Notes

JSON is compared as a tree.  A floating-point number stands in it as it is; that a text of JSON
has no numbers that are not finite does not matter here, since none are read from one.
-/

namespace ObjectQuery.Definition

open ObjectQuery.Sql ObjectQuery.Query ObjectQuery.Document

/-! ### Parts without criteria -/

section Parts

variable {style : Style} (hs : style ≠ .direct)

include hs

theorem readsBack_connective (c : Connective) :
    ReadsBack (choice? style connectives) (fun c => .text (connectiveName c)) c :=
  readsBack_choice hs (by cases c <;> rfl)

theorem readsBack_sortField (s : SortField) : ReadsBack (readSortField style) writeSortField s := by
  have hfields : (writeSortField s).toDocument.fields? style sortFieldShape.names = _ :=
    fields?_ofPairs hs (by simp [sortFieldShape]) (by simp)
  unfold ReadsBack readSortField
  rw [bind_of_some hfields, bind_of_some ((readsBack_text hs s.field).required rfl),
    bind_of_some ((readsBack_bool hs s.descending).withDefault rfl _)]
  rfl

theorem readsBack_subQuery {q : SubQuery} (h : ∀ v ∈ q.values, v.Stable) :
    ReadsBack (readSubQuery style) writeSubQuery q := by
  have hfields : (writeSubQuery q).toDocument.fields? style subQueryShape.names = _ :=
    fields?_ofPairs hs (by simp [subQueryShape]) (by simp)
  unfold ReadsBack readSubQuery
  rw [bind_of_some hfields, bind_of_some ((readsBack_text hs q.sql).required rfl),
    bind_of_some ((readsBack_texts hs q.fields).required rfl),
    bind_of_some ((readsBack_values hs h).withDefault rfl _)]
  rfl

end Parts

theorem readsBack_box (b : BoundingBox) : ReadsBack readBox writeBox b := by
  have hs := settled_ne_direct
  have hfields : (writeBox b).toDocument.fields? .settled
      ["min_x", "min_y", "max_x", "max_y"] = _ := fields?_ofPairs hs (by simp) (by simp)
  unfold ReadsBack readBox
  rw [bind_of_some hfields, bind_of_some ((readsBack_float hs b.minX).required rfl),
    bind_of_some ((readsBack_float hs b.minY).required rfl),
    bind_of_some ((readsBack_float hs b.maxX).required rfl),
    bind_of_some ((readsBack_float hs b.maxY).required rfl)]
  rfl

/-- A link through the link table is read back from its fields. -/
theorem readLinkRow_ofPairs (near : LinkEnd) (name : Option String) (id : Option Int64) :
    readLinkRow near (Json.ofPairs
      [("link_type", .optional .text name), ("link_type_id", .optional writeId id)]).toDocument =
      some (.linkRow near name id) := by
  have hs := settled_ne_direct
  unfold readLinkRow
  rw [bind_of_some (fields?_ofPairs hs (by simp) (by simp)),
    bind_of_some ((readsBack_optionalText hs name).optionalField rfl),
    (readsBack_optionalId hs id).optionalField rfl]
  rfl

theorem readsBack_link {style : Style} (hs : style ≠ .direct) (link : LinkDefinition) :
    ReadsBack (readLink style) LinkDefinition.toJson link := by
  have hsettled := settled_ne_direct
  unfold ReadsBack readLink
  cases link with
  | child =>
    rw [LinkDefinition.toJson, variant?_ofPairs hs (by decide) (by simp)]
    rfl
  | parent =>
    rw [LinkDefinition.toJson, variant?_ofPairs hs (by decide) (by simp)]
    rfl
  | custom left right =>
    rw [LinkDefinition.toJson, bind_of_some (variant?_ofPairs hs (by decide) (by simp))]
    show ((Json.ofPairs [("left", .texts left), ("right", .texts right)]).toDocument.fields?
      .settled ["left", "right"] >>= _) = _
    rw [bind_of_some (fields?_ofPairs hsettled (by simp) (by simp)),
      bind_of_some ((readsBack_texts hsettled left).required rfl),
      (readsBack_texts hsettled right).required rfl]
    rfl
  | freeText sql =>
    rw [LinkDefinition.toJson, bind_of_some (variant?_ofPairs hs (by decide) (by simp))]
    rfl
  | linkRow near name id =>
    cases near with
    | first =>
      rw [LinkDefinition.toJson, if_pos rfl, variant?_ofPairs hs (by decide) (by simp)]
      exact readLinkRow_ofPairs .first name id
    | second =>
      rw [LinkDefinition.toJson, if_neg (by decide), variant?_ofPairs hs (by decide) (by simp)]
      exact readLinkRow_ofPairs .second name id
  | denormalized field =>
    rw [LinkDefinition.toJson, bind_of_some (variant?_ofPairs hs (by decide) (by simp))]
    rfl
  | denormalizedReverse field =>
    rw [LinkDefinition.toJson, bind_of_some (variant?_ofPairs hs (by decide) (by simp))]
    rfl
  | denormalizedFull left right =>
    rw [LinkDefinition.toJson, bind_of_some (variant?_ofPairs hs (by decide) (by simp))]
    rfl

/-! ### Lists of parts -/

theorem CriterionDefinition.toJsons_eq_map (criteria : List CriterionDefinition) :
    CriterionDefinition.toJsons criteria = criteria.map CriterionDefinition.toJson := by
  induction criteria with
  | nil => rfl
  | cons c criteria ih => rw [CriterionDefinition.toJsons, ih, List.map_cons]

theorem NodeDefinition.toJsons_eq_map (nodes : List NodeDefinition) :
    NodeDefinition.toJsons nodes = nodes.map NodeDefinition.toJson := by
  induction nodes with
  | nil => rfl
  | cons n nodes ih => rw [NodeDefinition.toJsons, ih, List.map_cons]

/-- No node is written as null. -/
theorem NodeDefinition.isAbsent_toJson (n : NodeDefinition) :
    n.toJson.toDocument.isAbsent = false := by
  obtain ⟨source, criteria, children⟩ := n
  rw [toJson]
  rfl

/-! ### Conditions -/

namespace ConditionDefinition

theorem kind_mem (c : ConditionDefinition) : c.kind ∈ conditionKinds := by
  cases c with
  | linked near =>
    cases near
    · simp [kind, conditionKinds]
    · simp [kind, conditionKinds]
  | _ => simp [kind, conditionKinds]

/-- No field of a condition is taken for its kind or for a field of its criterion. -/
theorem content_names (c : ConditionDefinition) :
    ∀ p ∈ c.content, p.1 ≠ "kind" ∧ p.1 ≠ "not" ∧ p.1 ≠ "connector" := by
  unfold content
  cases c <;> simp [members]

/-- The fields of a condition are all found by the names that they were written under. -/
theorem fields?_content (c : ConditionDefinition) (names : List String)
    (hnames : c.content.map (·.1) = names) :
    (Json.ofPairs c.content).toDocument.fields? .settled names =
      some (writtenFields c.content) := by
  subst hnames
  refine fields?_ofPairs settled_ne_direct (fun p hp => List.mem_map_of_mem hp) ?_
  unfold content
  cases c <;> simp [members]

theorem content_all (members : List CriterionDefinition) : (all members).content =
    [("members", .list (members.map CriterionDefinition.toJson))] := by
  simp [content, ConditionDefinition.members, CriterionDefinition.toJsons_eq_map]

theorem content_any (members : List CriterionDefinition) : (any members).content =
    [("members", .list (members.map CriterionDefinition.toJson))] := by
  simp [content, ConditionDefinition.members, CriterionDefinition.toJsons_eq_map]

theorem content_group (members : List CriterionDefinition) : (group members).content =
    [("members", .list (members.map CriterionDefinition.toJson))] := by
  simp [content, ConditionDefinition.members, CriterionDefinition.toJsons_eq_map]

/-- A link filter is read back from its fields. -/
theorem readLinked_content (near : LinkEnd) (linkType : Int64) (related : List Int64) :
    readLinked near (Json.ofPairs (linked near linkType related).content).toDocument =
      some (.linked near linkType related) := by
  have hs := settled_ne_direct
  have hrelated : ReadsBack (list? .settled (int64? .settled))
      (fun related => .list (related.map writeId)) related :=
    ReadsBack.list hs fun id _ => readsBack_id hs id
  unfold readLinked
  rw [bind_of_some (fields?_content _ ["link_type_id", "related_ids"] rfl),
    bind_of_some ((readsBack_id hs linkType).required rfl), hrelated.withDefault rfl]
  rfl

/-- A comparison is read back from its fields; a value that is not given is written as null. -/
theorem readLeaf_compare {field : String} {comparison : Comparison} {value : Option Value}
    {other : Option String} (h : ∀ v, value = some v → v.Stable ∧ v ≠ .null) :
    readLeaf "compare" (Json.ofPairs (compare field comparison value other).content).toDocument =
      some (.compare field comparison value other) := by
  have hs := settled_ne_direct
  have hchoice : ReadsBack (choice? .settled comparisons) (fun c => .text (comparisonName c))
      comparison := readsBack_choice hs (by cases comparison <;> rfl)
  have hvalue : ReadsBack (optional? .settled value?) (Json.optional Value.toJson) value := by
    refine ReadsBack.optional hs fun v hv => ⟨readsBack_value (h v hv).1, ?_⟩
    cases v with
    | null => exact absurd rfl (h .null hv).2
    | bool | integer | float | date | text => rfl
  unfold readLeaf
  show ((Json.ofPairs _).toDocument.fields? .settled _ >>= _) = _
  rw [bind_of_some (fields?_content _ ["field", "op", "value", "other_field"] rfl),
    bind_of_some ((readsBack_text hs field).required rfl), bind_of_some (hchoice.required rfl),
    bind_of_some (hvalue.optionalField rfl), (readsBack_optionalText hs other).optionalField rfl]
  rfl

/-- A condition that holds no other one is read back from its fields. -/
theorem readLeaf_content {c : ConditionDefinition} (h : c.Stable)
    (hleaf : c.kind ∉ ["in_subquery", "all", "any", "group"]) :
    readLeaf c.kind (Json.ofPairs c.content).toDocument = some c := by
  have hs := settled_ne_direct
  unfold readLeaf
  cases h with
  | compare h => exact readLeaf_compare h
  | isNull => rfl
  | @between field low high hlow hhigh =>
    show ((Json.ofPairs _).toDocument.fields? .settled _ >>= _) = _
    rw [bind_of_some (fields?_content _ ["field", "low", "high"] rfl),
      bind_of_some ((readsBack_text hs field).required rfl),
      bind_of_some ((readsBack_value hlow).required rfl), (readsBack_value hhigh).required rfl]
    rfl
  | @valueBetween value low high hvalue =>
    show ((Json.ofPairs _).toDocument.fields? .settled _ >>= _) = _
    rw [bind_of_some (fields?_content _ ["value", "low_field", "high_field"] rfl),
      bind_of_some ((readsBack_value hvalue).required rfl),
      bind_of_some ((readsBack_text hs low).required rfl), (readsBack_text hs high).required rfl]
    rfl
  | @touches field box =>
    show ((Json.ofPairs _).toDocument.fields? .settled _ >>= _) = _
    rw [bind_of_some (fields?_content _ ["field", "bbox"] rfl),
      bind_of_some ((readsBack_text hs field).required rfl), (readsBack_box box).required rfl]
    rfl
  | @inList field values hvalues =>
    show ((Json.ofPairs _).toDocument.fields? .settled _ >>= _) = _
    rw [bind_of_some (fields?_content _ ["field", "values"] rfl),
      bind_of_some ((readsBack_text hs field).required rfl),
      (readsBack_values hs hvalues).required rfl]
    rfl
  | @linked near linkType related =>
    cases near with
    | first => exact readLinked_content .first linkType related
    | second => exact readLinked_content .second linkType related
  | @freeText sql values hvalues =>
    show ((Json.ofPairs _).toDocument.fields? .settled _ >>= _) = _
    rw [bind_of_some (fields?_content _ ["sql", "params"] rfl),
      bind_of_some ((readsBack_text hs sql).required rfl),
      (readsBack_values hs hvalues).withDefault rfl]
    rfl
  | inSubquery | all | any | group => simp [kind] at hleaf

end ConditionDefinition

/-! ### Nodes and criteria -/

section Parts

variable {style : Style} {levels : Nat}

theorem NodeDefinition.toJson_eq (source : NodeSource) (criteria : List CriterionDefinition)
    (children : List NodeDefinition) : (NodeDefinition.mk source criteria children).toJson =
      .ofPairs (source.members (criteria.map CriterionDefinition.toJson)
        (children.map NodeDefinition.toJson)) := by
  rw [toJson, CriterionDefinition.toJsons_eq_map, NodeDefinition.toJsons_eq_map]

/-- A node is read back if its criteria and the nodes below it are. -/
theorem readsBack_node (hs : style ≠ .direct) {source : NodeSource}
    {criteria : List CriterionDefinition} {children : List NodeDefinition}
    (hvalues : ∀ q, source.subQuery = some q → ∀ v ∈ q.values, v.Stable)
    (hcriteria : ∀ c ∈ criteria,
      ReadsBack (readCriterion levels style) CriterionDefinition.toJson c)
    (hchildren : ∀ n ∈ children, ReadsBack (readNode levels style) NodeDefinition.toJson n) :
    ReadsBack (readNode (levels + 1) style) NodeDefinition.toJson
      ⟨source, criteria, children⟩ := by
  have hsub : ReadsBack (optional? style (readSubQuery style)) (Json.optional writeSubQuery)
      source.subQuery :=
    ReadsBack.optional hs fun q hq => ⟨readsBack_subQuery hs (hvalues q hq), rfl⟩
  have hjoin : ReadsBack (choice? style joins) (fun j => .text (joinName j)) source.join :=
    readsBack_choice hs (by cases source.join <;> rfl)
  have hlink : ReadsBack (optional? style (readLink style)) (Json.optional LinkDefinition.toJson)
      source.link :=
    ReadsBack.optional hs fun link _ => ⟨readsBack_link hs link, by cases link <;> rfl⟩
  have hwhere : ReadsBack (list? style (readCriterion levels style))
      (fun criteria => .list (criteria.map CriterionDefinition.toJson)) criteria :=
    ReadsBack.list hs hcriteria
  have hsort : ReadsBack (list? style (readSortField style))
      (fun sort => .list (sort.map writeSortField)) source.sort :=
    ReadsBack.list hs fun s _ => readsBack_sortField hs s
  have hown : ReadsBack (optional? style (texts? style)) (Json.optional .texts) source.fields :=
    ReadsBack.optional hs fun names _ => ⟨readsBack_texts hs names, rfl⟩
  have hbelow : ReadsBack (list? style (readNode levels style))
      (fun children => .list (children.map NodeDefinition.toJson)) children :=
    ReadsBack.list hs hchildren
  unfold ReadsBack readNode
  -- Field by field, in the order in which the record is read.
  rw [NodeDefinition.toJson_eq,
    bind_of_some (fields?_ofPairs hs
      (by simp [NodeSource.members, nodeFields, nodeShape, Shape.names])
      (by simp [NodeSource.members])),
    bind_of_some ((readsBack_optionalText hs source.table).optionalField rfl),
    bind_of_some ((readsBack_optionalId hs source.objectType).optionalField rfl),
    bind_of_some (hsub.optionalField rfl),
    bind_of_some ((readsBack_optionalText hs source.aliasName).optionalField rfl),
    bind_of_some (hjoin.withDefault rfl _), bind_of_some (hlink.optionalField rfl),
    bind_of_some (hwhere.withDefault rfl _),
    bind_of_some ((readsBack_connective hs source.connective).withDefault rfl _),
    bind_of_some ((readsBack_optionalText hs source.referenceDate).optionalField rfl),
    bind_of_some ((readsBack_optionalText hs source.linkReferenceDate).optionalField rfl),
    bind_of_some ((readsBack_bool hs source.history).withDefault rfl _),
    bind_of_some (hsort.withDefault rfl _),
    bind_of_some ((readsBack_bool hs source.returned).withDefault rfl _),
    bind_of_some ((readsBack_bool hs source.showsLinkColumns).withDefault rfl _),
    bind_of_some (hown.optionalField rfl), hbelow.withDefault rfl]
  rfl

/-- The entries of a criterion are split into its own and those of its condition. -/
theorem criterionEntries_ofPairs (hs : style ≠ .direct) {pairs own : List (String × Json)}
    (hpairs : ∀ p ∈ pairs, p.1 ≠ "not" ∧ p.1 ≠ "connector")
    (hown : ∀ p ∈ own, p.1 = "not" ∨ p.1 = "connector") :
    criterionEntries style (Json.ofPairs (pairs ++ own)).toDocument =
      some (writtenEntries own, writtenEntries pairs) := by
  have hisOwn : ∀ name : String, criterionEntries.isOwn (writtenKey name) =
      (name == "not" || name == "connector") := by
    intro name
    simp [criterionEntries.isOwn, writtenKey, text?, datum?]
  have hsplit : splitEntries criterionEntries.isOwn (writtenEntries (pairs ++ own ++ [])) =
      (writtenEntries own, writtenEntries (pairs ++ [])) := by
    refine splitEntries_writtenEntries (fun p hp => ?_) fun p hp => ?_
    · rw [hisOwn]
      simpa using hown p hp
    · rw [hisOwn]
      simpa using hpairs p (by simpa using hp)
  rw [List.append_nil, List.append_nil] at hsplit
  rw [toDocument_ofPairs]
  cases style with
  | direct => exact absurd rfl hs
  | given | settled => exact congrArg some hsplit

/-- A criterion is read back if its condition is. -/
theorem readsBack_criterion (hs : style ≠ .direct) {condition : ConditionDefinition}
    (h : readCondition levels condition.kind (Json.ofPairs condition.content).toDocument =
      some condition) (negated : Bool) (connective : Connective) :
    ReadsBack (readCriterion (levels + 1) style) CriterionDefinition.toJson
      ⟨condition, negated, connective⟩ := by
  have hsettled := settled_ne_direct
  have hnames : ∀ p ∈ condition.members, p.1 ≠ "not" ∧ p.1 ≠ "connector" := by
    rw [condition.members_eq, List.forall_mem_cons]
    exact ⟨by simp, fun p hp => (condition.content_names p hp).2⟩
  unfold ReadsBack readCriterion
  rw [CriterionDefinition.toJson, bind_of_some (criterionEntries_ofPairs hs hnames (by simp))]
  dsimp only
  rw [bind_of_some (pickFields?_writtenEntries hsettled (by simp) (by simp)),
    bind_of_some ((readsBack_bool hs negated).withDefault rfl _),
    bind_of_some ((readsBack_connective hs connective).withDefault rfl _), ← toDocument_ofPairs,
    condition.members_eq,
    bind_of_some (variant?_ofPairs hsettled condition.kind_mem
      fun p hp => (condition.content_names p hp).1)]
  dsimp only
  rw [h]
  rfl

end Parts

/-! ### Levels -/

/-- With a number of levels, everything stable that needs no more of them is read back. -/
structure ReadsBackWithin (levels : Nat) : Prop where
  node : ∀ {style : Style}, style ≠ .direct → ∀ n : NodeDefinition, n.Stable →
    2 * n.toJson.toDocument.depth ≤ levels →
      ReadsBack (readNode levels style) NodeDefinition.toJson n
  criterion : ∀ {style : Style}, style ≠ .direct → ∀ c : CriterionDefinition, c.Stable →
    2 * c.toJson.toDocument.depth ≤ levels →
      ReadsBack (readCriterion levels style) CriterionDefinition.toJson c
  condition : ∀ c : ConditionDefinition, c.Stable →
    2 * (Json.ofPairs c.members).toDocument.depth ≤ levels + 1 →
      readCondition levels c.kind (Json.ofPairs c.content).toDocument = some c

namespace ReadsBackWithin

variable {levels : Nat} {style : Style}

theorem readNode_succ (h : ReadsBackWithin levels) (hs : style ≠ .direct) {n : NodeDefinition}
    (hn : n.Stable) (hlevels : 2 * n.toJson.toDocument.depth ≤ levels + 1) :
    ReadsBack (readNode (levels + 1) style) NodeDefinition.toJson n := by
  cases hn with
  | @mk source criteria children hvalues hcriteria hchildren =>
  rw [NodeDefinition.toJson_eq] at hlevels
  refine readsBack_node hs hvalues (fun c hc => ?_) fun m hm => ?_
  · have hname : ("where", Json.list (criteria.map CriterionDefinition.toJson)) ∈
        source.members (criteria.map CriterionDefinition.toJson)
          (children.map NodeDefinition.toJson) := by simp [NodeSource.members]
    have hdepth := depth_add_two_le hname (List.mem_map_of_mem hc)
    exact h.criterion hs c (hcriteria c hc) (by omega)
  · have hname : ("children", Json.list (children.map NodeDefinition.toJson)) ∈
        source.members (criteria.map CriterionDefinition.toJson)
          (children.map NodeDefinition.toJson) := by simp [NodeSource.members]
    have hdepth := depth_add_two_le hname (List.mem_map_of_mem hm)
    exact h.node hs m (hchildren m hm) (by omega)

theorem readCriterion_succ (h : ReadsBackWithin levels) (hs : style ≠ .direct)
    {c : CriterionDefinition} (hc : c.Stable)
    (hlevels : 2 * c.toJson.toDocument.depth ≤ levels + 1) :
    ReadsBack (readCriterion (levels + 1) style) CriterionDefinition.toJson c := by
  cases hc with
  | @mk condition negated connective hcondition =>
  refine readsBack_criterion hs (h.condition condition hcondition ?_) negated connective
  refine Nat.le_trans (Nat.mul_le_mul_left 2 ?_) hlevels
  rw [CriterionDefinition.toJson]
  exact depth_ofPairs_append_le _ _

/-- A condition that holds no other one is read as such. -/
theorem readCondition_of_leaf {kind : String}
    (hleaf : kind ∉ ["in_subquery", "all", "any", "group"]) (content : Document) :
    readCondition (levels + 1) kind content = readLeaf kind content := by
  rw [readCondition]
  all_goals
    rintro rfl
    simp at hleaf

/-- The members of a condition are read back with two levels less. -/
theorem readMembers (h : ReadsBackWithin levels) {c : ConditionDefinition}
    {members : List CriterionDefinition} (hstable : ∀ m ∈ members, m.Stable)
    (hcontent : c.content = [("members", .list (members.map CriterionDefinition.toJson))])
    (hlevels : 2 * (Json.ofPairs c.members).toDocument.depth ≤ levels + 2) :
    (do
      let fields ← (Json.ofPairs c.content).toDocument.fields? .settled ["members"]
      fields.required? "members" (list? .settled (readCriterion levels .settled))) =
        some members := by
  have hs := settled_ne_direct
  have hname : ("members", Json.list (members.map CriterionDefinition.toJson)) ∈ c.members := by
    rw [c.members_eq, hcontent]
    exact List.mem_cons_of_mem _ (List.mem_singleton_self _)
  have hmembers : ReadsBack (list? .settled (readCriterion levels .settled))
      (fun members => .list (members.map CriterionDefinition.toJson)) members := by
    refine ReadsBack.list hs fun m hm => h.criterion hs m (hstable m hm) ?_
    have hdepth := depth_add_two_le hname (List.mem_map_of_mem hm)
    omega
  rw [bind_of_some (c.fields?_content ["members"] (by rw [hcontent]; rfl)), hcontent]
  exact hmembers.required rfl

theorem readCondition_succ (h : ReadsBackWithin levels) {c : ConditionDefinition} (hc : c.Stable)
    (hlevels : 2 * (Json.ofPairs c.members).toDocument.depth ≤ levels + 2) :
    readCondition (levels + 1) c.kind (Json.ofPairs c.content).toDocument = some c := by
  have hs := settled_ne_direct
  by_cases hleaf : c.kind ∈ ["in_subquery", "all", "any", "group"]
  -- The conditions that hold others take their levels from the record that they stand in.
  · cases hc with
    | @inSubquery field query hquery =>
      have hname : ("query", query.toJson) ∈
          (ConditionDefinition.inSubquery field query).members := by
        simp [ConditionDefinition.members]
      have hdepth : query.toJson.toDocument.depth < _ := depth_lt_ofPairs hname
      have hread := h.node hs query hquery (by omega)
      rw [ConditionDefinition.kind, readCondition]
      rw [bind_of_some (ConditionDefinition.fields?_content _ ["field", "query"] rfl),
        bind_of_some ((readsBack_text hs field).required rfl), hread.required rfl]
      rfl
    | @all members hstable =>
      have hread := h.readMembers hstable (ConditionDefinition.content_all members) hlevels
      rw [ConditionDefinition.kind, readCondition]
      rw [hread]
      rfl
    | @any members hstable =>
      have hread := h.readMembers hstable (ConditionDefinition.content_any members) hlevels
      rw [ConditionDefinition.kind, readCondition]
      rw [hread]
      rfl
    | @group members hstable =>
      have hread := h.readMembers hstable (ConditionDefinition.content_group members) hlevels
      rw [ConditionDefinition.kind, readCondition]
      rw [hread]
      rfl
    | @linked near => cases near <;> simp [ConditionDefinition.kind] at hleaf
    | compare | isNull | between | valueBetween | touches | inList | freeText =>
      simp [ConditionDefinition.kind] at hleaf
  · rw [readCondition_of_leaf hleaf]
    exact ConditionDefinition.readLeaf_content hc hleaf

/-- By induction on the levels: each reader passes its parts on with one level less, and the
parts of a document have fewer levels than the document. -/
theorem of_levels (levels : Nat) : ReadsBackWithin levels := by
  induction levels with
  | zero =>
    -- A document has a level at least, so that there is nothing to read back.
    refine ⟨fun _ n _ hlevels => ?_, fun _ c _ hlevels => ?_, fun c _ hlevels => ?_⟩
    · have := one_le_depth n.toJson.toDocument
      omega
    · have := one_le_depth c.toJson.toDocument
      omega
    · have := one_le_depth (Json.ofPairs c.members).toDocument
      omega
  | succ levels ih =>
    exact ⟨fun hs _ => ih.readNode_succ hs, fun hs _ => ih.readCriterion_succ hs,
      fun _ => ih.readCondition_succ⟩

end ReadsBackWithin

/-! ### Queries -/

namespace QueryDefinition

section Written

variable (q : QueryDefinition)

/-- The fields that are written for a query. -/
def written : List (String × Json) :=
  (if q.nodes.isEmpty then [] else [("nodes", .list (q.nodes.map NodeDefinition.toJson))]) ++
    (q.root.map fun root => ("root", root.toJson)).toList ++
    (q.returnType.map fun name => ("return_type", Json.text name)).toList

theorem toJson_eq : q.toJson = .ofPairs q.written := by
  rw [toJson, written, NodeDefinition.toJsons_eq_map]

theorem fields?_written : q.toJson.toDocument.fields? .given (definitionShape 0).names =
    some (writtenFields q.written) := by
  obtain ⟨nodes, root, returnType⟩ := q
  rw [toJson_eq]
  refine fields?_ofPairs (by decide) ?_ ?_
  · cases nodes <;> cases root <;> cases returnType <;>
      simp [written, definitionShape, Shape.names]
  · cases nodes <;> cases root <;> cases returnType <;> simp [written]

/-- The nodes of a query are written unless there are none. -/
theorem lookup_nodes : q.written.lookup "nodes" =
    if q.nodes.isEmpty then none else some (.list (q.nodes.map NodeDefinition.toJson)) := by
  obtain ⟨nodes, root, returnType⟩ := q
  cases nodes <;> cases root <;> cases returnType <;> rfl

theorem lookup_root : q.written.lookup "root" = q.root.map NodeDefinition.toJson := by
  obtain ⟨nodes, root, returnType⟩ := q
  cases nodes <;> cases root <;> cases returnType <;> rfl

theorem lookup_returnType : q.written.lookup "return_type" = q.returnType.map .text := by
  obtain ⟨nodes, root, returnType⟩ := q
  cases nodes <;> cases root <;> cases returnType <;> rfl

end Written

/-- A stable definition is read back from its JSON. -/
theorem ofDocument?_toJson_of_stable {q : QueryDefinition} (h : q.Stable) :
    ofDocument? .given q.toJson.toDocument = some q := by
  have hs : Style.given ≠ .direct := by decide
  have hread := ReadsBackWithin.of_levels (levelsFor q.toJson.toDocument)
  have hwithin : ∀ n : NodeDefinition, n.Stable →
      n.toJson.toDocument.depth < q.toJson.toDocument.depth →
        ReadsBack (readNode (levelsFor q.toJson.toDocument) .given) NodeDefinition.toJson n := by
    intro n hn hdepth
    refine hread.node hs n hn ?_
    unfold levelsFor
    omega
  have hnodes : (writtenFields q.written).withDefault? "nodes" []
      (list? .given (readNode (levelsFor q.toJson.toDocument) .given)) = some q.nodes := by
    cases hempty : q.nodes with
    | nil =>
      rw [Fields.withDefault?, get?_writtenFields, lookup_nodes, hempty]
      rfl
    | cons first rest =>
      have hlist : ReadsBack (list? .given (readNode (levelsFor q.toJson.toDocument) .given))
          (fun nodes => .list (nodes.map NodeDefinition.toJson)) q.nodes := by
        refine ReadsBack.list hs fun n hn => hwithin n (h.nodes n hn) ?_
        have hname : ("nodes", Json.list (q.nodes.map NodeDefinition.toJson)) ∈ q.written := by
          simp [written, hempty]
        have hdepth := depth_add_two_le hname (List.mem_map_of_mem hn)
        rw [toJson_eq]
        omega
      rw [hlist.withDefault (by rw [lookup_nodes, hempty]; rfl), hempty]
  have hroot : (writtenFields q.written).optional? "root" .given
      (readNode (levelsFor q.toJson.toDocument) .given) = some q.root := by
    refine ReadsBack.omitted hs (fun n hn => ⟨hwithin n (h.root n hn) ?_, n.isAbsent_toJson⟩)
      q.lookup_root
    have hname : ("root", n.toJson) ∈ q.written := by simp [written, hn]
    rw [toJson_eq]
    exact depth_lt_ofPairs hname
  have hreturn : (writtenFields q.written).optional? "return_type" .given (text? .given) =
      some q.returnType :=
    ReadsBack.omitted hs (fun name _ => ⟨readsBack_text hs name, rfl⟩) q.lookup_returnType
  unfold ofDocument?
  rw [bind_of_some q.fields?_written, bind_of_some hnodes, bind_of_some hroot, hreturn]
  rfl

/-- Exactly the stable definitions are read back from their JSON. -/
theorem ofDocument?_toJson_iff {q : QueryDefinition} :
    ofDocument? .given q.toJson.toDocument = some q ↔ q.Stable :=
  ⟨stable_of_ofDocument?, ofDocument?_toJson_of_stable⟩

/-- A definition that a JSON value writes is read back from the JSON that is written for it, as
exactly the stable definitions are. -/
theorem read_toJson {v : Json} {q : QueryDefinition}
    (h : ofDocument? .given v.toDocument = some q) :
    ofDocument? .given q.toJson.toDocument = some q ∧
      ∀ p : QueryDefinition, ofDocument? .given p.toJson.toDocument = some p ↔ p.Stable :=
  ⟨ofDocument?_toJson_of_stable (stable_of_ofDocument? h), fun _ => ofDocument?_toJson_iff⟩

end QueryDefinition

/-! ### A survey -/

namespace Farm

/-- The animals of a breed, or born in a year, that are not for sale, with the stalls that they
are linked to. -/
def survey : Json :=
  .ofPairs [("root", .ofPairs
    [("table", .text "ANIMAL"),
      ("where", .list
        [.ofPairs [("kind", .text "group"), ("members", .list
            [.ofPairs [("kind", .text "compare"), ("field", .text "breed"), ("op", .text "eq"),
                ("value", .text "angus"), ("connector", .text "or")],
              .ofPairs [("kind", .text "between"), ("field", .text "born"),
                ("low", .text "2019-01-01T00:00:00"), ("high", .text "2019-12-31T23:59:59.5")]])],
          .ofPairs [("kind", .text "in_subquery"), ("field", .text "object_id"),
            ("query", .ofPairs [("table", .text "SALE"), ("where", .list
              [.ofPairs [("kind", .text "in_list"), ("field", .text "state"),
                ("values", .list [.integer 3, .bool true, .null, .text "open"])]])]),
            ("not", .bool true)]]),
      ("children", .list
        [.ofPairs [("table", .text "STALL"), ("join", .text "left"),
          ("link", .ofPairs [("kind", .text "db_link"), ("link_type_id", .integer 5)])]])])]

/-- The definition that the survey writes. -/
def surveyed : QueryDefinition where
  root := some
    { table := some "ANIMAL"
      criteria :=
        [⟨.group
            [⟨.compare "breed" .equal (some (.text "angus")) none, false, .or⟩,
              ⟨.between "born" (.date ⟨2019, 1, 1, 0, 0, 0, 0, by decide⟩)
                (.date ⟨2019, 12, 31, 23, 59, 59, 500000000, by decide⟩), false, .and⟩],
            false, .and⟩,
          ⟨.inSubquery "object_id"
            { table := some "SALE"
              criteria := [⟨.inList "state" [.integer 3, .bool true, .null, .text "open"],
                false, .and⟩] },
            true, .and⟩]
      children :=
        [{ table := some "STALL", join := .left
           link := some (.linkRow .first none (some 5)) }] }

end Farm

/-- The survey is read as this definition, and so is what is written for it. -/
theorem QueryDefinition.read_toJson_farm :
    QueryDefinition.ofDocument? .given Farm.survey.toDocument = some Farm.surveyed ∧
      QueryDefinition.ofDocument? .given Farm.surveyed.toJson.toDocument =
        some Farm.surveyed := by
  have hread : QueryDefinition.ofDocument? .given Farm.survey.toDocument = some Farm.surveyed :=
    rfl
  exact ⟨hread, (QueryDefinition.read_toJson hread).1⟩

end ObjectQuery.Definition
