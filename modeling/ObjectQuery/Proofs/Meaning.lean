import ObjectQuery.Proofs.Precedence
import ObjectQuery.Proofs.Visit

/-!
# The meaning of criteria

A criterion is a tree of conditions with negations and connectives.  Its text, read with `NOT`
before `AND` before `OR`, means what the tree means, whatever the conditions at its leaves
turn out to be.  Groups without leaves count for nothing.

## Main Definitions

* `Condition.leaves`, `Criterion.leaves` — the conditions that are not groups
* `Condition.holds`, `Criterion.holds` — the value of a tree for values of its leaves
* `Criterion.pruned` — a tree without the groups that have no leaves
* `StandsFor` — an expression, or nothing, that means what a tree means

## Main Statements

* `Condition.standsFor_resolve`, `Criterion.standsFor_resolve` — trees, node by node
* `Criterion.resolve_pruned` — groups without leaves change nothing
* `Criterion.reads_resolve` — the text of a criterion means what the criterion means
-/

namespace ObjectQuery.Query

open ObjectQuery.Sql ObjectQuery.Outcome

/-! ### Trees and their leaves -/

mutual

/-- The conditions that are not groups, from left to right. -/
def Condition.leaves : Condition → List Condition
  | .group members => Criterion.leavesAll members
  | condition => [condition]

/-- The leaves of a criterion. -/
def Criterion.leaves : Criterion → List Condition
  | ⟨condition, _, _⟩ => condition.leaves

/-- The leaves of the members of a group. -/
def Criterion.leavesAll : List Criterion → List Condition
  | [] => []
  | member :: rest => member.leaves ++ Criterion.leavesAll rest

end

mutual

/-- The value of a condition, for the values of its leaves. -/
def Condition.holds : Condition → (Nat → Bool) → Bool
  | .group members, truth => combined (Criterion.memberTruths members truth)
  | _, truth => truth 0

/-- The value of a criterion: that of its condition, or the opposite. -/
def Criterion.holds : Criterion → (Nat → Bool) → Bool
  | ⟨condition, negated, _⟩, truth =>
    if negated then !condition.holds truth else condition.holds truth

/-- The values of the members that have leaves, each with its connective. -/
def Criterion.memberTruths : List Criterion → (Nat → Bool) → List (Bool × Connective)
  | [], _ => []
  | member :: rest, truth =>
    let others := Criterion.memberTruths rest (later truth member.leaves.length)
    if member.leaves.isEmpty then others
    else (member.holds truth, member.connective) :: others

end

mutual

/-- The condition without the groups inside it that have no leaves. -/
def Condition.pruned : Condition → Condition
  | .group members => .group (Criterion.prunedAll members)
  | condition => condition

/-- The criterion without the groups inside it that have no leaves. -/
def Criterion.pruned : Criterion → Criterion
  | ⟨condition, negated, connective⟩ => ⟨condition.pruned, negated, connective⟩

/-- The members that have leaves, without the groups inside them that have none. -/
def Criterion.prunedAll : List Criterion → List Criterion
  | [] => []
  | member :: rest =>
    if member.leaves.isEmpty then Criterion.prunedAll rest
    else member.pruned :: Criterion.prunedAll rest

end

/-! ### Leaves -/

section Resolution

variable {cx : Context} {scope : Scope}

/-- A condition that resolves to an expression. -/
def ResolvesTo (cx : Context) (scope : Scope) (condition : Condition) (e : Expr) : Prop :=
  condition.resolve cx scope = .ok (some e)

/-- What stands for a tree with leaves and values: nothing if there are no leaves, else an
expression over the resolved leaves with the values of the tree. -/
structure StandsFor (cx : Context) (scope : Scope) (r : Option Expr) (leaves : List Condition)
    (holds : (Nat → Bool) → Bool) : Prop where
  eq_none_iff : r = none ↔ leaves = []
  leaves : ∀ e, r = some e → List.Forall₂ (ResolvesTo cx scope) leaves (atoms e.symbols)
  reads : ∀ e, r = some e → ∀ truth, Reads .operand (assigned truth e.symbols) (holds truth)

/-- An expression without parentheses of its own stands for its condition. -/
theorem StandsFor.leaf {condition : Condition} {e : Expr} (h : ResolvesTo cx scope condition e)
    (hsymbols : e.symbols = [.atom e]) :
    StandsFor cx scope (some e) [condition] (fun truth => truth 0) := by
  refine ⟨by simp, ?_, ?_⟩
  · intro e' he
    cases he
    rw [hsymbols]
    exact .cons h .nil
  · intro e' he truth
    cases he
    rw [hsymbols]
    exact .atom (truth 0)

/-- The negated expression stands for the opposite. -/
theorem StandsFor.negated {r : Option Expr} {leaves : List Condition}
    {holds : (Nat → Bool) → Bool} (h : StandsFor cx scope r leaves holds) :
    StandsFor cx scope (r.map Expr.negated) leaves (fun truth => !holds truth) := by
  refine ⟨?_, ?_, ?_⟩
  · rw [Option.map_eq_none_iff]
    exact h.eq_none_iff
  · intro e he
    obtain ⟨inner, hinner, rfl⟩ := Option.map_eq_some_iff.mp he
    rw [inner.atoms_negated]
    exact h.leaves inner hinner
  · intro e he truth
    obtain ⟨inner, hinner, rfl⟩ := Option.map_eq_some_iff.mp he
    exact (h.reads inner hinner truth).negated

/-! ### Members of a group -/

/-- What stands for the members of a group: expressions over the resolved leaves that go on
with a conjunction, or begin one, as the members do. -/
structure PartsStandFor (cx : Context) (scope : Scope) (parts : List (Expr × Connective))
    (leaves : List Condition) (truths : (Nat → Bool) → List (Bool × Connective)) : Prop where
  eq_nil_iff : parts = [] ↔ leaves = []
  leaves : List.Forall₂ (ResolvesTo cx scope) leaves (parts.flatMap fun p => atoms p.1.symbols)
  continues : ∀ truth connective v a, Reads .conjunction v a →
    Reads .disjunction (v ++ assigned truth (symbolsAfter connective parts))
      (combinedFrom a connective (truths truth))
  begins : ∀ truth condition next rest, parts = (condition, next) :: rest →
    Reads .disjunction (assigned truth (condition.symbols ++ symbolsAfter next rest))
      (combined (truths truth))

namespace PartsStandFor

/-- No parts stand for no members. -/
theorem nil : PartsStandFor cx scope [] [] (fun _ => []) where
  eq_nil_iff := iff_of_true rfl rfl
  leaves := .nil
  continues := by
    intro truth connective v a hv
    rw [symbolsAfter, assigned, List.append_nil]
    cases connective <;> exact hv.conjunction
  begins := fun _ _ _ _ h => nomatch h

/-- A member with leaves in front of other members. -/
theorem cons {e : Expr} {connective : Connective} {parts : List (Expr × Connective)}
    {leaves others : List Condition} {holds : (Nat → Bool) → Bool}
    {truths : (Nat → Bool) → List (Bool × Connective)}
    (h : StandsFor cx scope (some e) leaves holds)
    (hparts : PartsStandFor cx scope parts others truths) :
    PartsStandFor cx scope ((e, connective) :: parts) (leaves ++ others)
      (fun truth => (holds truth, connective) :: truths (later truth leaves.length)) := by
  have hleaves := h.leaves e rfl
  -- The values of the other members begin behind those of this one.
  have hrow : ∀ truth next, assigned truth (e.symbols ++ symbolsAfter next parts) =
      assigned truth e.symbols ++
        assigned (later truth leaves.length) (symbolsAfter next parts) := by
    intro truth next
    rw [assigned_append, hleaves.length_eq]
  refine ⟨?_, ?_, ?_, ?_⟩
  · have hne : leaves ≠ [] := fun hnil => nomatch h.eq_none_iff.mpr hnil
    simp [hne]
  · exact List.rel_append hleaves hparts.leaves
  · intro truth previous v a hv
    rw [symbolsAfter, assigned, hrow]
    exact hv.more (h.reads e rfl truth) (hparts.continues _ _)
  · intro truth condition next rest hcons
    cases hcons
    rw [hrow]
    exact hparts.continues _ _ _ _ (h.reads e rfl truth).operand

/-- The group of the parts stands for the group of the members. -/
theorem group {parts : List (Expr × Connective)} {leaves : List Condition}
    {truths : (Nat → Bool) → List (Bool × Connective)}
    (h : PartsStandFor cx scope parts leaves truths) :
    StandsFor cx scope (groupOf? parts) leaves (fun truth => combined (truths truth)) := by
  cases parts with
  | nil =>
    refine ⟨?_, ?_, ?_⟩
    · exact iff_of_true rfl (h.eq_nil_iff.mp rfl)
    · exact fun e he => nomatch he
    · exact fun e he => nomatch he
  | cons part rest =>
    obtain ⟨condition, next⟩ := part
    obtain ⟨chain, hchain, hsymbols⟩ := Chain.symbols_ofParts? condition next rest
    have hgroup : groupOf? ((condition, next) :: rest) = some (.group chain) := by
      rw [groupOf?, hchain, Option.map_some]
    rw [hgroup]
    refine ⟨?_, ?_, ?_⟩
    · have hne : leaves ≠ [] := fun hnil => nomatch h.eq_nil_iff.mpr hnil
      simp [hne]
    · intro e he
      cases he
      rw [Expr.symbols, atoms_enclosed, hsymbols, atoms_append, atoms_symbolsAfter]
      exact h.leaves
    · intro e he truth
      cases he
      refine Reads.group truth ?_
      rw [hsymbols]
      exact h.begins truth condition next rest rfl

end PartsStandFor

/-! ### Trees -/

/-- A link filter resolves to a condition without parentheses of its own. -/
theorem symbols_resolve_linkFilter {near : LinkEnd} {f : LinkFilter} {e : Expr}
    (h : f.resolve cx scope near = .ok e) : e.symbols = [.atom e] := by
  unfold LinkFilter.resolve at h
  cases htable : cx.linkTable with
  | none =>
    rw [htable] at h
    cases h
  | some table =>
    rw [htable] at h
    cases h
    rfl

mutual

/-- What a condition resolves to stands for it.  By recursion on the condition: every leaf
resolves to a condition of its own, a group to the group of its members. -/
theorem Condition.standsFor_resolve : ∀ (c : Condition) {r : Option Expr},
    c.resolve cx scope = .ok r → StandsFor cx scope r c.leaves c.holds
  | .compare _ _ _, r, h => by cases h; exact .leaf rfl rfl
  | .compareFields _ _ _, r, h => by cases h; exact .leaf rfl rfl
  | .isNull _, r, h => by cases h; exact .leaf rfl rfl
  | .between _ _ _, r, h => by cases h; exact .leaf rfl rfl
  | .valueBetween _ _ _, r, h => by cases h; exact .leaf rfl rfl
  | .touches _ _, r, h => by cases h; exact .leaf rfl rfl
  | .inList _ _, r, h => by cases h; exact .leaf rfl rfl
  | .freeText _ _, r, h => by cases h; exact .leaf rfl rfl
  | .inSubquery field query, r, h => by
    obtain ⟨select, hselect, rfl⟩ := map_eq_ok_iff.mp h
    exact .leaf h rfl
  | .linked near filter, r, h => by
    obtain ⟨e, he, rfl⟩ := map_eq_ok_iff.mp h
    exact .leaf h (symbols_resolve_linkFilter he)
  | .group members, r, h => by
    obtain ⟨parts, hparts, rfl⟩ := map_eq_ok_iff.mp h
    exact (Criterion.partsStandFor_resolveParts members hparts).group

theorem Criterion.standsFor_resolve : ∀ (c : Criterion) {r : Option Expr},
    c.resolve cx scope = .ok r → StandsFor cx scope r c.leaves c.holds
  | ⟨condition, negated, connective⟩, r, h => by
    obtain ⟨own, hown, rfl⟩ := map_eq_ok_iff.mp h
    have hcondition := Condition.standsFor_resolve condition hown
    cases negated with
    | false => exact hcondition
    | true => exact hcondition.negated

theorem Criterion.partsStandFor_resolveParts : ∀ (members : List Criterion)
    {parts : List (Expr × Connective)}, Criterion.resolveParts cx scope members = .ok parts →
      PartsStandFor cx scope parts (Criterion.leavesAll members)
        (Criterion.memberTruths members)
  | [], parts, h => by
    cases h
    exact .nil
  | member :: rest, parts, h => by
    obtain ⟨resolved, hresolved, h⟩ := bind_eq_ok_iff.mp h
    obtain ⟨others, hothers, h⟩ := bind_eq_ok_iff.mp h
    have hmember := Criterion.standsFor_resolve member hresolved
    have hrest := Criterion.partsStandFor_resolveParts rest hothers
    cases resolved with
    -- The member vanishes, and its connective with it.
    | none =>
      cases h
      have hnil := hmember.eq_none_iff.mp rfl
      have htruths : Criterion.memberTruths (member :: rest) = Criterion.memberTruths rest := by
        funext truth
        simp [Criterion.memberTruths, hnil, later_zero]
      rw [Criterion.leavesAll, hnil, List.nil_append, htruths]
      exact hrest
    | some e =>
      cases h
      have hne : member.leaves ≠ [] := fun hnil => nomatch hmember.eq_none_iff.mpr hnil
      have htruths : Criterion.memberTruths (member :: rest) = fun truth =>
          (member.holds truth, member.connective) ::
            Criterion.memberTruths rest (later truth member.leaves.length) := by
        funext truth
        simp [Criterion.memberTruths, hne]
      rw [Criterion.leavesAll, htruths]
      exact .cons hmember hrest

end

/-! ### Groups without leaves -/

mutual

/-- A condition without leaves resolves to nothing. -/
theorem Condition.resolve_of_leaves_eq_nil : ∀ c : Condition, c.leaves = [] →
    c.resolve cx scope = .ok none
  | .group members, h => by
    rw [Condition.resolve, Criterion.resolveParts_of_leavesAll_eq_nil members h]
    rfl
  | .compare _ _ _, h => nomatch h
  | .compareFields _ _ _, h => nomatch h
  | .isNull _, h => nomatch h
  | .between _ _ _, h => nomatch h
  | .valueBetween _ _ _, h => nomatch h
  | .touches _ _, h => nomatch h
  | .inList _ _, h => nomatch h
  | .inSubquery _ _, h => nomatch h
  | .linked _ _, h => nomatch h
  | .freeText _ _, h => nomatch h

theorem Criterion.resolve_of_leaves_eq_nil : ∀ c : Criterion, c.leaves = [] →
    c.resolve cx scope = .ok none
  | ⟨condition, negated, connective⟩, h => by
    rw [Criterion.resolve, Condition.resolve_of_leaves_eq_nil condition h]
    cases negated <;> rfl

theorem Criterion.resolveParts_of_leavesAll_eq_nil : ∀ members : List Criterion,
    Criterion.leavesAll members = [] → Criterion.resolveParts cx scope members = .ok []
  | [], _ => rfl
  | member :: rest, h => by
    obtain ⟨hmember, hrest⟩ := List.append_eq_nil_iff.mp h
    rw [Criterion.resolveParts, Criterion.resolve_of_leaves_eq_nil member hmember,
      Criterion.resolveParts_of_leavesAll_eq_nil rest hrest]
    rfl

end

mutual

/-- Groups without leaves inside a condition change nothing. -/
theorem Condition.resolve_pruned : ∀ c : Condition,
    c.pruned.resolve cx scope = c.resolve cx scope
  | .group members => by
    rw [Condition.pruned, Condition.resolve, Condition.resolve,
      Criterion.resolveParts_prunedAll members]
  | .compare _ _ _ => rfl
  | .compareFields _ _ _ => rfl
  | .isNull _ => rfl
  | .between _ _ _ => rfl
  | .valueBetween _ _ _ => rfl
  | .touches _ _ => rfl
  | .inList _ _ => rfl
  | .inSubquery _ _ => rfl
  | .linked _ _ => rfl
  | .freeText _ _ => rfl

theorem Criterion.resolve_pruned : ∀ c : Criterion,
    c.pruned.resolve cx scope = c.resolve cx scope
  | ⟨condition, negated, connective⟩ => by
    rw [Criterion.pruned, Criterion.resolve, Criterion.resolve,
      Condition.resolve_pruned condition]

theorem Criterion.resolveParts_prunedAll : ∀ members : List Criterion,
    Criterion.resolveParts cx scope (Criterion.prunedAll members) =
      Criterion.resolveParts cx scope members
  | [] => rfl
  | member :: rest => by
    rw [Criterion.prunedAll]
    by_cases hnil : member.leaves = []
    · rw [if_pos (List.isEmpty_iff.mpr hnil), Criterion.resolveParts_prunedAll rest,
        Criterion.resolveParts, Criterion.resolve_of_leaves_eq_nil member hnil]
      cases Criterion.resolveParts cx scope rest <;> rfl
    · have hconnective : member.pruned.connective = member.connective := by
        cases member
        rfl
      rw [if_neg (mt List.isEmpty_iff.mp hnil), Criterion.resolveParts, Criterion.resolveParts,
        Criterion.resolve_pruned member, Criterion.resolveParts_prunedAll rest, hconnective]

end

end Resolution

/-! ### The text of a criterion -/

/-- A criterion without leaves has no text.  The text of any other one is a row of symbols over
its leaves that has exactly one value for every assignment of values to them, that of the
tree.  Without the groups that have no leaves the criterion has the same text and values. -/
theorem Criterion.reads_resolve {cx : Context} {scope : Scope} {c : Criterion}
    {r : Option Expr} (h : c.resolve cx scope = .ok r) :
    (r = none ↔ c.leaves = []) ∧
    (∀ e, r = some e → ∃ symbols, (∀ s, e.render s = spelled s symbols) ∧
      List.Forall₂ (ResolvesTo cx scope) c.leaves (atoms symbols) ∧
      ∀ truth b, Reads .disjunction (assigned truth symbols) b ↔ b = c.holds truth) ∧
    c.pruned.resolve cx scope = .ok r := by
  have hstands := c.standsFor_resolve h
  refine ⟨hstands.eq_none_iff, ?_, (c.resolve_pruned).trans h⟩
  intro e he
  refine ⟨e.symbols, fun s => e.render_eq_spelled s, hstands.leaves e he, fun truth b => ?_⟩
  have hreads := (hstands.reads e he truth).operand.conjunction
  constructor
  · exact fun hb => hb.unique hreads
  · rintro rfl
    exact hreads

/-- Animals of a breed, or with a known breed, around a group without members. -/
def Farm.choice : Criterion :=
  .group [⟨.compare "breed" .equal (.text "angus"), false, .or⟩, .group [],
    ⟨.isNull "breed", true, .and⟩]

/-- The text of the choice means what the choice means. -/
theorem Criterion.reads_resolve_farm :
    ∃ r, Farm.choice.resolve (Farm.graph.context {}) (.uniform "t0") = .ok r ∧
      (r = none ↔ Farm.choice.leaves = []) ∧
      (∀ e, r = some e → ∃ symbols, (∀ s, e.render s = spelled s symbols) ∧
        List.Forall₂ (ResolvesTo (Farm.graph.context {}) (.uniform "t0")) Farm.choice.leaves
          (atoms symbols) ∧
        ∀ truth b, Reads .disjunction (assigned truth symbols) b ↔
          b = Farm.choice.holds truth) ∧
      Farm.choice.pruned.resolve (Farm.graph.context {}) (.uniform "t0") = .ok r :=
  ⟨_, rfl, Criterion.reads_resolve rfl⟩

end ObjectQuery.Query
