import ObjectQuery.Proofs.FragmentAlgebra
import ObjectQuery.Proofs.Outcome
import ObjectQuery.Query.Compile

/-!
# Effective predicates

What the rows of a node have to meet is resolved piece by piece: validity on its own, then the
node's criterion.  Here the two are put together again: the result is that of the effective
predicate of the node, between one pair of parentheses.

## Main Definitions

* `Criterion.renderEnclosed` — the text of a criterion between one pair of parentheses

## Main Statements

* `Criterion.resolve_validity` — validity as a criterion and as an expression
* `Node.resolvePredicate_eq` — the rows of a node meet its effective predicate
* `Condition.isTestExpr_resolve`, `Condition.resolve_group_eq` — what conditions resolve to
* `Criterion.renderEnclosed_eq` — which criteria have parentheses of their own
-/

namespace ObjectQuery.Query

open ObjectQuery.Sql ObjectQuery.Calendar ObjectQuery.Outcome

/-! ### Validity -/

/-- The criterion that a row is valid resolves to the condition that it is. -/
theorem Criterion.resolve_validity (cx : Context) (scope : Scope) (validFrom validTo : String)
    (date : Option DateTime) (leftJoined : Bool) (maxDate : DateTime) :
    (Criterion.validity validFrom validTo date leftJoined maxDate).resolve cx scope =
      .ok (some (validityExpr (scope.column validFrom) (scope.column validTo) date leftJoined
        maxDate)) := by
  cases date with
  | some date => rfl
  | none => cases leftJoined <;> rfl

/-- The validity of a node is resolved for the nodes that have one. -/
theorem NodeSettings.resolve_validity (n : NodeSettings) (cx : Context) (scope : Scope) :
    n.validityExpr? cx scope = none ∧ n.validity cx.maxDate = none ∨
    ∃ c e, n.validityExpr? cx scope = some e ∧ n.validity cx.maxDate = some c ∧
      c.resolve cx scope = .ok (some e) := by
  unfold NodeSettings.validityExpr? NodeSettings.validity
  split
  · exact Or.inl ⟨rfl, rfl⟩
  · exact Or.inr ⟨_, _, rfl, rfl, Criterion.resolve_validity ..⟩

/-! ### Effective predicates -/

/-- Behind another connective a criterion resolves to the same. -/
theorem Criterion.resolve_connectedBy (cx : Context) (scope : Scope) (c : Criterion)
    (connective : Connective) :
    (c.connectedBy connective).resolve cx scope = c.resolve cx scope := by
  cases c
  rfl

/-- A criterion behind validity: their group if the criterion resolves to something, else
validity alone. -/
theorem Criterion.resolve_group_pair {cx : Context} {scope : Scope} {c : Criterion} {e : Expr}
    (hc : c.resolve cx scope = .ok (some e)) (predicate : Criterion) :
    (Criterion.group [c.connectedBy .and, predicate]).resolve cx scope =
      (predicate.resolve cx scope).map fun own => withValidity (some e) (some own) := by
  have hfirst : (c.connectedBy .and).resolve cx scope = .ok (some e) :=
    (Criterion.resolve_connectedBy cx scope c .and).trans hc
  show ((Criterion.resolveParts cx scope [c.connectedBy .and, predicate]).map groupOf?).map _ = _
  rw [Criterion.resolveParts, Criterion.resolveParts, Criterion.resolveParts, hfirst]
  cases predicate.resolve cx scope with
  | error failure => rfl
  | ok own => cases own <;> rfl

/-- What the rows of a node have to meet is its effective predicate, between one pair of
parentheses. -/
theorem Node.resolvePredicate_eq (cx : Context) (scope : Scope) (n : Node) :
    n.resolvePredicate cx scope =
      match n.effectivePredicate cx.maxDate with
      | none => .ok none
      | some c => (c.resolve cx scope).map (Option.map Expr.enclosed) := by
  obtain ⟨settings, predicate⟩ := n
  rw [Node.resolvePredicate, Node.effectivePredicate]
  rcases settings.resolve_validity cx scope with ⟨hexpr, hnone⟩ | ⟨c, e, hexpr, hsome, hc⟩
  · cases predicate with
    | none => simp only [Criterion.resolveOwn, hexpr, hnone, withValidity]
    | some predicate =>
      simp only [Criterion.resolveOwn, hexpr, hnone]
      cases predicate.resolve cx scope <;> rfl
  · cases predicate with
    | none => simp only [Criterion.resolveOwn, hexpr, hsome, hc, withValidity]; rfl
    | some predicate =>
      simp only [Criterion.resolveOwn, hexpr, hsome, Criterion.resolve_connectedBy,
        Criterion.resolve_group_pair hc]
      -- The group of both has parentheses of its own.
      cases predicate.resolve cx scope with
      | error failure => rfl
      | ok own => cases own <;> rfl

/-! ### Tests -/

/-- Whether a condition is neither a group nor a free text. -/
def Condition.isTest : Condition → Bool
  | .group _ => false
  | .freeText _ _ => false
  | _ => true

/-- Whether an expression is neither put together from others nor a free text. -/
def isTestExpr : Expr → Bool
  | .group _ => false
  | .not _ => false
  | .raw _ _ => false
  | _ => true

/-- A test resolves to a test. -/
theorem Condition.isTestExpr_resolve {cx : Context} {scope : Scope} {c : Condition} {e : Expr}
    (h : c.resolve cx scope = .ok (some e)) (htest : c.isTest = true) : isTestExpr e = true := by
  cases c with
  | group members => cases htest
  | freeText sql values => cases htest
  | inSubquery field query =>
    obtain ⟨select, -, hselect⟩ := map_eq_ok_iff.mp h
    cases hselect
    rfl
  | linked near filter =>
    obtain ⟨linked, hlinked, hsome⟩ := map_eq_ok_iff.mp h
    cases hsome
    unfold LinkFilter.resolve at hlinked
    split at hlinked
    · cases hlinked
    · cases hlinked
      rfl
  | _ =>
    cases h
    rfl

/-- A group resolves to the group of a chain. -/
theorem Condition.resolve_group_eq {cx : Context} {scope : Scope} {members : List Criterion}
    {e : Expr} (h : (Condition.group members).resolve cx scope = .ok (some e)) :
    ∃ parts chain, Criterion.resolveParts cx scope members = .ok parts ∧
      Chain.ofParts? parts = some chain ∧ e = .group chain := by
  obtain ⟨parts, hparts, hgroup⟩ := map_eq_ok_iff.mp h
  obtain ⟨chain, hchain, rfl⟩ := Option.map_eq_some_iff.mp hgroup
  exact ⟨parts, chain, hparts, hchain, rfl⟩

/-! ### Parentheses -/

/-- Whether an expression has parentheses of its own. -/
def isGroupExpr : Expr → Bool
  | .group _ => true
  | _ => false

/-- A group is the text of its members between parentheses. -/
theorem Expr.render_group (s : Spelling) (members : Chain) :
    (Expr.group members).render s = (members.render s).parenthesized := by
  refine Fragment.eq_of_sql_of_values ?_ ?_
  · rfl
  · simp [Expr.render, Fragment.parenthesized]

/-- Only other expressions are put between parentheses. -/
theorem render_enclosed (s : Spelling) (e : Expr) :
    e.enclosed.render s = if isGroupExpr e then e.render s else (e.render s).parenthesized := by
  cases e with
  | group members => rfl
  | _ => exact Expr.render_group s (.last _)

/-- Tests have no parentheses of their own. -/
theorem isGroupExpr_of_isTestExpr {e : Expr} (h : isTestExpr e = true) :
    isGroupExpr e = false := by
  cases e with
  | group members => cases h
  | _ => rfl

/-- A negated criterion never resolves to a group, any other one if it is a group. -/
theorem Criterion.isGroupExpr_resolve {cx : Context} {scope : Scope} {c : Criterion} {e : Expr}
    (h : c.resolve cx scope = .ok (some e)) : isGroupExpr e = (c.isGroup && !c.negated) := by
  obtain ⟨condition, negated, connective⟩ := c
  obtain ⟨own, hown, hresult⟩ := map_eq_ok_iff.mp h
  cases negated with
  | true =>
    obtain ⟨inner, rfl, rfl⟩ := Option.map_eq_some_iff.mp hresult
    cases inner <;> simp [Expr.negated, isGroupExpr]
  | false =>
    cases hresult
    cases condition with
    | group members =>
      obtain ⟨parts, chain, -, -, rfl⟩ := Condition.resolve_group_eq hown
      rfl
    | freeText sql values =>
      cases hown
      rfl
    | _ => exact isGroupExpr_of_isTestExpr (Condition.isTestExpr_resolve hown rfl)

/-- The text of a criterion between one pair of parentheses; a group that is not negated
has one of its own. -/
def Criterion.renderEnclosed (cx : Context) (scope : Scope) (s : Spelling) (c : Criterion) :
    Except CompileError (Option Fragment) :=
  (c.resolve cx scope).map (Option.map fun e =>
    if c.isGroup && !c.negated then e.render s else (e.render s).parenthesized)

/-- The enclosed expression of a criterion has its enclosed text. -/
theorem Criterion.renderEnclosed_eq (cx : Context) (scope : Scope) (s : Spelling)
    (c : Criterion) :
    c.renderEnclosed cx scope s =
      (c.resolve cx scope).map (Option.map fun e => e.enclosed.render s) := by
  rw [Criterion.renderEnclosed]
  cases hc : c.resolve cx scope with
  | error failure => rfl
  | ok r =>
    cases r with
    | none => rfl
    | some e =>
      have henclosed := render_enclosed s e
      rw [Criterion.isGroupExpr_resolve hc] at henclosed
      exact congrArg (fun f => Except.ok (some f)) henclosed.symm

end ObjectQuery.Query
