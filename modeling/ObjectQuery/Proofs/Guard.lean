import ObjectQuery.Proofs.Effective
import ObjectQuery.Proofs.Lexemes
import ObjectQuery.Proofs.Meaning

/-!
# Validity in front of a node's criterion

Validity and the criterion of a node are joined by `AND` between one pair of parentheses.  Read
as a database reads it, the result holds exactly when validity holds and the criterion does,
unless a free text breaks out: free texts get no parentheses of their own, so one with an `OR`
of its own that stands next to an `AND` is torn apart.

## Main Definitions

* `Criterion.Tight`, `Criterion.Separated` — that no free text of a criterion breaks out
* `Criterion.demands` — the value of a node's criterion
* `Guards` — what stands for validity and a criterion

## Main Statements

* `Criterion.bound_resolve` — what resolves from such a criterion keeps together
* `Node.reads_resolvePredicate` — rows have to be valid and to meet the criterion
* `Node.reads_of_loose_freeText` — what rows have to meet if a free text breaks out
* `Node.exists_invalid_read` — then rows that are not valid can be selected
-/

namespace ObjectQuery.Query

open ObjectQuery.Sql ObjectQuery.Calendar ObjectQuery.Outcome

/-! ### Criteria that keep together -/

/-- A free text that can be read; all other leaves can. -/
def Condition.Readable (lx : Lexer) : Condition → Prop
  | .freeText sql values => lx.Readable .disjunction sql values
  | _ => True

/-- What can stand next to an `AND`: everything but a free text, not negated, with an `OR` of
its own. -/
def Criterion.Tight (lx : Lexer) : Criterion → Prop
  | ⟨.freeText sql values, false, _⟩ => lx.Readable .conjunction sql values
  | _ => True

mutual

/-- Inside the groups of a condition, what stands next to an `AND` is tight. -/
def Condition.Separated (lx : Lexer) : Condition → Prop
  | .group members => Criterion.SeparatedAll lx .or members
  | _ => True

/-- The same of a criterion. -/
def Criterion.Separated (lx : Lexer) : Criterion → Prop
  | ⟨condition, _, _⟩ => condition.Separated lx

/-- The same of the members of a group behind a connective.  Members without leaves leave no
trace. -/
def Criterion.SeparatedAll (lx : Lexer) (before : Connective) : List Criterion → Prop
  | [] => True
  | member :: rest =>
    if member.leaves.isEmpty then Criterion.SeparatedAll lx before rest
    else
      member.Separated lx ∧
      (before = .and ∨ member.connective = .and ∧ Criterion.leavesAll rest ≠ [] →
        member.Tight lx) ∧
      Criterion.SeparatedAll lx member.connective rest

end

/-- What keeps together as the parts of a chain behind a connective. -/
def PartsBound (lx : Lexer) (before : Connective) : List (Expr × Connective) → Prop
  | [] => True
  | (e, next) :: rest =>
    e.Bound lx ∧ (before = .and ∨ next = .and ∧ rest ≠ [] → e.Tight lx) ∧
      PartsBound lx next rest

/-- A chain keeps together if its parts do. -/
theorem Chain.bound_ofParts? {lx : Lexer} {before : Connective} {parts : List (Expr × Connective)}
    {chain : Chain} (hchain : Chain.ofParts? parts = some chain)
    (h : PartsBound lx before parts) : chain.Bound lx before := by
  induction parts generalizing before chain with
  | nil => cases hchain
  | cons part rest ih =>
    obtain ⟨e, next⟩ := part
    obtain ⟨hbound, htight, hrest⟩ := h
    rw [Chain.ofParts?] at hchain
    cases hothers : Chain.ofParts? rest with
    | none =>
      rw [hothers] at hchain
      cases hchain
      exact ⟨hbound, fun hbefore => htight (Or.inl hbefore)⟩
    | some others =>
      have hne : rest ≠ [] := by
        rintro rfl
        cases hothers
      rw [hothers] at hchain
      cases hchain
      refine ⟨hbound, ?_, ih hothers hrest⟩
      rintro (hbefore | hnext)
      · exact htight (Or.inl hbefore)
      · exact htight (Or.inr ⟨hnext, hne⟩)

section Resolution

variable {cx : Context} {scope : Scope} {lx : Lexer}

/-- A negated condition is tight and keeps together as the condition does. -/
theorem Expr.bound_negated {e : Expr} (h : e.Bound lx) :
    e.negated.Bound lx ∧ e.negated.Tight lx := by
  cases e with
  | group members => exact ⟨h, trivial⟩
  | _ => exact ⟨⟨h, fun hand => nomatch hand⟩, trivial⟩

/-- A test is tight and keeps together. -/
theorem Expr.bound_of_isTestExpr {e : Expr} (h : isTestExpr e = true) :
    e.Bound lx ∧ e.Tight lx := by
  cases e with
  | group _ | not _ | raw _ _ => cases h
  | _ => exact ⟨trivial, trivial⟩

/-- A tight criterion resolves to a tight condition. -/
theorem Criterion.tight_resolve {c : Criterion} {e : Expr} (h : c.resolve cx scope = .ok (some e))
    (htight : c.Tight lx) : e.Tight lx := by
  obtain ⟨condition, negated, connective⟩ := c
  obtain ⟨own, hown, hresult⟩ := map_eq_ok_iff.mp h
  cases negated with
  | true =>
    obtain ⟨inner, rfl, rfl⟩ := Option.map_eq_some_iff.mp hresult
    cases inner <;> trivial
  | false =>
    cases hresult
    cases condition with
    | freeText sql values =>
      cases hown
      exact htight
    | group members =>
      obtain ⟨parts, chain, -, -, rfl⟩ := Condition.resolve_group_eq hown
      trivial
    | _ => exact (Expr.bound_of_isTestExpr (Condition.isTestExpr_resolve hown rfl)).2

mutual

/-- What resolves from a condition with readable free texts, none of which breaks out, keeps
together. -/
theorem Condition.bound_resolve : ∀ (c : Condition) {e : Expr},
    (∀ leaf ∈ c.leaves, leaf.Readable lx) → c.Separated lx →
    c.resolve cx scope = .ok (some e) → e.Bound lx
  | .compare _ _ _, e, _, _, h =>
    (Expr.bound_of_isTestExpr (Condition.isTestExpr_resolve h rfl)).1
  | .compareFields _ _ _, e, _, _, h =>
    (Expr.bound_of_isTestExpr (Condition.isTestExpr_resolve h rfl)).1
  | .isNull _, e, _, _, h =>
    (Expr.bound_of_isTestExpr (Condition.isTestExpr_resolve h rfl)).1
  | .between _ _ _, e, _, _, h =>
    (Expr.bound_of_isTestExpr (Condition.isTestExpr_resolve h rfl)).1
  | .valueBetween _ _ _, e, _, _, h =>
    (Expr.bound_of_isTestExpr (Condition.isTestExpr_resolve h rfl)).1
  | .touches _ _, e, _, _, h =>
    (Expr.bound_of_isTestExpr (Condition.isTestExpr_resolve h rfl)).1
  | .inList _ _, e, _, _, h =>
    (Expr.bound_of_isTestExpr (Condition.isTestExpr_resolve h rfl)).1
  | .inSubquery _ _, e, _, _, h =>
    (Expr.bound_of_isTestExpr (Condition.isTestExpr_resolve h rfl)).1
  | .linked _ _, e, _, _, h =>
    (Expr.bound_of_isTestExpr (Condition.isTestExpr_resolve h rfl)).1
  | .freeText sql values, e, hread, _, h => by
    cases h
    exact hread _ List.mem_cons_self
  | .group members, e, hread, hsep, h => by
    obtain ⟨parts, chain, hparts, hchain, rfl⟩ := Condition.resolve_group_eq h
    exact Chain.bound_ofParts? hchain (Criterion.bound_resolveParts members .or hread hsep hparts)

theorem Criterion.bound_resolve : ∀ (c : Criterion) {e : Expr},
    (∀ leaf ∈ c.leaves, leaf.Readable lx) → c.Separated lx →
    c.resolve cx scope = .ok (some e) → e.Bound lx
  | ⟨condition, negated, connective⟩, e, hread, hsep, h => by
    obtain ⟨own, hown, hresult⟩ := map_eq_ok_iff.mp h
    cases negated with
    | true =>
      obtain ⟨inner, rfl, rfl⟩ := Option.map_eq_some_iff.mp hresult
      exact (Expr.bound_negated (Condition.bound_resolve condition hread hsep hown)).1
    | false =>
      cases hresult
      exact Condition.bound_resolve condition hread hsep hown

/-- The same of the members of a group: each resolves to a part, or leaves no trace. -/
theorem Criterion.bound_resolveParts : ∀ (members : List Criterion) (before : Connective)
    {parts : List (Expr × Connective)},
    (∀ leaf ∈ Criterion.leavesAll members, leaf.Readable lx) →
    Criterion.SeparatedAll lx before members →
    Criterion.resolveParts cx scope members = .ok parts → PartsBound lx before parts
  | [], before, parts, _, _, h => by
    cases h
    trivial
  | member :: rest, before, parts, hread, hsep, h => by
    obtain ⟨resolved, hresolved, h⟩ := bind_eq_ok_iff.mp h
    obtain ⟨others, hothers, h⟩ := bind_eq_ok_iff.mp h
    have hmember := fun leaf hleaf => hread leaf (List.mem_append_left _ hleaf)
    have hrest := fun leaf hleaf => hread leaf (List.mem_append_right _ hleaf)
    have hvanishes := (Criterion.standsFor_resolve member hresolved).eq_none_iff
    rw [Criterion.SeparatedAll] at hsep
    cases resolved with
    | none =>
      cases h
      rw [if_pos (List.isEmpty_iff.mpr (hvanishes.mp rfl))] at hsep
      exact Criterion.bound_resolveParts rest before hrest hsep hothers
    | some e =>
      cases h
      have hne : ¬member.leaves.isEmpty = true := by
        rw [List.isEmpty_iff, ← hvanishes]
        exact Option.some_ne_none e
      rw [if_neg hne] at hsep
      obtain ⟨hown, htight, hbehind⟩ := hsep
      have hnil := (Criterion.partsStandFor_resolveParts rest hothers).eq_nil_iff
      refine ⟨Criterion.bound_resolve member hmember hown hresolved, ?_,
        Criterion.bound_resolveParts rest member.connective hrest hbehind hothers⟩
      intro hand
      refine Criterion.tight_resolve hresolved (htight ?_)
      rwa [ne_eq, ← hnil]

end

end Resolution

/-! ### Validity and criterion -/

/-- The leaves of a criterion, if there is one. -/
def Criterion.leavesOf : Option Criterion → List Condition
  | none => []
  | some predicate => predicate.leaves

/-- Whether rows meet a criterion, for values of its leaves.  Without leaves it demands
nothing. -/
def Criterion.demands : Option Criterion → (Nat → Bool) → Bool
  | none, _ => true
  | some predicate, truth => predicate.leaves.isEmpty || predicate.holds truth

section Guard

variable {cx : Context} {scope : Scope} {lx : Lexer}

/-- Parentheses around a condition change neither its conditions nor its value. -/
theorem Expr.reads_enclosed {e : Expr} (h : e.Bound lx) :
    e.enclosed.Bound lx ∧ atoms e.enclosed.symbols = atoms e.symbols ∧
      ∀ truth b, Reads .operand (assigned truth e.symbols) b →
        Reads .operand (assigned truth e.enclosed.symbols) b := by
  have hlast : (Expr.group (.last e)).Bound lx ∧
      atoms (Expr.group (.last e)).symbols = atoms e.symbols ∧
      ∀ truth b, Reads .operand (assigned truth e.symbols) b →
        Reads .operand (assigned truth (Expr.group (.last e)).symbols) b := by
    refine ⟨⟨h, fun hand => nomatch hand⟩, atoms_enclosed _, fun truth b hb => ?_⟩
    exact Reads.group truth hb.operand.conjunction
  cases e with
  | group members => exact ⟨h, rfl, fun _ _ hb => hb⟩
  | _ => exact hlast

/-- What stands for validity and a node's criterion: first the leaves of validity, then those
of the criterion, and the value of both. -/
structure Guards (cx : Context) (scope : Scope) (lx : Lexer) (validity : Criterion)
    (predicate : Option Criterion) (e v : Expr) (own : List Expr) : Prop where
  bound : e.Bound lx
  atoms_eq : atoms e.symbols = atoms v.symbols ++ own
  leaves : List.Forall₂ (ResolvesTo cx scope) (Criterion.leavesOf predicate) own
  reads : ∀ truth, Reads .operand (assigned truth e.symbols)
    (validity.holds truth &&
      Criterion.demands predicate (later truth (atoms v.symbols).length))

/-- Validity alone guards what demands nothing. -/
theorem Guards.alone {validity : Criterion} {predicate : Option Criterion} {e v : Expr}
    (hbound : e.Bound lx) (hatoms : atoms e.symbols = atoms v.symbols)
    (hreads : ∀ truth, Reads .operand (assigned truth e.symbols) (validity.holds truth))
    (hleaves : Criterion.leavesOf predicate = []) :
    Guards cx scope lx validity predicate e v [] := by
  have hdemands : ∀ truth, Criterion.demands predicate truth = true := by
    intro truth
    cases predicate with
    | none => rfl
    | some predicate =>
      have hnil : predicate.leaves = [] := hleaves
      rw [Criterion.demands, hnil, List.isEmpty_nil, Bool.true_or]
  refine ⟨hbound, ?_, ?_, fun truth => ?_⟩
  · rw [hatoms, List.append_nil]
  · rw [hleaves]
    exact .nil
  · rw [hdemands, Bool.and_true]
    exact hreads truth

/-- Validity in front of a criterion that keeps together. -/
theorem Guards.both {validity predicate : Criterion} {v e : Expr}
    (hv : StandsFor cx scope (some v) validity.leaves validity.holds)
    (he : StandsFor cx scope (some e) predicate.leaves predicate.holds)
    (hvalidity : v.Bound lx ∧ v.Tight lx) (hown : e.Bound lx ∧ e.Tight lx) :
    Guards cx scope lx validity (some predicate) (.group (.more v .and (.last e))) v
      (atoms e.symbols) := by
  refine ⟨⟨hvalidity.1, fun _ => hvalidity.2, hown.1, fun _ => hown.2⟩, ?_, he.leaves e rfl,
    fun truth => ?_⟩
  · rw [Expr.symbols, atoms_enclosed, Chain.symbols, atoms_append]
    rfl
  · have hne : predicate.leaves.isEmpty = false := by
      rw [Bool.eq_false_iff, ne_eq, List.isEmpty_iff, ← he.eq_none_iff]
      exact Option.some_ne_none e
    rw [Criterion.demands, hne, Bool.false_or]
    refine Reads.group truth ?_
    rw [Chain.symbols, assigned_append]
    have hand := (hv.reads v rfl truth).operand.and
      (he.reads e rfl (later truth (atoms v.symbols).length)).operand
    exact hand.conjunction

/-- What validity is resolved to keeps together, and consists of tests. -/
structure ResolvesValidity (cx : Context) (scope : Scope) (lx : Lexer) (validity : Criterion)
    (v : Expr) : Prop where
  resolve : validity.resolve cx scope = .ok (some v)
  bound : v.Bound lx
  tight : v.Tight lx
  tests : ∀ e ∈ atoms v.symbols, isTestExpr e = true

/-- The condition that a row is valid consists of tests. -/
theorem resolvesValidity_validityExpr (cx : Context) (scope : Scope) (lx : Lexer)
    (validFrom validTo : String) (date : Option DateTime) (leftJoined : Bool)
    (maxDate : DateTime) :
    ResolvesValidity cx scope lx (.validity validFrom validTo date leftJoined maxDate)
      (validityExpr (scope.column validFrom) (scope.column validTo) date leftJoined maxDate) := by
  have hresolve := Criterion.resolve_validity cx scope validFrom validTo date leftJoined maxDate
  cases date with
  | some date =>
    refine ⟨hresolve, trivial, trivial, ?_⟩
    simp [validityExpr, Expr.symbols, atoms, isTestExpr]
  | none =>
    cases leftJoined with
    | false =>
      refine ⟨hresolve, trivial, trivial, ?_⟩
      simp [validityExpr, Expr.symbols, atoms, isTestExpr]
    | true =>
      refine ⟨hresolve, ⟨trivial, fun _ => trivial, trivial, fun _ => trivial⟩, trivial, ?_⟩
      simp [validityExpr, Expr.symbols, Chain.symbols, atoms, isTestExpr]

/-- A table node that shows no history has a validity. -/
theorem NodeSettings.exists_validity {n : NodeSettings} (htable : n.table?.isSome = true)
    (hhistory : n.history = false) (cx : Context) (scope : Scope) (lx : Lexer) :
    ∃ validity v, n.validity cx.maxDate = some validity ∧ n.validityExpr? cx scope = some v ∧
      ResolvesValidity cx scope lx validity v := by
  have hhas : (n.history || n.table?.isNone) = false := by
    rw [hhistory, Option.isNone_eq_false_iff.mpr htable]
    rfl
  refine ⟨_, _, ?_, ?_, resolvesValidity_validityExpr cx scope lx Catalog.validFrom
    Catalog.validTo n.referenceDate (n.join == .left) cx.maxDate⟩
  · rw [NodeSettings.validity, hhas]
    rfl
  · rw [NodeSettings.validityExpr?, hhas]
    rfl

/-- The rows of a table that shows no history have to meet validity and the criterion. -/
theorem Node.guards_resolvePredicate {n : Node} {r : Option Expr} {validity : Criterion}
    {v : Expr} (hexpr : n.validityExpr? cx scope = some v)
    (hv : ResolvesValidity cx scope lx validity v)
    (hread : ∀ p, n.predicate = some p → ∀ leaf ∈ p.leaves, leaf.Readable lx)
    (htight : ∀ p, n.predicate = some p → p.Tight lx ∧ p.Separated lx)
    (h : n.resolvePredicate cx scope = .ok r) :
    ∃ e own, r = some e ∧ Guards cx scope lx validity n.predicate e v own := by
  have hvalidity := validity.standsFor_resolve hv.resolve
  obtain ⟨hbound, hatoms, hreads⟩ := Expr.reads_enclosed hv.bound
  rw [Node.resolvePredicate] at h
  cases hp : n.predicate with
  | none =>
    rw [hp, Criterion.resolveOwn, hexpr] at h
    cases h
    refine ⟨_, [], rfl, Guards.alone hbound hatoms (fun truth => ?_) rfl⟩
    exact hreads truth _ (hvalidity.reads v rfl truth)
  | some predicate =>
    rw [hp, Criterion.resolveOwn, hexpr] at h
    obtain ⟨own, hown, rfl⟩ := map_eq_ok_iff.mp h
    have hstands := predicate.standsFor_resolve hown
    cases own with
    -- The criterion leaves no trace, but its group keeps its parentheses.
    | none =>
      refine ⟨_, [], rfl, Guards.alone ⟨hv.bound, fun _ => hv.tight⟩ (atoms_enclosed _)
        (fun truth => ?_) (hstands.eq_none_iff.mp rfl)⟩
      exact Reads.group truth (hvalidity.reads v rfl truth).operand.conjunction
    | some e =>
      obtain ⟨hptight, hseparated⟩ := htight predicate hp
      refine ⟨_, _, rfl, Guards.both hvalidity hstands ⟨hv.bound, hv.tight⟩ ⟨?_, ?_⟩⟩
      · exact Criterion.bound_resolve predicate (hread predicate hp) hseparated hown
      · exact Criterion.tight_resolve hown hptight

/-! ### Guarded rows -/

variable {s : Spelling}

/-- A test is one lexeme. -/
theorem lexemes_of_isTestExpr {e : Expr} (h : isTestExpr e = true) :
    Symbol.lexemes s lx (.atom e) = [.atom (e.render s)] := by
  cases e with
  | group _ | not _ | raw _ _ => cases h
  | _ => rfl

/-- Only the values of its leaves matter to a tree that something stands for. -/
theorem StandsFor.holds_congr {e : Expr} {leaves : List Condition}
    {holds : (Nat → Bool) → Bool} (h : StandsFor cx scope (some e) leaves holds)
    {truth truth' : Nat → Bool} (htruth : ∀ i < leaves.length, truth i = truth' i) :
    holds truth = holds truth' := by
  rw [(h.leaves e rfl).length_eq] at htruth
  have hreads := h.reads e rfl truth
  rw [assigned_congr htruth] at hreads
  exact hreads.operand.conjunction.unique (h.reads e rfl truth').operand.conjunction

/-- The values in front of all others are those of validity, with free texts taken as units or
not. -/
theorem ResolvesValidity.unitValues {validity : Criterion} {v : Expr}
    (hv : ResolvesValidity cx scope lx validity v) (own : List Expr) (truth : Nat → Bool) :
    validity.holds (unitValues s lx (atoms v.symbols ++ own) truth) = validity.holds truth ∧
      later (unitValues s lx (atoms v.symbols ++ own) truth) (atoms v.symbols).length =
        unitValues s lx own (later truth (atoms v.symbols).length) := by
  have hstands := validity.standsFor_resolve hv.resolve
  obtain ⟨hfirst, hlater⟩ := unitValues_append (s := s)
    (fun e he => lexemes_of_isTestExpr (hv.tests e he)) own truth
  refine ⟨hstands.holds_congr ?_, hlater⟩
  rwa [(hstands.leaves v rfl).length_eq]

/-- Validity is read with its own value, and shows its own conditions. -/
theorem ResolvesValidity.lexed {validity : Criterion} {v : Expr}
    (hv : ResolvesValidity cx scope lx validity v) (truth : Nat → Bool) :
    Reads .conjunction (lexed s lx truth v.symbols) (validity.holds truth) ∧
      width s lx v.symbols = (atoms v.symbols).length := by
  obtain ⟨b, hunits, hlexed⟩ := ((v.reads_lexemes hv.bound (s := s)) truth).2 hv.tight
  have hreads := (validity.standsFor_resolve hv.resolve).reads v rfl
    (Sql.unitValues s lx (atoms v.symbols) truth)
  have hvalue := (hv.unitValues (s := s) [] truth).1
  rw [List.append_nil] at hvalue
  rw [collapsed_eq_assigned] at hunits
  rw [hvalue] at hreads
  have hb := hunits.operand.conjunction.unique hreads.operand.conjunction
  constructor
  · rwa [← hb]
  · rw [width, atoms_lexemes]
    have hparts : ∀ e ∈ atoms v.symbols, Expr.parts s lx e = [e.render s] := by
      intro e he
      rw [Expr.parts, lexemes_of_isTestExpr (hv.tests e he)]
      rfl
    rw [List.flatMap_congr hparts]
    simp

end Guard

/-- The rows of a table that shows no history are read by the lexemes of one text, free texts
included: they have to be valid and to meet the criterion.  Every free text counts as a unit,
if none breaks out. -/
theorem Node.reads_resolvePredicate {cx : Context} {scope : Scope} (s : Spelling) (lx : Lexer)
    {n : Node} {r : Option Expr} (htable : n.table?.isSome = true) (hhistory : n.history = false)
    (hread : ∀ p, n.predicate = some p → ∀ leaf ∈ p.leaves, leaf.Readable lx)
    (htight : ∀ p, n.predicate = some p → p.Tight lx ∧ p.Separated lx)
    (h : n.resolvePredicate cx scope = .ok r) :
    ∃ validity e first own, n.validity cx.maxDate = some validity ∧ r = some e ∧
      Lexeme.text (e.lexemes s lx) = e.render s ∧
      List.Forall₂ (ResolvesTo cx scope) validity.leaves first ∧
      List.Forall₂ (ResolvesTo cx scope) (Criterion.leavesOf n.predicate) own ∧
      atoms (Lexeme.symbols (e.lexemes s lx)) = (first ++ own).flatMap (Expr.parts s lx) ∧
      ∀ truth b, Reads .disjunction (assigned truth (Lexeme.symbols (e.lexemes s lx))) b ↔
        b = (validity.holds truth &&
          Criterion.demands n.predicate (unitValues s lx own (later truth first.length))) := by
  obtain ⟨validity, v, hvalidity, hexpr, hv⟩ := NodeSettings.exists_validity htable hhistory cx
    scope lx
  obtain ⟨e, own, hr, hguards⟩ := Node.guards_resolvePredicate hexpr hv hread htight h
  have hfirst := (validity.standsFor_resolve hv.resolve).leaves v rfl
  refine ⟨validity, e, atoms v.symbols, own, hvalidity, hr, e.text_lexemes s lx, hfirst,
    hguards.leaves, ?_, fun truth b => ?_⟩
  · rw [← hguards.atoms_eq]
    exact atoms_lexemes s lx e.symbols
  · have hreads := hguards.reads (unitValues s lx (atoms e.symbols) truth)
    obtain ⟨hholds, hlater⟩ := hv.unitValues (s := s) own truth
    rw [hguards.atoms_eq, hholds, hlater] at hreads
    rw [← hguards.atoms_eq] at hreads
    exact Expr.reads_lexemes_iff hguards.bound truth hreads.operand.conjunction b

/-- Next to validity, a free text with an `OR` of its own is torn apart: validity counts only
for what stands in front of the `OR`. -/
theorem Node.reads_of_loose_freeText (cx : Context) (scope : Scope) (s : Spelling) (lx : Lexer)
    {n : Node} {sql : String} {values : List Value} {connective : Connective}
    {front back : List (Symbol Fragment)} (htable : n.table?.isSome = true)
    (hhistory : n.history = false)
    (hpredicate : n.predicate = some ⟨.freeText sql values, false, connective⟩)
    (htext : Lexeme.symbols (lx.lexemes sql values) =
      front ++ .mark (.connective .or) :: back) :
    ∃ validity e first, n.validity cx.maxDate = some validity ∧
      n.resolvePredicate cx scope = .ok (some e) ∧
      List.Forall₂ (ResolvesTo cx scope) validity.leaves first ∧
      ∀ truth a b, Reads .conjunction (assigned (later truth first.length) front) a →
        Reads .disjunction
          (assigned (later truth (first.length + (atoms front).length)) back) b →
        Reads .disjunction (assigned truth (Lexeme.symbols (e.lexemes s lx)))
          (validity.holds truth && a || b) := by
  obtain ⟨validity, v, hvalidity, hexpr, hv⟩ := NodeSettings.exists_validity htable hhistory cx
    scope lx
  have hfirst := (validity.standsFor_resolve hv.resolve).leaves v rfl
  refine ⟨validity, .group (.more v .and (.last (.raw sql values))), atoms v.symbols, hvalidity,
    ?_, hfirst, fun truth a b ha hb => ?_⟩
  · rw [Node.resolvePredicate, hpredicate, Criterion.resolveOwn, hexpr]
    rfl
  · obtain ⟨hreads, hwidth⟩ := hv.lexed (s := s) truth
    have hown : lexed s lx (later truth (width s lx v.symbols)) (Expr.raw sql values).symbols =
        assigned (later truth (atoms v.symbols).length) front ++ .mark (.connective .or) ::
          assigned (later truth ((atoms v.symbols).length + (atoms front).length)) back := by
      rw [hwidth, ← later_later]
      show assigned _ (Lexeme.symbols
        (List.flatMap (Symbol.lexemes s lx) [.atom (Expr.raw sql values)])) = _
      rw [List.flatMap_singleton]
      show assigned _ (Lexeme.symbols (lx.lexemes sql values)) = _
      rw [htext, assigned_append]
      rfl
    have hrow : assigned truth (Lexeme.symbols
        ((Expr.group (.more v .and (.last (.raw sql values)))).lexemes s lx)) =
        .mark .opening :: ((lexed s lx truth v.symbols ++ .mark (.connective .and) ::
          lexed s lx (later truth (width s lx v.symbols)) (Expr.raw sql values).symbols) ++
            [.mark .closing]) := by
      show Sql.lexed s lx truth (.mark .opening ::
        ((v.symbols ++ .mark (.connective .and) :: (Expr.raw sql values).symbols) ++
          [.mark .closing])) = _
      rw [lexed_mark, lexed_append, lexed_append, lexed_mark]
      rfl
    have hvalid := (hreads.and ha).conjunction.or hb
    rw [hrow, hown]
    rw [List.append_assoc] at hvalid
    exact hvalid.enclosed.operand.conjunction

/-! ### Animals -/

namespace Farm

/-- The animals of a breed, or without a known breed, as a free text. -/
def eitherBreed : String := "breed = 'angus' OR breed IS NULL"

/-- The free text is taken apart at its operator; no other text is. -/
def lexer : Lexer where
  lexemes sql values :=
    if sql = eitherBreed ∧ values = [] then
      [.atom (.text "breed = 'angus'"), .mark (.connective .or) " OR ",
        .atom (.text "breed IS NULL")]
    else [.atom ⟨sql, values⟩]
  text_lexemes sql values := by
    split
    · rename_i h
      rw [h.1, h.2]
      rfl
    · rfl

/-- The animals that meet a criterion. -/
def animalsWith (predicate : Criterion) : Node where
  source := some (.table animals)
  predicate := some predicate

/-- Standard SQL. -/
def spelling : Spelling := ⟨.standard, .simpleFeatures none⟩

theorem symbols_eitherBreed : Lexeme.symbols (lexer.lexemes eitherBreed []) =
    [.atom (.text "breed = 'angus'")] ++ .mark (.connective .or) ::
      [.atom (.text "breed IS NULL")] := rfl

/-- The free text is an expression. -/
theorem readable_eitherBreed : lexer.Readable .disjunction eitherBreed [] := by
  intro truth
  rw [symbols_eitherBreed]
  exact ⟨_, (Reads.atom (truth 0)).operand.conjunction.or
    (Reads.atom (truth 1)).operand.conjunction⟩

/-- The free text as an alternative to a test. -/
def anyBreed : Criterion :=
  .any [⟨.freeText eitherBreed [], false, .and⟩, ⟨.isNull "status", true, .and⟩]

end Farm

/-- As an alternative, the free text keeps together. -/
theorem Node.reads_resolvePredicate_farm :
    let cx := Farm.graph.context {}
    let scope := Scope.uniform "t0"
    let n := Farm.animalsWith Farm.anyBreed
    ∃ r validity e first own, n.validity cx.maxDate = some validity ∧ r = some e ∧
      n.resolvePredicate cx scope = .ok r ∧
      Lexeme.text (e.lexemes Farm.spelling Farm.lexer) = e.render Farm.spelling ∧
      List.Forall₂ (ResolvesTo cx scope) validity.leaves first ∧
      List.Forall₂ (ResolvesTo cx scope) (Criterion.leavesOf n.predicate) own ∧
      atoms (Lexeme.symbols (e.lexemes Farm.spelling Farm.lexer)) =
        (first ++ own).flatMap (Expr.parts Farm.spelling Farm.lexer) ∧
      ∀ truth b, Reads .disjunction (assigned truth
          (Lexeme.symbols (e.lexemes Farm.spelling Farm.lexer))) b ↔
        b = (validity.holds truth && Criterion.demands n.predicate
          (unitValues Farm.spelling Farm.lexer own (later truth first.length))) := by
  have hread : ∀ p, some Farm.anyBreed = some p → ∀ leaf ∈ p.leaves,
      leaf.Readable Farm.lexer := by
    rintro p ⟨⟩ leaf hleaf
    have hcases : leaf = .freeText Farm.eitherBreed [] ∨ leaf = .isNull "status" := by
      simpa [Farm.anyBreed, Criterion.any, Criterion.group, Criterion.connectedBy,
        Criterion.leaves, Condition.leaves, Criterion.leavesAll] using hleaf
    rcases hcases with rfl | rfl
    · exact Farm.readable_eitherBreed
    · trivial
  have htight : ∀ p, some Farm.anyBreed = some p →
      p.Tight Farm.lexer ∧ p.Separated Farm.lexer := by
    rintro p ⟨⟩
    refine ⟨trivial, trivial, ?_, trivial, fun _ => trivial, trivial⟩
    rintro (hbefore | ⟨hnext, -⟩)
    · cases hbefore
    · cases hnext
  let n := Farm.animalsWith Farm.anyBreed
  obtain ⟨r, hresolve⟩ : ∃ r, n.resolvePredicate (Farm.graph.context {}) (.uniform "t0") = .ok r :=
    ⟨_, rfl⟩
  obtain ⟨validity, e, first, own, hvalidity, hr, h⟩ :=
    Node.reads_resolvePredicate Farm.spelling Farm.lexer (n := n) rfl rfl hread htight hresolve
  exact ⟨r, validity, e, first, own, hvalidity, hr, hresolve, h⟩

/-- On its own, the free text lets deleted animals without a known breed pass, though it can be
read and the validity of the animals does not hold. -/
theorem Node.exists_invalid_read :
    Farm.lexer.Readable .disjunction Farm.eitherBreed [] ∧
    ∃ validity e truth,
      (Farm.animalsWith ⟨.freeText Farm.eitherBreed [], false, .and⟩).validity .endOfTime =
        some validity ∧
      (Farm.animalsWith ⟨.freeText Farm.eitherBreed [], false, .and⟩).resolvePredicate
        (Farm.graph.context {}) (.uniform "t0") = .ok (some e) ∧
      e.render Farm.spelling =
        ⟨"(t0.\"dt_delete\" = ? AND breed = 'angus' OR breed IS NULL)", [.date .endOfTime]⟩ ∧
      Lexeme.text (e.lexemes Farm.spelling Farm.lexer) = e.render Farm.spelling ∧
      validity.holds truth = false ∧
      Reads .disjunction (assigned truth
        (Lexeme.symbols (e.lexemes Farm.spelling Farm.lexer))) true := by
  let n := Farm.animalsWith ⟨.freeText Farm.eitherBreed [], false, .and⟩
  have hvalidity : n.validity .endOfTime =
    some (Criterion.equals Catalog.validTo (.date .endOfTime)) := rfl
  obtain ⟨validity, e, first, hsome, hresolve, hfirst, hreads⟩ :=
    Node.reads_of_loose_freeText (Farm.graph.context {}) (.uniform "t0") Farm.spelling Farm.lexer
      (n := n) rfl rfl rfl Farm.symbols_eitherBreed
  cases hvalidity.symm.trans hsome
  have hlength : first.length = 1 := hfirst.length_eq.symm
  -- The row is deleted and has no known breed.
  let truth : Nat → Bool := fun i => i == 2
  refine ⟨Farm.readable_eitherBreed, _, e, truth, hvalidity, hresolve, ?_,
    e.text_lexemes Farm.spelling Farm.lexer, rfl, ?_⟩
  · cases hresolve
    rfl
  · refine hreads truth false true ?_ ?_
    · rw [hlength]
      exact (Reads.atom false).operand
    · rw [hlength]
      exact (Reads.atom true).operand.conjunction

end ObjectQuery.Query
