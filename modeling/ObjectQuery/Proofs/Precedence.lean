import ObjectQuery.Proofs.FragmentAlgebra
import ObjectQuery.Sql.Rendering

/-!
# Reading boolean expressions

A rendered condition is a row of symbols: conditions without parentheses of their own, `NOT`,
connectives and parentheses.  Read with `NOT` before `AND` before `OR`, such a row has at most
one value for given values of its conditions.

The grammar leaves open how a run of equal connectives is grouped.  That its readings agree is
shown with a machine that walks over the symbols once and keeps what is pending at every level
of parentheses.

## Main Definitions

* `Symbol` — a symbol of a boolean expression
* `Reads` — the grammar, with the values of what it reads
* `Frame`, `Frame.run` — the machine
* `Expr.symbols`, `Chain.symbols` — the symbols of a condition
* `combined` — the value of conditions with connectives

## Main Statements

* `Reads.runs`, `Reads.unique` — the machine computes the value of every reading
* `Expr.render_eq_spelled` — a condition is rendered symbol by symbol
* `Reads.more` — a condition behind a conjunction, and what follows
-/

namespace ObjectQuery.Sql

/-! ### Symbols -/

/-- An operator or a parenthesis. -/
inductive Mark
  | negation
  | connective (c : Connective)
  | opening
  | closing
  deriving DecidableEq, Repr

/-- A symbol of a boolean expression over given conditions. -/
inductive Symbol (α : Type)
  | atom (condition : α)
  | mark (m : Mark)
  deriving DecidableEq, Repr

/-- The conditions of a row of symbols. -/
def atoms {α : Type} : List (Symbol α) → List α
  | [] => []
  | .atom condition :: rest => condition :: atoms rest
  | .mark _ :: rest => atoms rest

/-- The values of all but the first conditions. -/
def later (truth : Nat → Bool) (n : Nat) : Nat → Bool := fun i => truth (n + i)

/-- The symbols with the conditions replaced by their values, the `i`-th condition by the
`i`-th value. -/
def assigned {α : Type} (truth : Nat → Bool) : List (Symbol α) → List (Symbol Bool)
  | [] => []
  | .atom _ :: rest => .atom (truth 0) :: assigned (later truth 1) rest
  | .mark m :: rest => .mark m :: assigned truth rest

theorem later_later (truth : Nat → Bool) (m n : Nat) :
    later (later truth m) n = later truth (m + n) := by
  funext i
  rw [later, later, later, Nat.add_assoc]

theorem later_zero (truth : Nat → Bool) : later truth 0 = truth := by
  funext i
  rw [later, Nat.zero_add]

section Rows

variable {α : Type} (v w : List (Symbol α))

theorem atoms_append : atoms (v ++ w) = atoms v ++ atoms w := by
  induction v with
  | nil => rfl
  | cons symbol v ih =>
    cases symbol with
    | atom condition => exact congrArg (condition :: ·) ih
    | mark m => exact ih

/-- The symbols behind others get the values behind theirs. -/
theorem assigned_append (truth : Nat → Bool) :
    assigned truth (v ++ w) = assigned truth v ++ assigned (later truth (atoms v).length) w := by
  induction v generalizing truth with
  | nil => exact congrArg (assigned · w) (later_zero truth).symm
  | cons symbol v ih =>
    cases symbol with
    | atom condition =>
      rw [List.cons_append, assigned, ih, later_later, Nat.add_comm 1]
      rfl
    | mark m =>
      rw [List.cons_append, assigned, ih]
      rfl

end Rows

/-! ### The grammar -/

/-- What binds tighter than which connective: an operand can stand on either side of `AND`, a
conjunction on either side of `OR`. -/
inductive Precedence
  | operand
  | conjunction
  | disjunction
  deriving DecidableEq, Repr

/-- A row of symbols over truth values can be read as an expression with a value. -/
inductive Reads : Precedence → List (Symbol Bool) → Bool → Prop
  | atom (b : Bool) : Reads .operand [.atom b] b
  | enclosed {w : List (Symbol Bool)} {b : Bool} (h : Reads .disjunction w b) :
      Reads .operand (.mark .opening :: (w ++ [.mark .closing])) b
  | negation {w : List (Symbol Bool)} {b : Bool} (h : Reads .operand w b) :
      Reads .operand (.mark .negation :: w) (!b)
  | operand {w : List (Symbol Bool)} {b : Bool} (h : Reads .operand w b) :
      Reads .conjunction w b
  | and {v w : List (Symbol Bool)} {a b : Bool} (hv : Reads .conjunction v a)
      (hw : Reads .conjunction w b) :
      Reads .conjunction (v ++ .mark (.connective .and) :: w) (a && b)
  | conjunction {w : List (Symbol Bool)} {b : Bool} (h : Reads .conjunction w b) :
      Reads .disjunction w b
  | or {v w : List (Symbol Bool)} {a b : Bool} (hv : Reads .disjunction v a)
      (hw : Reads .disjunction w b) :
      Reads .disjunction (v ++ .mark (.connective .or) :: w) (a || b)

/-! ### One value -/

/-- What is pending at one level of parentheses: whether a finished conjunction holds, whether
the current one holds so far, and whether the next operand is negated. -/
structure Frame where
  settled : Bool
  running : Bool
  negated : Bool

namespace Frame

/-- The level in front of its first symbol. -/
def start : Frame := ⟨false, true, false⟩

/-- The value of a level that ends here. -/
def value (f : Frame) : Bool := f.settled || f.running

/-- The level behind another operand. -/
def feed (f : Frame) (b : Bool) : Frame := ⟨f.settled, f.running && (b != f.negated), false⟩

/-- What a symbol does to the current level and the levels around it. -/
def step : Frame × List Frame → Symbol Bool → Frame × List Frame
  | (f, outer), .atom b => (f.feed b, outer)
  | (f, outer), .mark .negation => ({ f with negated := !f.negated }, outer)
  | (f, outer), .mark (.connective .and) => (f, outer)
  | (f, outer), .mark (.connective .or) => (⟨f.value, true, false⟩, outer)
  | (f, outer), .mark .opening => (.start, f :: outer)
  | (f, enclosing :: outer), .mark .closing => (enclosing.feed f.value, outer)
  | (f, []), .mark .closing => (f, [])

/-- What a row of symbols does to them. -/
def run (state : Frame × List Frame) (w : List (Symbol Bool)) : Frame × List Frame :=
  w.foldl step state

theorem run_append (state : Frame × List Frame) (v w : List (Symbol Bool)) :
    run state (v ++ w) = run (run state v) w := List.foldl_append

end Frame

/-- The machine reads a value: an operand and a conjunction are fed to the current level, a
disjunction is what the level has settled behind it. -/
def Runs : Precedence → List (Symbol Bool) → Bool → Prop
  | .operand, w, b => ∀ f outer, Frame.run (f, outer) w = (f.feed b, outer)
  | .conjunction, w, b => ∀ f outer, f.negated = false → Frame.run (f, outer) w = (f.feed b, outer)
  | .disjunction, w, b => ∀ f outer, f.running = true → f.negated = false →
      ∃ last, Frame.run (f, outer) w = (last, outer) ∧ last.value = (f.settled || b)

/-- The machine computes the value of every reading. -/
theorem Reads.runs {p : Precedence} {w : List (Symbol Bool)} {b : Bool} (h : Reads p w b) :
    Runs p w b := by
  induction h with
  | atom b => exact fun f outer => rfl
  -- The level inside starts anew, and the one around it is fed its value.
  | enclosed _ ih =>
    intro f outer
    obtain ⟨last, hrun, hvalue⟩ := ih .start (f :: outer) rfl rfl
    show Frame.run (.start, f :: outer) (_ ++ [_]) = _
    rw [Frame.run_append, hrun]
    show (f.feed last.value, outer) = _
    rw [hvalue]
    rfl
  | @negation _ b _ ih =>
    intro f outer
    show Frame.run ({ f with negated := !f.negated }, outer) _ = _
    rw [ih, Frame.feed, Frame.feed]
    cases b <;> cases f.negated <;> rfl
  | operand _ ih => exact fun f outer _ => ih f outer
  | @and v w a b _ _ ihv ihw =>
    intro f outer hf
    rw [Frame.run_append, ihv f outer hf]
    show Frame.run (f.feed a, outer) w = _
    rw [ihw (f.feed a) outer rfl]
    simp [Frame.feed, hf, Bool.and_assoc]
  | @conjunction w b _ ih =>
    intro f outer hrunning hnegated
    refine ⟨f.feed b, ih f outer hnegated, ?_⟩
    simp [Frame.feed, Frame.value, hrunning, hnegated]
  -- What the left side comes to is settled where the right side begins.
  | @or v w a b _ _ ihv ihw =>
    intro f outer hrunning hnegated
    obtain ⟨middle, hmiddle, hvalue⟩ := ihv f outer hrunning hnegated
    obtain ⟨last, hlast, hresult⟩ := ihw ⟨middle.value, true, false⟩ outer rfl rfl
    refine ⟨last, ?_, ?_⟩
    · rw [Frame.run_append, hmiddle]
      exact hlast
    · rw [hresult, hvalue, Bool.or_assoc]

/-- A row of symbols has one value at most. -/
theorem Reads.unique {w : List (Symbol Bool)} {a b : Bool} (ha : Reads .disjunction w a)
    (hb : Reads .disjunction w b) : a = b := by
  obtain ⟨last, hlast, hvalue⟩ := ha.runs .start [] rfl rfl
  obtain ⟨last', hlast', hvalue'⟩ := hb.runs .start [] rfl rfl
  rw [hlast] at hlast'
  cases hlast'
  rw [hvalue] at hvalue'
  exact hvalue'

/-! ### The symbols of a condition -/

mutual

/-- The symbols of a condition. -/
def Expr.symbols : Expr → List (Symbol Expr)
  | .group members => .mark .opening :: (members.symbols ++ [.mark .closing])
  | .not members =>
    .mark .negation :: .mark .opening :: (members.symbols ++ [.mark .closing])
  | condition => [.atom condition]

/-- The symbols of conditions with connectives. -/
def Chain.symbols : Chain → List (Symbol Expr)
  | .last condition => condition.symbols
  | .more condition connective rest =>
    condition.symbols ++ .mark (.connective connective) :: rest.symbols

end

/-- The text of an operator or a parenthesis. -/
def Mark.spell (w : Vocabulary) : Mark → String
  | .negation => w .negation ++ " "
  | .connective c => " " ++ w c.keyword ++ " "
  | .opening => "("
  | .closing => ")"

/-- A symbol over conditions in a dialect. -/
def Symbol.spell (s : Spelling) : Symbol Expr → Fragment
  | .atom condition => condition.render s
  | .mark m => .text (m.spell s.words)

/-- A row of symbols in a dialect. -/
def spelled (s : Spelling) (w : List (Symbol Expr)) : Fragment :=
  .join "" (w.map (Symbol.spell s))

variable (s : Spelling)

theorem spelled_cons (symbol : Symbol Expr) (w : List (Symbol Expr)) :
    spelled s (symbol :: w) = symbol.spell s ++ spelled s w :=
  Fragment.join_empty_cons _ _

theorem spelled_append (v w : List (Symbol Expr)) :
    spelled s (v ++ w) = spelled s v ++ spelled s w := by
  rw [spelled, List.map_append]
  exact Fragment.join_empty_append _ _

/-- Symbols between parentheses. -/
theorem spelled_enclosed (w : List (Symbol Expr)) :
    spelled s (.mark .opening :: (w ++ [.mark .closing])) =
      .text "(" ++ spelled s w ++ .text ")" := by
  rw [spelled_cons, spelled_append, ← Fragment.append_assoc]
  rfl

mutual

/-- A condition is rendered symbol by symbol. -/
theorem Expr.render_eq_spelled : ∀ e : Expr, e.render s = spelled s e.symbols
  | .group members => by
    rw [Expr.symbols, spelled_enclosed, ← Chain.render_eq_spelled members, Expr.render]
  | .not members => by
    have hopening : Fragment.text (s.words .negation ++ " (") =
        .text (s.words .negation ++ " ") ++ .text "(" := by
      show _ = Fragment.text (s.words .negation ++ " " ++ "(")
      rw [String.append_assoc]
      rfl
    rw [Expr.symbols, spelled_cons, spelled_enclosed, ← Chain.render_eq_spelled members,
      Expr.render, hopening, ← Fragment.append_assoc, ← Fragment.append_assoc]
    rfl
  | .compare _ _ _ => rfl
  | .compareColumns _ _ _ => rfl
  | .isNull _ => rfl
  | .between _ _ _ => rfl
  | .valueBetween _ _ _ => rfl
  | .touches _ _ => rfl
  | .inList _ _ => rfl
  | .inSelect _ _ => rfl
  | .linked _ _ _ => rfl
  | .hasId _ _ => rfl
  | .hasStatus _ _ => rfl
  | .raw _ _ => rfl

theorem Chain.render_eq_spelled : ∀ c : Chain, c.render s = spelled s c.symbols
  | .last condition => Expr.render_eq_spelled condition
  | .more condition connective rest => by
    rw [Chain.symbols, spelled_append, spelled_cons, ← Expr.render_eq_spelled condition,
      ← Chain.render_eq_spelled rest, ← Fragment.append_assoc, Chain.render]
    rfl

end

/-! ### Reading a condition -/

section Conditions

variable (truth : Nat → Bool)

/-- Parentheses add no condition. -/
theorem atoms_enclosed {α : Type} (w : List (Symbol α)) :
    atoms (.mark .opening :: (w ++ [.mark .closing])) = atoms w := by
  rw [atoms, atoms_append, atoms, atoms, List.append_nil]

theorem assigned_enclosed {α : Type} (w : List (Symbol α)) :
    assigned truth (.mark .opening :: (w ++ [.mark .closing])) =
      .mark .opening :: (assigned truth w ++ [.mark .closing]) := by
  rw [assigned, assigned_append, assigned, assigned]

/-- A group has the value of its members. -/
theorem Reads.group {members : Chain} {b : Bool}
    (h : Reads .disjunction (assigned truth members.symbols) b) :
    Reads .operand (assigned truth (Expr.group members).symbols) b := by
  rw [Expr.symbols, assigned_enclosed]
  exact h.enclosed

/-- Negation is written in front of parentheses, and no second pair is put around a group. -/
theorem Expr.symbols_negated (e : Expr) :
    e.negated.symbols = .mark .negation :: e.symbols ∨
      e.negated.symbols = .mark .negation :: .mark .opening :: (e.symbols ++ [.mark .closing]) := by
  cases e with
  | group members => exact Or.inl rfl
  | _ => exact Or.inr rfl

/-- Negation adds no condition. -/
theorem Expr.atoms_negated (e : Expr) : atoms e.negated.symbols = atoms e.symbols := by
  rcases e.symbols_negated with h | h
  · rw [h, atoms]
  · rw [h, atoms, atoms_enclosed]

/-- A negated condition has the opposite value. -/
theorem Reads.negated {e : Expr} {b : Bool} (h : Reads .operand (assigned truth e.symbols) b) :
    Reads .operand (assigned truth e.negated.symbols) (!b) := by
  rcases e.symbols_negated with hsymbols | hsymbols
  · rw [hsymbols, assigned]
    exact h.negation
  · rw [hsymbols, assigned, assigned_enclosed]
    exact h.operand.conjunction.enclosed.negation

end Conditions

/-! ### Conditions with connectives -/

/-- The value of a conjunction that holds so far or not, with further values behind it: `AND`
goes on with the conjunction, `OR` begins the next one. -/
def combinedFrom (running : Bool) : Connective → List (Bool × Connective) → Bool
  | _, [] => running
  | .and, (b, next) :: rest => combinedFrom (running && b) next rest
  | .or, (b, next) :: rest => running || combinedFrom b next rest

/-- The value of values with the connective of each behind it, `AND` taken before `OR`. -/
def combined : List (Bool × Connective) → Bool
  | [] => true
  | (b, next) :: rest => combinedFrom b next rest

/-- The symbols of conditions behind a connective, with the connective of each behind it. -/
def symbolsAfter : Connective → List (Expr × Connective) → List (Symbol Expr)
  | _, [] => []
  | connective, (condition, next) :: rest =>
    .mark (.connective connective) :: (condition.symbols ++ symbolsAfter next rest)

/-- A chain of conditions shows the first, then the others behind connectives. -/
theorem Chain.symbols_ofParts? (condition : Expr) (next : Connective)
    (rest : List (Expr × Connective)) :
    ∃ chain, Chain.ofParts? ((condition, next) :: rest) = some chain ∧
      chain.symbols = condition.symbols ++ symbolsAfter next rest := by
  induction rest generalizing condition next with
  | nil => exact ⟨.last condition, rfl, (List.append_nil _).symm⟩
  | cons part rest ih =>
    obtain ⟨second, connective⟩ := part
    obtain ⟨chain, hchain, hsymbols⟩ := ih second connective
    refine ⟨.more condition next chain, ?_, ?_⟩
    · rw [Chain.ofParts?, hchain]
    · rw [Chain.symbols, hsymbols, symbolsAfter]

theorem atoms_symbolsAfter (connective : Connective) (parts : List (Expr × Connective)) :
    atoms (symbolsAfter connective parts) = parts.flatMap fun p => atoms p.1.symbols := by
  induction parts generalizing connective with
  | nil => rfl
  | cons part rest ih =>
    rw [symbolsAfter, atoms, atoms_append, ih, List.flatMap_cons]

/-- One more operand behind a conjunction, and whatever follows. -/
theorem Reads.more {v w after : List (Symbol Bool)} {a b : Bool} {next : Connective}
    {values : List (Bool × Connective)} {connective : Connective}
    (hv : Reads .conjunction v a) (hw : Reads .operand w b)
    (hafter : ∀ u c, Reads .conjunction u c →
      Reads .disjunction (u ++ after) (combinedFrom c next values)) :
    Reads .disjunction (v ++ .mark (.connective connective) :: (w ++ after))
      (combinedFrom a connective ((b, next) :: values)) := by
  cases connective with
  | and =>
    have hlonger := hafter _ _ (hv.and hw.operand)
    rwa [List.append_assoc, List.cons_append] at hlonger
  | or => exact hv.conjunction.or (hafter w b hw.operand)

end ObjectQuery.Sql
