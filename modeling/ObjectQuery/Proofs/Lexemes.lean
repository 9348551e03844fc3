import ObjectQuery.Proofs.Precedence

/-!
# Conditions as a database reads them

A free text is one condition for the compiler, but a database reads the whole text of a
filter, and there the operators of a free text count like all others.  So a text is taken
apart into lexemes, free texts included, and read in one piece.

Reading a filter lexeme by lexeme gives the value that it has with every free text taken as a
unit, as long as a free text with an `OR` of its own never stands next to an `AND`.

## Main Definitions

* `Lexeme`, `Lexer` — the pieces of a text, and how free texts are taken apart
* `Expr.lexemes` — the lexemes of a condition
* `unitValues` — the values of conditions taken as units
* `Expr.Bound`, `Chain.Bound` — that free texts keep together

## Main Statements

* `Expr.text_lexemes` — the lexemes of a condition make up its text
* `Expr.reads_lexemes` — read by lexemes or by units, a condition has the same value
-/

namespace ObjectQuery.Sql

/-! ### Lexemes -/

/-- A piece of a text: a condition that is not looked into, or an operator or a parenthesis,
however it is written there. -/
inductive Lexeme
  | atom (text : Fragment)
  | mark (m : Mark) (text : String)

namespace Lexeme

/-- What is written. -/
def fragment : Lexeme → Fragment
  | .atom text => text
  | .mark _ text => .text text

/-- What is read. -/
def symbol : Lexeme → Symbol Fragment
  | .atom text => .atom text
  | .mark m _ => .mark m

/-- The text of lexemes. -/
def text (lexemes : List Lexeme) : Fragment := .join "" (lexemes.map fragment)

/-- The symbols that lexemes are read as. -/
def symbols (lexemes : List Lexeme) : List (Symbol Fragment) := lexemes.map symbol

theorem text_append (v w : List Lexeme) : text (v ++ w) = text v ++ text w := by
  rw [text, List.map_append]
  exact Fragment.join_empty_append _ _

theorem symbols_append (v w : List Lexeme) : symbols (v ++ w) = symbols v ++ symbols w :=
  List.map_append

end Lexeme

/-- How a database takes free texts apart. -/
structure Lexer where
  lexemes : String → List Value → List Lexeme
  text_lexemes : ∀ sql values, Lexeme.text (lexemes sql values) = ⟨sql, values⟩

/-- For given values of its conditions, a free text can be read as what stands on a level of
precedence. -/
def Lexer.Readable (lx : Lexer) (p : Precedence) (sql : String) (values : List Value) : Prop :=
  ∀ truth, ∃ b, Reads p (assigned truth (Lexeme.symbols (lx.lexemes sql values))) b

section Lexing

variable (s : Spelling) (lx : Lexer)

/-- The lexemes of a symbol; only free texts are looked into. -/
def Symbol.lexemes : Symbol Expr → List Lexeme
  | .atom (.raw sql values) => lx.lexemes sql values
  | .atom condition => [.atom (condition.render s)]
  | .mark m => [.mark m (m.spell s.words)]

/-- The lexemes of a condition. -/
def Expr.lexemes (e : Expr) : List Lexeme := e.symbols.flatMap (Symbol.lexemes s lx)

/-- The lexemes of conditions with connectives. -/
def Chain.lexemes (c : Chain) : List Lexeme := c.symbols.flatMap (Symbol.lexemes s lx)

/-- The lexemes of a symbol make up its text. -/
theorem Symbol.text_lexemes (symbol : Symbol Expr) :
    Lexeme.text (symbol.lexemes s lx) = symbol.spell s := by
  cases symbol with
  | mark m => rfl
  | atom condition =>
    cases condition with
    | raw sql values => exact lx.text_lexemes sql values
    | _ => rfl

/-- The lexemes of a row of symbols make up its text. -/
theorem text_lexemes (w : List (Symbol Expr)) :
    Lexeme.text (w.flatMap (Symbol.lexemes s lx)) = spelled s w := by
  induction w with
  | nil => rfl
  | cons symbol w ih =>
    rw [List.flatMap_cons, Lexeme.text_append, symbol.text_lexemes, ih, spelled_cons]

/-- The lexemes of a condition make up its text. -/
theorem Expr.text_lexemes (e : Expr) : Lexeme.text (e.lexemes s lx) = e.render s := by
  rw [Expr.render_eq_spelled]
  exact Sql.text_lexemes s lx e.symbols

/-! ### Units -/

/-- The value of a row of symbols, if it can be read at all. -/
def readValue (w : List (Symbol Bool)) : Bool := (Frame.run (.start, []) w).1.value

theorem Reads.readValue_eq {w : List (Symbol Bool)} {b : Bool} (h : Reads .disjunction w b) :
    readValue w = b := by
  obtain ⟨last, hrun, hvalue⟩ := h.runs .start [] rfl rfl
  rw [readValue, hrun]
  exact hvalue

/-- Only the values of its conditions matter to a row of symbols. -/
theorem assigned_congr {α : Type} {w : List (Symbol α)} {truth truth' : Nat → Bool}
    (h : ∀ i < (atoms w).length, truth i = truth' i) : assigned truth w = assigned truth' w := by
  induction w generalizing truth truth' with
  | nil => rfl
  | cons symbol w ih =>
    cases symbol with
    | mark m => rw [assigned, assigned, ih h]
    | atom condition =>
      have hrest : assigned (later truth 1) w = assigned (later truth' 1) w := by
        refine ih fun i hi => ?_
        rw [later, later, Nat.add_comm]
        exact h (i + 1) (Nat.succ_lt_succ hi)
      rw [assigned, assigned, hrest, h 0 (Nat.zero_lt_succ _)]

/-- The conditions inside a condition, as its lexemes show them. -/
def Expr.parts (e : Expr) : List Fragment :=
  atoms (Lexeme.symbols (Symbol.lexemes s lx (.atom e)))

/-- A row of symbols shows the conditions inside its conditions, one after the other. -/
theorem atoms_lexemes (w : List (Symbol Expr)) :
    atoms (Lexeme.symbols (w.flatMap (Symbol.lexemes s lx))) =
      (atoms w).flatMap (Expr.parts s lx) := by
  induction w with
  | nil => rfl
  | cons symbol w ih =>
    rw [List.flatMap_cons, Lexeme.symbols_append, atoms_append, ih]
    cases symbol with
    | mark m => rfl
    | atom e => rfl

/-- The value of a condition taken as a unit, for given values of the conditions inside it. -/
def unitValue (truth : Nat → Bool) (e : Expr) : Bool :=
  readValue (assigned truth (Lexeme.symbols (Symbol.lexemes s lx (.atom e))))

/-- The values of conditions taken as units, for given values of the conditions inside them,
one condition after the other. -/
def unitValues : List Expr → (Nat → Bool) → Nat → Bool
  | [], _ => fun _ => false
  | e :: rest, truth => fun
    | 0 => unitValue s lx truth e
    | i + 1 => unitValues rest (later truth (e.parts s lx).length) i

/-- The row of symbols in which every condition is replaced by its value as a unit. -/
def collapsed (truth : Nat → Bool) : List (Symbol Expr) → List (Symbol Bool)
  | [] => []
  | .mark m :: rest => .mark m :: collapsed truth rest
  | .atom e :: rest =>
    .atom (unitValue s lx truth e) :: collapsed (later truth (e.parts s lx).length) rest

theorem later_unitValues (e : Expr) (rest : List Expr) (truth : Nat → Bool) :
    later (unitValues s lx (e :: rest) truth) 1 =
      unitValues s lx rest (later truth (e.parts s lx).length) := by
  funext i
  rw [later, Nat.add_comm]
  rfl

/-- Replacing conditions one by one, or all at once. -/
theorem collapsed_eq_assigned (w : List (Symbol Expr)) (truth : Nat → Bool) :
    collapsed s lx truth w = assigned (unitValues s lx (atoms w) truth) w := by
  induction w generalizing truth with
  | nil => rfl
  | cons symbol w ih =>
    cases symbol with
    | mark m => rw [collapsed, ih, assigned, atoms]
    | atom e => rw [collapsed, ih, atoms, assigned, later_unitValues]; rfl

/-- The number of conditions in a row of symbols, as its lexemes show them. -/
def width (w : List (Symbol Expr)) : Nat :=
  (atoms (Lexeme.symbols (w.flatMap (Symbol.lexemes s lx)))).length

/-- The units behind others get the values behind theirs. -/
theorem collapsed_append (v w : List (Symbol Expr)) (truth : Nat → Bool) :
    collapsed s lx truth (v ++ w) =
      collapsed s lx truth v ++ collapsed s lx (later truth (width s lx v)) w := by
  induction v generalizing truth with
  | nil => exact congrArg (collapsed s lx · w) (later_zero truth).symm
  | cons symbol v ih =>
    rw [width, List.flatMap_cons, Lexeme.symbols_append, atoms_append]
    cases symbol with
    | mark m =>
      rw [List.cons_append, collapsed, ih]
      rfl
    | atom e =>
      rw [List.cons_append, collapsed, ih, later_later, List.length_append]
      rfl

/-- A row of symbols over lexemes, with the values of the conditions. -/
def lexed (truth : Nat → Bool) (w : List (Symbol Expr)) : List (Symbol Bool) :=
  assigned truth (Lexeme.symbols (w.flatMap (Symbol.lexemes s lx)))

theorem lexed_append (v w : List (Symbol Expr)) (truth : Nat → Bool) :
    lexed s lx truth (v ++ w) =
      lexed s lx truth v ++ lexed s lx (later truth (width s lx v)) w := by
  rw [lexed, List.flatMap_append, Lexeme.symbols_append, assigned_append]
  rfl

theorem lexed_mark (m : Mark) (w : List (Symbol Expr)) (truth : Nat → Bool) :
    lexed s lx truth (.mark m :: w) = .mark m :: lexed s lx truth w := rfl

end Lexing

/-! ### Free texts that keep together -/

/-- What holds together behind an `AND`: everything but a free text with an `OR` of its
own. -/
def Expr.Tight (lx : Lexer) : Expr → Prop
  | .raw sql values => lx.Readable .conjunction sql values
  | _ => True

mutual

/-- The free texts inside a condition can be read, and none with an `OR` of its own stands
next to an `AND`. -/
def Expr.Bound (lx : Lexer) : Expr → Prop
  | .raw sql values => lx.Readable .disjunction sql values
  | .group members => members.Bound lx .or
  | .not members => members.Bound lx .or
  | _ => True

/-- The same of conditions behind a connective. -/
def Chain.Bound (lx : Lexer) (before : Connective) : Chain → Prop
  | .last condition => condition.Bound lx ∧ (before = .and → condition.Tight lx)
  | .more condition next rest =>
    condition.Bound lx ∧ (before = .and ∨ next = .and → condition.Tight lx) ∧ rest.Bound lx next

end

/-! ### Reading by units and by lexemes -/

/-- Two rows of symbols that are read with the same value. -/
def ReadAlike (p q : Precedence) (v w : List (Symbol Bool)) : Prop :=
  ∃ b, Reads p v b ∧ Reads q w b

namespace ReadAlike

variable {v w v' w' : List (Symbol Bool)}

theorem enclosed (h : ReadAlike .disjunction .disjunction v w) :
    ReadAlike .operand .operand (.mark .opening :: (v ++ [.mark .closing]))
      (.mark .opening :: (w ++ [.mark .closing])) := by
  obtain ⟨b, hv, hw⟩ := h
  exact ⟨b, hv.enclosed, hw.enclosed⟩

theorem negation (h : ReadAlike .operand .operand v w) :
    ReadAlike .operand .operand (.mark .negation :: v) (.mark .negation :: w) := by
  obtain ⟨b, hv, hw⟩ := h
  exact ⟨!b, hv.negation, hw.negation⟩

/-- What is read as an operand is read as a conjunction as well. -/
theorem conjunction (h : ReadAlike .operand .operand v w) :
    ReadAlike .operand .conjunction v w := by
  obtain ⟨b, hv, hw⟩ := h
  exact ⟨b, hv, hw.operand⟩

/-- What is read as a conjunction is read as a disjunction as well. -/
theorem disjunction {p : Precedence} (h : ReadAlike p .conjunction v w) :
    ReadAlike p .disjunction v w := by
  obtain ⟨b, hv, hw⟩ := h
  exact ⟨b, hv, hw.conjunction⟩

theorem operand_left {q : Precedence} (h : ReadAlike .operand q v w) :
    ReadAlike .conjunction q v w := by
  obtain ⟨b, hv, hw⟩ := h
  exact ⟨b, hv.operand, hw⟩

theorem conjunction_left {q : Precedence} (h : ReadAlike .conjunction q v w) :
    ReadAlike .disjunction q v w := by
  obtain ⟨b, hv, hw⟩ := h
  exact ⟨b, hv.conjunction, hw⟩

theorem and (h : ReadAlike .conjunction .conjunction v w)
    (h' : ReadAlike .operand .conjunction v' w') :
    ReadAlike .conjunction .conjunction (v ++ .mark (.connective .and) :: v')
      (w ++ .mark (.connective .and) :: w') := by
  obtain ⟨a, hv, hw⟩ := h
  obtain ⟨b, hv', hw'⟩ := h'
  exact ⟨a && b, hv.and hv'.operand, hw.and hw'⟩

theorem or (h : ReadAlike .disjunction .disjunction v w)
    (h' : ReadAlike .disjunction .disjunction v' w') :
    ReadAlike .disjunction .disjunction (v ++ .mark (.connective .or) :: v')
      (w ++ .mark (.connective .or) :: w') := by
  obtain ⟨a, hv, hw⟩ := h
  obtain ⟨b, hv', hw'⟩ := h'
  exact ⟨a || b, hv.or hv', hw.or hw'⟩

end ReadAlike

section Reading

variable (s : Spelling) (lx : Lexer)

/-- Units and lexemes of a condition have one value.  What is tight can stand next to an
`AND`. -/
def Expr.ReadsAlike (e : Expr) : Prop :=
  ∀ truth, ReadAlike .operand .disjunction (collapsed s lx truth e.symbols)
      (lexed s lx truth e.symbols) ∧
    (e.Tight lx → ReadAlike .operand .conjunction (collapsed s lx truth e.symbols)
      (lexed s lx truth e.symbols))

/-- Units and lexemes of conditions with connectives have one value, on their own and behind
an `AND`. -/
def Chain.ReadsAlike (c : Chain) : Prop :=
  ∀ truth, (c.Bound lx .or → ReadAlike .disjunction .disjunction
      (collapsed s lx truth c.symbols) (lexed s lx truth c.symbols)) ∧
    (c.Bound lx .and → ∀ v w, ReadAlike .conjunction .conjunction v w →
      ReadAlike .disjunction .disjunction
        (v ++ .mark (.connective .and) :: collapsed s lx truth c.symbols)
        (w ++ .mark (.connective .and) :: lexed s lx truth c.symbols))

variable {s lx}

/-- A condition that shows one lexeme has the value of this. -/
theorem unitValue_of_lexemes_eq {e : Expr}
    (h : Symbol.lexemes s lx (.atom e) = [.atom (e.render s)]) (truth : Nat → Bool) :
    unitValue s lx truth e = truth 0 := by
  rw [unitValue, h]
  exact (Reads.atom (truth 0)).operand.conjunction.readValue_eq

/-- Conditions that show one lexeme each have the values of these, and leave the others to
what follows. -/
theorem unitValues_append {single : List Expr}
    (h : ∀ e ∈ single, Symbol.lexemes s lx (.atom e) = [.atom (e.render s)]) (rest : List Expr)
    (truth : Nat → Bool) :
    (∀ i < single.length, unitValues s lx (single ++ rest) truth i = truth i) ∧
      later (unitValues s lx (single ++ rest) truth) single.length =
        unitValues s lx rest (later truth single.length) := by
  induction single generalizing truth with
  | nil => exact ⟨fun i hi => absurd hi (Nat.not_lt_zero i), by simp [later_zero]⟩
  | cons e single ih =>
    have he := h e List.mem_cons_self
    have hparts : (e.parts s lx).length = 1 := by
      rw [Expr.parts, he]
      rfl
    have hlater := later_unitValues s lx e (single ++ rest) truth
    rw [hparts] at hlater
    obtain ⟨hvalues, hrest⟩ := ih (fun e he => h e (List.mem_cons_of_mem _ he)) (later truth 1)
    constructor
    · intro i hi
      cases i with
      | zero => exact unitValue_of_lexemes_eq he truth
      | succ i =>
        have hi' := hvalues i (Nat.lt_of_succ_lt_succ hi)
        rw [← hlater, later, later, Nat.add_comm] at hi'
        exact hi'
    · rw [List.length_cons, Nat.add_comm, ← later_later, ← later_later, List.cons_append, hlater]
      exact hrest

theorem Expr.readsAlike_leaf {e : Expr} (hsymbols : e.symbols = [.atom e])
    (hlexemes : Symbol.lexemes s lx (.atom e) = [.atom (e.render s)]) : e.ReadsAlike s lx := by
  intro truth
  have hvalue := unitValue_of_lexemes_eq hlexemes truth
  have halike : ReadAlike .operand .operand (collapsed s lx truth e.symbols)
      (lexed s lx truth e.symbols) := by
    rw [hsymbols, collapsed, hvalue, lexed, List.flatMap_singleton, hlexemes]
    exact ⟨truth 0, .atom _, .atom _⟩
  exact ⟨halike.conjunction.disjunction, fun _ => halike.conjunction⟩

/-- A condition between parentheses of its own has its value everywhere. -/
theorem Expr.readsAlike_of_operand {e : Expr}
    (h : ∀ truth, ReadAlike .operand .operand (collapsed s lx truth e.symbols)
      (lexed s lx truth e.symbols)) : e.ReadsAlike s lx :=
  fun truth => ⟨(h truth).conjunction.disjunction, fun _ => (h truth).conjunction⟩

/-- A free text is read as it is taken apart. -/
theorem Expr.readsAlike_raw {sql : String} {values : List Value}
    (h : lx.Readable .disjunction sql values) : (Expr.raw sql values).ReadsAlike s lx := by
  intro truth
  have hlexed : lexed s lx truth (Expr.raw sql values).symbols =
      assigned truth (Lexeme.symbols (lx.lexemes sql values)) := by
    show assigned truth (Lexeme.symbols
      (List.flatMap (Symbol.lexemes s lx) [.atom (Expr.raw sql values)])) = _
    rw [List.flatMap_singleton]
    rfl
  have hcollapsed : ∀ b, Reads .disjunction (lexed s lx truth (Expr.raw sql values).symbols) b →
      collapsed s lx truth (Expr.raw sql values).symbols = [.atom b] := by
    intro b hb
    rw [hlexed] at hb
    show [Symbol.atom (unitValue s lx truth (.raw sql values))] = _
    rw [← hb.readValue_eq]
    rfl
  constructor
  · obtain ⟨b, hb⟩ := h truth
    rw [← hlexed] at hb
    rw [hcollapsed b hb]
    exact ⟨b, .atom b, hb⟩
  · intro htight
    obtain ⟨b, hb⟩ := htight truth
    rw [← hlexed] at hb
    rw [hcollapsed b hb.conjunction]
    exact ⟨b, .atom b, hb⟩

/-- Symbols around the conditions are the same for units and lexemes. -/
theorem readAlike_enclosed {c : Chain} {truth : Nat → Bool}
    (h : ReadAlike .disjunction .disjunction (collapsed s lx truth c.symbols)
      (lexed s lx truth c.symbols)) :
    ReadAlike .operand .operand
      (collapsed s lx truth (.mark .opening :: (c.symbols ++ [.mark .closing])))
      (lexed s lx truth (.mark .opening :: (c.symbols ++ [.mark .closing]))) := by
  rw [collapsed, collapsed_append, lexed_mark, lexed_append]
  exact h.enclosed

mutual

/-- Units and lexemes of a condition with free texts that keep together have one value. -/
theorem Expr.reads_lexemes : ∀ e : Expr, e.Bound lx → e.ReadsAlike s lx
  | .group members, h =>
    Expr.readsAlike_of_operand fun truth =>
      readAlike_enclosed ((Chain.reads_lexemes members truth).1 h)
  | .not members, h =>
    Expr.readsAlike_of_operand fun truth =>
      (readAlike_enclosed ((Chain.reads_lexemes members truth).1 h)).negation
  | .raw _ _, h => Expr.readsAlike_raw h
  | .compare _ _ _, _ => Expr.readsAlike_leaf rfl rfl
  | .compareColumns _ _ _, _ => Expr.readsAlike_leaf rfl rfl
  | .isNull _, _ => Expr.readsAlike_leaf rfl rfl
  | .between _ _ _, _ => Expr.readsAlike_leaf rfl rfl
  | .valueBetween _ _ _, _ => Expr.readsAlike_leaf rfl rfl
  | .touches _ _, _ => Expr.readsAlike_leaf rfl rfl
  | .inList _ _, _ => Expr.readsAlike_leaf rfl rfl
  | .inSelect _ _, _ => Expr.readsAlike_leaf rfl rfl
  | .linked _ _ _, _ => Expr.readsAlike_leaf rfl rfl
  | .hasId _ _, _ => Expr.readsAlike_leaf rfl rfl
  | .hasStatus _ _, _ => Expr.readsAlike_leaf rfl rfl

/-- The same for conditions with connectives.  Behind an `AND` the conjunction read so far
goes on; what is read behind an `OR` begins anew. -/
theorem Chain.reads_lexemes : ∀ c : Chain, c.ReadsAlike s lx
  | .last condition => by
    intro truth
    constructor
    · intro h
      exact ((Expr.reads_lexemes condition h.1 truth).1).operand_left.conjunction_left
    · intro h v w hvw
      have hcondition := (Expr.reads_lexemes condition h.1 truth).2 (h.2 rfl)
      exact (hvw.and hcondition).disjunction.conjunction_left
  | .more condition next rest => by
    intro truth
    rw [Chain.symbols, collapsed_append, lexed_append, collapsed, lexed_mark]
    have hrest := Chain.reads_lexemes rest (later truth (width s lx condition.symbols))
    constructor
    · rintro ⟨hbound, htight, hbehind⟩
      have hcondition := Expr.reads_lexemes condition hbound truth
      cases next with
      | and => exact hrest.2 hbehind _ _ (hcondition.2 (htight (Or.inr rfl))).operand_left
      | or => exact hcondition.1.operand_left.conjunction_left.or (hrest.1 hbehind)
    · rintro ⟨hbound, htight, hbehind⟩ v w hvw
      have hcondition := (Expr.reads_lexemes condition hbound truth).2 (htight (Or.inl rfl))
      have hlonger := hvw.and hcondition
      cases next with
      | and => simpa using hrest.2 hbehind _ _ hlonger
      | or => simpa using hlonger.disjunction.conjunction_left.or (hrest.1 hbehind)

end

/-- Read lexeme by lexeme, a condition with free texts that keep together has the value that
it has with every free text taken as a unit. -/
theorem Expr.reads_lexemes_iff {e : Expr} (h : e.Bound lx) (truth : Nat → Bool) {b : Bool}
    (hunits : Reads .disjunction (assigned (unitValues s lx (atoms e.symbols) truth) e.symbols) b)
    (c : Bool) :
    Reads .disjunction (assigned truth (Lexeme.symbols (e.lexemes s lx))) c ↔ c = b := by
  obtain ⟨a, hcollapsed, hlexed⟩ := (e.reads_lexemes h truth).1
  rw [collapsed_eq_assigned] at hcollapsed
  have hab : a = b := hcollapsed.operand.conjunction.unique hunits
  subst hab
  constructor
  · exact fun hc => hc.unique hlexed
  · rintro rfl
    exact hlexed

end Reading

end ObjectQuery.Sql
