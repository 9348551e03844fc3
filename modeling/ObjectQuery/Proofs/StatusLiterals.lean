import ObjectQuery.Proofs.FragmentAlgebra
import ObjectQuery.Proofs.Quotations
import ObjectQuery.Query.Link
import ObjectQuery.Sql.Rendering

/-!
# Literals of statuses

Statuses are written into the text of a link filter instead of being bound.  Their quotes are
doubled, so a database that reads the text finds one literal for each status, with the status
as its content, whatever characters it has; and no status changes what stands around the
literals.

## Main Definitions

* `statusTokens` — the tokens of an alternative of statuses

## Main Statements

* `tokens_statuses` — an alternative of statuses is read as one literal for each of them
* `LinkTable.literals_statusFilter` — the literals of a status filter are the statuses, and the
  rest depends on their number alone
-/

namespace ObjectQuery.Sql

open ObjectQuery.Text (joinWith)

variable {d : Marks}

/-- The literals of statuses as tokens, each behind the same tokens and with the same tokens
between neighbours. -/
def statusTokens (front separator : List Token) : List String → List Token
  | [] => []
  | [status] => front ++ [.quoted '\'' status]
  | status :: next :: rest =>
    front ++ .quoted '\'' status :: (separator ++ statusTokens front separator (next :: rest))

theorem contents_plainTokens (text : String) :
    (plainTokens text).filterMap Token.content? = [] := by
  simp [plainTokens, Token.content?]

theorem blank_plainTokens (text : String) :
    (plainTokens text).map Token.blank = plainTokens text := by
  simp [plainTokens, Token.blank]

section

variable (front separator : String) (statuses : List String)

/-- The quotations are the statuses. -/
theorem contents_statusTokens :
    (statusTokens (plainTokens front) (plainTokens separator) statuses).filterMap
      Token.content? = statuses := by
  fun_induction statusTokens (plainTokens front) (plainTokens separator) statuses with
  | case1 => rfl
  | case2 status => simp [contents_plainTokens, Token.content?]
  | case3 status next rest ih => simp [contents_plainTokens, Token.content?, ih]

/-- The rest depends on the number of statuses alone. -/
theorem blank_statusTokens :
    (statusTokens (plainTokens front) (plainTokens separator) statuses).map Token.blank =
      statusTokens (plainTokens front) (plainTokens separator)
        (List.replicate statuses.length "") := by
  fun_induction statusTokens (plainTokens front) (plainTokens separator) statuses with
  | case1 => rfl
  | case2 status => simp [blank_plainTokens, Token.blank, statusTokens]
  | case3 status next rest ih =>
    simp [blank_plainTokens, Token.blank, statusTokens, List.replicate_succ, ih]

variable {front separator statuses}

/-- Statuses as literals, each behind the same text and with the same text between neighbours,
are read literal by literal. -/
theorem tokens_statuses (hd : d.lookup '\'' = some '\'') (hfront : d.Plain front)
    (hseparator : d.Plain separator) (hne : separator ≠ "") (hstatuses : statuses ≠ [])
    {rest : String} (hrest : d.Bounded rest.toList) :
    tokens d (joinWith separator (statuses.map fun status => front ++ literal status) ++ rest) =
      (tokens d rest).map
        (statusTokens (plainTokens front) (plainTokens separator) statuses ++ ·) := by
  induction statuses with
  | nil => exact absurd rfl hstatuses
  | cons status statuses ih =>
    cases statuses with
    | nil =>
      simp only [List.map_cons, List.map_nil, joinWith, statusTokens]
      rw [String.append_assoc, tokens_plain_append hfront,
        tokens_append (tokens_literal hd status) hrest, Option.map_map]
      simp [Function.comp_def]
    | cons next statuses =>
      have hbounded : d.Bounded (separator ++ (joinWith separator
          ((next :: statuses).map fun status => front ++ literal status) ++ rest)).toList :=
        hseparator.bounded_append hne _
      have hjoin : joinWith separator
          ((status :: next :: statuses).map fun status => front ++ literal status) =
            front ++ literal status ++ separator ++ joinWith separator
              ((next :: statuses).map fun status => front ++ literal status) := rfl
      rw [hjoin, String.append_assoc, String.append_assoc, String.append_assoc,
        tokens_plain_append hfront,
        tokens_append (tokens_literal hd status) hbounded, tokens_plain_append hseparator,
        ih (List.cons_ne_nil _ _), Option.map_map, Option.map_map, Option.map_map]
      simp [Function.comp_def, statusTokens]

end

end ObjectQuery.Sql

namespace ObjectQuery.Query

open ObjectQuery.Sql
open ObjectQuery.Text (joinWith)

/-- Texts without single quotes have no marks of literals. -/
theorem plain_literals {text : String} (h : '\'' ∉ text.toList) : Marks.literals.Plain text := by
  intro x hx p hp
  have hne : x ≠ '\'' := fun heq => h (heq ▸ hx)
  rw [List.mem_singleton.mp hp]
  exact ⟨hne, hne⟩

/-- Without statuses there is no status filter.  The filter of some statuses has no values, and
a scan of its text ends outside of literals and finds exactly the statuses, in order, as the
contents of its literals, whatever characters they have; the text around the literals is the
same for all lists of statuses of one length. -/
theorem LinkTable.literals_statusFilter (t : LinkTable) (aliasName : String) (s : Spelling)
    (halias : '\'' ∉ aliasName.toList) (hcolumn : '\'' ∉ t.columns.status.toList)
    (hwords : ∀ k, '\'' ∉ (s.words k).toList) :
    t.statusFilter aliasName [] = none ∧
      ∃ frame : Nat → List Token, ∀ statuses, statuses ≠ [] →
        ∃ filter ts, t.statusFilter aliasName statuses = some filter ∧
          (filter.render s).values = [] ∧
          tokens .literals (filter.render s).sql = some ts ∧
          ts.filterMap Token.content? = statuses ∧
          ts.map Token.blank = frame statuses.length := by
  let front :=
    ColumnRef.render s.words ⟨aliasName, t.columns.status⟩ ++ " " ++ s.words .equal ++ " "
  let separator := " " ++ s.words .disjunction ++ " "
  let around (ts : List Token) := plainTokens "(" ++ (ts ++ plainTokens ")")
  have hwords : ∀ k, Marks.literals.Plain (s.words k) := fun k => plain_literals (hwords k)
  have hsigns : Marks.literals.Plain "(" ∧ Marks.literals.Plain "." ∧ Marks.literals.Plain " " := by
    decide
  have hfront : Marks.literals.Plain front := by
    simp only [front, ColumnRef.render, Vocabulary.quote, Marks.plain_append]
    exact ⟨⟨⟨⟨⟨plain_literals halias, hsigns.2.1⟩, ⟨hwords _, plain_literals hcolumn⟩, hwords _⟩,
      hsigns.2.2⟩, hwords _⟩, hsigns.2.2⟩
  have hseparator : Marks.literals.Plain separator := by
    simp only [separator, Marks.plain_append]
    exact ⟨⟨hsigns.2.2, hwords _⟩, hsigns.2.2⟩
  have hne : separator ≠ "" := by simp [separator]
  refine ⟨rfl, fun n => around (statusTokens (plainTokens front) (plainTokens separator)
    (List.replicate n "")), fun statuses hstatuses => ?_⟩
  refine ⟨.hasStatus ⟨aliasName, t.columns.status⟩ statuses,
    around (statusTokens (plainTokens front) (plainTokens separator) statuses),
    if_neg (by simpa using hstatuses), rfl, ?_, ?_, ?_⟩
  · show tokens .literals ("(" ++ joinWith separator
      (statuses.map fun status => front ++ literal status) ++ ")") = _
    rw [String.append_assoc, tokens_plain_append hsigns.1,
      tokens_statuses rfl hfront hseparator hne hstatuses (by decide), Option.map_map]
    rfl
  · simp only [around, List.filterMap_append, contents_plainTokens, contents_statusTokens,
      List.nil_append, List.append_nil]
  · simp only [around, List.map_append, blank_plainTokens, blank_statusTokens]

/-- Statuses with quotes, without characters and with the words of SQL in them. -/
theorem LinkTable.literals_statusFilter_farm :
    ('\'' ∉ "lnkt1".toList ∧ '\'' ∉ ({} : LinkColumns).status.toList ∧
      ∀ k, '\'' ∉ (Vocabulary.standard k).toList) ∧
    ∃ filter ts, (⟨"farm", "object_link", {}⟩ : LinkTable).statusFilter "lnkt1"
        ["it's", "''", "", "A' OR 1 = 1) --", "?"] = some filter ∧
      tokens .literals (filter.render ⟨.standard, .simpleFeatures none⟩).sql = some ts ∧
      ts.filterMap Token.content? = ["it's", "''", "", "A' OR 1 = 1) --", "?"] := by
  have halias : '\'' ∉ "lnkt1".toList := by decide
  have hcolumn : '\'' ∉ ({} : LinkColumns).status.toList := by decide
  have hwords : ∀ k, '\'' ∉ (Vocabulary.standard k).toList := by
    intro k
    cases k <;> decide
  refine ⟨⟨halias, hcolumn, hwords⟩, ?_⟩
  obtain ⟨-, frame, h⟩ := LinkTable.literals_statusFilter ⟨"farm", "object_link", {}⟩ "lnkt1"
    ⟨.standard, .simpleFeatures none⟩ halias hcolumn hwords
  obtain ⟨filter, ts, hfilter, -, hts, hcontents, -⟩ :=
    h ["it's", "''", "", "A' OR 1 = 1) --", "?"] (by simp)
  exact ⟨filter, ts, hfilter, hts, hcontents⟩

end ObjectQuery.Query
