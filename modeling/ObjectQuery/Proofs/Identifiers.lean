import Mathlib.Algebra.Order.BigOperators.Group.List
import Mathlib.Algebra.Order.Group.Nat
import ObjectQuery.Proofs.Spans
import ObjectQuery.Proofs.Visit

/-!
# Names between quotes

Names of columns are written between the quotes of the dialect as they are: a closing quote
inside a name is not doubled.  So a database reads a name back exactly when the closing quote
does not occur in it, and the text of a whole statement is read as it is meant exactly when
this holds of all names in it.

## Main Definitions

* `Vocabulary.QuotesWith` — quotes that are single characters, for a database that knows them
* `Span.tokens` — how a span is meant to be read
* `Span.Settled` — spans that are read apart from what stands around them
* `Span.blank` — a span without its name

## Main Statements

* `Vocabulary.tokens_quote_iff` — a name between quotes is read back or not
* `tokens_spanText_iff` — spaced spans are read as they are meant or not
* `Graph.tokens_compile_iff` — the text of a graph with any other names in place of its own
-/

namespace ObjectQuery.Sql

/-- The quotes of the dialect are single characters, which are marks for the database. -/
structure Vocabulary.QuotesWith (w : Vocabulary) (d : Marks) (o c : Char) : Prop where
  opening : w .quoteOpen = String.singleton o
  closing : w .quoteClose = String.singleton c
  pair : d.lookup o = some c

namespace Span

/-- How a span is meant to be read: a name is one quotation, and so is a literal. -/
def tokens (d : Marks) (o : Char) : Span → List Token
  | word text => plainTokens text
  | literal text => [.quoted '\'' text]
  | raw sql => (Sql.tokens d sql).getD []
  | name identifier => [.quoted o identifier]

/-- Words have no marks, the quotes of literals are marks, and texts of the caller close their
quotations. -/
def Settled (d : Marks) : Span → Prop
  | word text => d.Plain text
  | literal _ => d.lookup '\'' = some '\''
  | raw sql => (Sql.tokens d sql).isSome
  | name _ => True

instance (d : Marks) : DecidablePred (Settled d)
  | word text => inferInstanceAs (Decidable (d.Plain text))
  | literal _ => inferInstanceAs (Decidable (d.lookup '\'' = some '\''))
  | raw sql => inferInstanceAs (Decidable ((Sql.tokens d sql).isSome = true))
  | name _ => instDecidableTrue

/-- The span without its name. -/
def blank : Span → Span
  | name _ => name ""
  | span => span

/-- The number of closing quotes in the name of a span. -/
def closings (c : Char) : Span → Nat
  | name identifier => identifier.toList.count c
  | _ => 0

variable {d : Marks} {w : Vocabulary} {o c : Char}

theorem settled_blank (span : Span) : span.blank.Settled d ↔ span.Settled d := by
  cases span <;> rfl

end Span

/-- A name between quotes is one quotation with the name as its content exactly when the closing
quote does not occur in the name. -/
theorem Vocabulary.QuotesWith.tokens_quote_iff {w : Vocabulary} {d : Marks} {o c : Char}
    (hw : w.QuotesWith d o c) (name : String) :
    tokens d (w.quote name) = some [.quoted o name] ↔ c ∉ name.toList := by
  have htext : (w.quote name).toList = o :: (name.toList ++ [c]) := by
    simp [Vocabulary.quote, hw.opening, hw.closing]
  have hread := Scan.read_between_marks_iff hw.pair name.toList
  rwa [String.ofList_toList, ← htext] at hread

section

variable {w : Vocabulary} {d : Marks} {o c : Char}

/-- Every span but a word is read on its own, names only without the closing quote. -/
theorem Vocabulary.QuotesWith.tokens_spell (hw : w.QuotesWith d o c) {span : Span}
    (hsettled : span.Settled d) (hword : ∀ text, span ≠ .word text)
    (hname : ∀ n, span = .name n → c ∉ n.toList) :
    tokens d (span.spell w) = some (span.tokens d o) := by
  cases span with
  | word text => exact absurd rfl (hword text)
  | literal text => exact tokens_literal hsettled text
  | raw sql =>
    obtain ⟨ts, hts⟩ := Option.isSome_iff_exists.mp hsettled
    rw [Span.spell, Span.tokens, hts]
    rfl
  | name n => exact (hw.tokens_quote_iff n).mpr (hname n rfl)

/-- Nothing that stands behind a span and that nothing touches doubles a closing mark. -/
theorem bounded_spanText {v : List Span} (hspaced : Spaced true v)
    (hsettled : ∀ span ∈ v, span.Settled d) : d.Bounded (spanText w v).toList := by
  induction v with
  | nil => exact fun x hx => nomatch hx
  | cons span v ih =>
    rw [List.forall_mem_cons] at hsettled
    cases span with
    | word text =>
      by_cases hempty : text = ""
      · subst hempty
        rw [spanText_cons, Span.spell, String.empty_append]
        exact ih (by simpa [Spaced] using hspaced) hsettled.2
      · exact Marks.Plain.bounded_append hsettled.1 hempty _
    | literal _ => cases hspaced.1
    | raw _ => cases hspaced.1
    | name _ => cases hspaced.1

/-- Spaced spans whose names have no closing quote are read as they are meant. -/
theorem Vocabulary.QuotesWith.tokens_spanText (hw : w.QuotesWith d o c) {v : List Span}
    (hspaced : Spaced false v) (hsettled : ∀ span ∈ v, span.Settled d)
    (hnames : ∀ n, .name n ∈ v → c ∉ n.toList) :
    tokens d (spanText w v) = some (v.flatMap (Span.tokens d o)) := by
  induction v with
  | nil => rfl
  | cons span v ih =>
    rw [List.forall_mem_cons] at hsettled
    have hrest := fun h => ih h hsettled.2 fun n hn => hnames n (List.mem_cons_of_mem _ hn)
    -- whatever is not a word is read on its own, since what follows is bounded
    have henclosed (hword : ∀ text, span ≠ .word text) (h : Spaced true v) :
        tokens d (spanText w (span :: v)) = some ((span :: v).flatMap (Span.tokens d o)) := by
      have hspan := hw.tokens_spell hsettled.1 hword fun n hn =>
        hnames n (hn ▸ List.mem_cons_self)
      rw [spanText_cons, tokens_append hspan (bounded_spanText h hsettled.2), hrest h.weaken]
      rfl
    cases span with
    | word text =>
      rw [spanText_cons, Span.spell, tokens_plain_append hsettled.1, hrest hspaced]
      rfl
    | literal _ => exact henclosed (fun _ h => nomatch h) hspaced.2
    | raw _ => exact henclosed (fun _ h => nomatch h) hspaced.2
    | name _ => exact henclosed (fun _ h => nomatch h) hspaced.2

/-! ### Names with the closing quote -/

/-- The number of characters that tokens are written with. -/
def widths (d : Marks) (ts : List Token) : Nat := (ts.map (Scan.width d)).sum

theorem widths_append (ts us : List Token) : widths d (ts ++ us) = widths d ts + widths d us := by
  rw [widths, List.map_append, List.sum_append]
  rfl

theorem widths_of_tokens {text : String} {ts : List Token} (h : tokens d text = some ts) :
    widths d ts = text.length := by
  have hwidth := Scan.width_read h
  rwa [Scan.pending, Nat.zero_add, String.length_toList] at hwidth

/-- Meant as one quotation, a name needs one more character for each closing quote. -/
theorem Vocabulary.QuotesWith.widths_span (hw : w.QuotesWith d o c) {span : Span}
    (hsettled : span.Settled d) :
    widths d (span.tokens d o) = (span.spell w).length + span.closings c := by
  cases span with
  | word text =>
    have hread := tokens_plain_append hsettled ""
    rw [String.append_empty, show tokens d "" = some [] from rfl, Option.map_some,
      List.append_nil] at hread
    exact widths_of_tokens hread
  | literal text => exact widths_of_tokens (tokens_literal hsettled text)
  | raw sql =>
    obtain ⟨ts, hts⟩ := Option.isSome_iff_exists.mp hsettled
    rw [Span.tokens, hts]
    exact widths_of_tokens hts
  | name n =>
    have hquote : (w.quote n).length = n.length + 2 := by
      simp [Vocabulary.quote, hw.opening, hw.closing]
      omega
    have hwidth : widths d [.quoted o n] = 2 + n.length + n.toList.count c := by
      simp [widths, Scan.width, Scan.marksIn, hw.pair]
    rw [Span.tokens, Span.spell, Span.closings, hquote, hwidth]
    omega

theorem Vocabulary.QuotesWith.widths_spans (hw : w.QuotesWith d o c) {v : List Span}
    (hsettled : ∀ span ∈ v, span.Settled d) :
    widths d (v.flatMap (Span.tokens d o)) =
      (spanText w v).length + (v.map (Span.closings c)).sum := by
  induction v with
  | nil => rfl
  | cons span v ih =>
    rw [List.forall_mem_cons] at hsettled
    rw [List.flatMap_cons, widths_append, hw.widths_span hsettled.1, ih hsettled.2, spanText_cons,
      String.length_append, List.map_cons, List.sum_cons]
    omega

/-- Spaced spans are read as they are meant exactly when no name has the closing quote in it. -/
theorem Vocabulary.QuotesWith.tokens_spanText_iff (hw : w.QuotesWith d o c) {v : List Span}
    (hspaced : Spaced false v) (hsettled : ∀ span ∈ v, span.Settled d) :
    tokens d (spanText w v) = some (v.flatMap (Span.tokens d o)) ↔
      ∀ n, .name n ∈ v → c ∉ n.toList := by
  refine ⟨fun hread n hn => ?_, hw.tokens_spanText hspaced hsettled⟩
  have hwidths := hw.widths_spans hsettled
  rw [widths_of_tokens hread] at hwidths
  have hcount : n.toList.count c ≤ (v.map (Span.closings c)).sum :=
    List.le_sum_of_mem (List.mem_map_of_mem (f := Span.closings c) hn)
  exact List.count_eq_zero.mp (by omega)

end

/-! ### Other names in place of the own ones -/

section

variable {v v' : List Span}

theorem Span.spaced_map_blank {touched : Bool} :
    Spaced touched (v.map Span.blank) ↔ Spaced touched v := by
  induction v generalizing touched with
  | nil => rfl
  | cons span v ih =>
    cases span with
    | word _ => exact ih
    | literal _ => exact and_congr_right' ih
    | raw _ => exact and_congr_right' ih
    | name _ => exact and_congr_right' ih

theorem Span.settled_map_blank {d : Marks} :
    (∀ span ∈ v.map Span.blank, span.Settled d) ↔ ∀ span ∈ v, span.Settled d := by
  simp only [List.forall_mem_map, Span.settled_blank]

/-- What is meant to be read depends on the names in the contents of quotations only. -/
theorem Span.blank_tokens (d : Marks) (o : Char) (span : Span) :
    (span.blank.tokens d o).map Token.blank = (span.tokens d o).map Token.blank := by
  cases span <;> rfl

theorem Span.blank_flatMap_tokens (d : Marks) (o : Char)
    (h : v.map Span.blank = v'.map Span.blank) :
    (v.flatMap (Span.tokens d o)).map Token.blank =
      (v'.flatMap (Span.tokens d o)).map Token.blank := by
  have hblank (u : List Span) : (u.flatMap (Span.tokens d o)).map Token.blank =
      (u.map Span.blank).flatMap fun span => (span.tokens d o).map Token.blank := by
    rw [List.map_flatMap, List.flatMap_map]
    exact List.flatMap_congr fun span _ => (Span.blank_tokens d o span).symm
  rw [hblank v, hblank v', h]

end

end ObjectQuery.Sql

namespace ObjectQuery.Query

open ObjectQuery.Sql

variable {g : Graph} {mode : Mode}

/-- Names that are put into the text of a graph cannot leave their quotes as long as the closing
quote does not occur in them, and as soon as it does the text is not read as it is meant.  With
any names in place of the own ones, a database reads the text of a graph as its words, its
literals, the texts of the caller and one quotation for each name, with the name as its content,
exactly when no name has the closing quote in it; and what it is meant to read is the same for
all names, but for these contents. -/
theorem Graph.tokens_compile_iff {f : Fragment} {words : Vocabulary} {q : Statement}
    {texts : GeometryTexts} {d : Marks} {o c : Char} (hf : g.compile mode = .ok f)
    (hwords : vocabulary g.environment.dialect = .ok words) (hq : g.statement mode = .ok q)
    (hgeometry : g.environment.geometry.Writes texts) (hquotes : words.QuotesWith d o c)
    (hsettled : ∀ span ∈ q.spans words texts, span.Settled d) :
    f.sql = spanText words (q.spans words texts) ∧
      (∀ name, tokens d (words.quote name) = some [.quoted o name] ↔ c ∉ name.toList) ∧
      ∀ v, v.map Span.blank = (q.spans words texts).map Span.blank →
        (tokens d (spanText words v) = some (v.flatMap (Span.tokens d o)) ↔
          ∀ n, .name n ∈ v → c ∉ n.toList) ∧
        (v.flatMap (Span.tokens d o)).map Token.blank =
          ((q.spans words texts).flatMap (Span.tokens d o)).map Token.blank := by
  obtain ⟨-, words', q', hwords', hq', rfl⟩ := Graph.compile_eq_ok_iff.mp hf
  obtain rfl : words = words' := Except.ok.inj (hwords.symm.trans hwords')
  obtain rfl : q = q' := Except.ok.inj (hq.symm.trans hq')
  refine ⟨q.sql_render hgeometry, hquotes.tokens_quote_iff, fun v hv => ⟨?_, ?_⟩⟩
  · have hspaced : Spaced false v := by
      rw [← Span.spaced_map_blank, hv, Span.spaced_map_blank]
      exact q.spaced_spans words texts
    have hsettled : ∀ span ∈ v, span.Settled d := by
      rw [← Span.settled_map_blank, hv, Span.settled_map_blank]
      exact hsettled
    exact hquotes.tokens_spanText_iff hspaced hsettled
  · exact Span.blank_flatMap_tokens d o hv

namespace Farm

/-- The quotes of literals and those of names in standard SQL. -/
def marks : Marks := [('\'', '\''), ('"', '"')]

/-- The texts around a column in the expressions of the simple features standard. -/
def geometryTexts : GeometryTexts :=
  ⟨["ST_AsText(", ")"], ["ST_Intersects(", ", ST_MakeEnvelope(?, ?, ?, ?))"]⟩

/-- The words of standard SQL, as its dialect gives them. -/
def words : Vocabulary := fun k => (Dialect.standard.lookup? k.key).getD ""

end Farm

/-- All names of the animals, their stalls and their scores are read back. -/
theorem Graph.tokens_compile_iff_farm :
    ∃ f q, Farm.graph.compile {} = .ok f ∧
      vocabulary Farm.graph.environment.dialect = .ok Farm.words ∧
      Farm.graph.statement {} = .ok q ∧
      Farm.graph.environment.geometry.Writes Farm.geometryTexts ∧
      Farm.words.QuotesWith Farm.marks '"' '"' ∧
      (∀ span ∈ q.spans Farm.words Farm.geometryTexts, span.Settled Farm.marks) ∧
      tokens Farm.marks f.sql =
        some ((q.spans Farm.words Farm.geometryTexts).flatMap (Span.tokens Farm.marks '"')) := by
  have hwords : vocabulary Farm.graph.environment.dialect = .ok Farm.words := rfl
  obtain ⟨f, hf⟩ : ∃ f, Farm.graph.compile {} = .ok f := ⟨_, rfl⟩
  obtain ⟨q, hq⟩ : ∃ q, Farm.graph.statement {} = .ok q := ⟨_, rfl⟩
  have hgeometry : Farm.graph.environment.geometry.Writes Farm.geometryTexts := by
    constructor
    · intro column
      rfl
    · intro column
      rfl
  have hquotes : Farm.words.QuotesWith Farm.marks '"' '"' := ⟨rfl, rfl, rfl⟩
  -- the statement is computed inside the decision and never written out
  have hdecide : ((Farm.graph.statement {}).toOption.all fun q =>
      decide (∀ span ∈ q.spans Farm.words Farm.geometryTexts,
        span.Settled Farm.marks ∧ span.closings '"' = 0)) = true := by
    decide +kernel
  have hspans : ∀ span ∈ q.spans Farm.words Farm.geometryTexts,
      span.Settled Farm.marks ∧ span.closings '"' = 0 := by
    rw [hq] at hdecide
    exact of_decide_eq_true hdecide
  obtain ⟨htext, -, hread⟩ := Graph.tokens_compile_iff hf hwords hq hgeometry hquotes
    fun span hspan => (hspans span hspan).1
  refine ⟨f, q, hf, hwords, hq, hgeometry, hquotes, fun span hspan => (hspans span hspan).1, ?_⟩
  rw [htext]
  exact (hread _ rfl).1.mpr fun n hn => List.count_eq_zero.mp (hspans _ hn).2

namespace Farm

/-- A name with a closing quote in it. -/
def breakingName : String := "breed\" IS NULL OR t0.\"breed"

/-- The animals, in all their versions, without a value in the column of that name. -/
def withoutBreakingName : Node where
  source := some (.table animals)
  history := true
  predicate := some ⟨.isNull breakingName, false, .and⟩

/-- The animals, in all their versions, without a value in one of two columns. -/
def withoutEither : Node where
  source := some (.table animals)
  history := true
  predicate := some (.any [⟨.isNull "breed", false, .and⟩, ⟨.isNull "breed", false, .and⟩])

end Farm

/-- A name with a closing quote is not read back.  One condition on a column of such a name has
the text of two conditions, joined by `OR`. -/
theorem Graph.exists_name_leaving_quotes :
    tokens Farm.marks (Vocabulary.standard.quote Farm.breakingName) ≠
        some [.quoted '"' Farm.breakingName] ∧
      ∃ f, Farm.withoutBreakingName.compileIn .standard {} = .ok f ∧
        Farm.withoutEither.compileIn .standard {} = .ok f := by
  refine ⟨by decide, ?_⟩
  exact ⟨_, rfl, rfl⟩

end ObjectQuery.Query
