import Mathlib.Algebra.Group.Nat.Even
import Mathlib.Data.List.Forall2
import ObjectQuery.Proofs.FragmentAlgebra
import ObjectQuery.Sql.Literal
import ObjectQuery.Text.Blank

/-!
# Placeholders and their values

Which value belongs to which placeholder.  A scan reads a text from left to right and knows
whether it is inside a single-quoted literal; the n-th `?` that it meets outside is filled
with the n-th value.  Fragments that end outside literals and have one value for each
placeholder can be put together without mixing up their values.

## Main Definitions

* `Neutral` — texts without quotes and question marks
* `Fragment.Balanced` — closed literals, and one value for each placeholder
* `Fragment.filled` — the text with its values in place of the placeholders
* `Fragment.Fills` — a balanced fragment and what it is when filled

## Main Statements

* `fillFrom_append` — filling one text behind another
* `Fragment.Fills.append`, `Fragment.Fills.join` — filling compound fragments
* `inert_literal` — a literal has no placeholders, whatever text it stands for
-/

namespace ObjectQuery.Sql

/-! ### Neutral texts -/

/-- A text without quotes and question marks. -/
def Neutral (t : String) : Prop := ∀ c ∈ t.toList, c ≠ '?' ∧ c ≠ '\''

instance (t : String) : Decidable (Neutral t) :=
  List.decidableBAll (fun c => c ≠ '?' ∧ c ≠ '\'') t.toList

@[simp] theorem neutral_append {s t : String} : Neutral (s ++ t) ↔ Neutral s ∧ Neutral t := by
  unfold Neutral
  rw [String.toList_append, List.forall_mem_append]

/-- The texts that stand between names and words. -/
@[simp] theorem neutral_marks :
    Neutral "" ∧ Neutral " " ∧ Neutral "(" ∧ Neutral ")" ∧ Neutral " (" ∧ Neutral ") " ∧
      Neutral ", " ∧ Neutral "." ∧ Neutral ".*" ∧ Neutral "*" ∧ Neutral "\n" ∧ Neutral "1 " ∧
      Neutral " 0" ∧ Neutral " 1 " := by
  decide

/-- What holds of the parts of a joined text and of the separator holds of the whole, if it
holds of two texts one behind the other. -/
theorem joinWith_induction {P : String → Prop} (hempty : P "")
    (happend : ∀ s t, P s → P t → P (s ++ t)) {separator : String} (hseparator : P separator)
    {parts : List String} (h : ∀ part ∈ parts, P part) : P (Text.joinWith separator parts) := by
  induction parts with
  | nil => exact hempty
  | cons part parts ih =>
    rw [List.forall_mem_cons] at h
    cases parts with
    | nil => exact h.1
    | cons next parts =>
      exact happend _ _ (happend _ _ h.1 hseparator) (ih h.2)

theorem neutral_joinWith {separator : String} (hseparator : Neutral separator)
    {parts : List String} (h : ∀ part ∈ parts, Neutral part) :
    Neutral (Text.joinWith separator parts) :=
  joinWith_induction (by simp) (fun _ _ hs ht => neutral_append.mpr ⟨hs, ht⟩) hseparator h

/-- The digits of a number are neutral. -/
theorem neutral_natRepr (n : Nat) : Neutral n.repr := by
  intro c hc
  rw [Nat.toList_repr] at hc
  have hdigit : c.isDigit = true := Nat.isDigit_of_mem_toDigits (by decide) (by decide) hc
  constructor
  · rintro rfl
    cases hdigit
  · rintro rfl
    cases hdigit

theorem neutral_intRepr (n : Int) : Neutral n.repr := by
  cases n with
  | ofNat n => exact neutral_natRepr n
  | negSucc n => exact neutral_append.mpr ⟨by decide, neutral_natRepr (n + 1)⟩

/-! ### The scan of a text -/

/-- Whether a scan ends inside a literal, started inside a literal or outside. -/
def quotedAfter : (quoted : Bool) → List Char → Bool
  | quoted, [] => quoted
  | quoted, c :: rest =>
    if c = '\'' then quotedAfter (!quoted) rest else quotedAfter quoted rest

/-- A part of a filled text: a character, or the value of a placeholder. -/
inductive Piece
  | char (c : Char)
  | value (value : Value)

/-- A text as pieces, without values. -/
def characters (t : String) : List Piece := t.toList.map .char

/-- Fills the placeholders of a text with values from left to right; placeholders for which
there are no values stay. -/
def fillFrom : (quoted : Bool) → List Char → List Value → List Piece
  | _, [], _ => []
  | quoted, c :: rest, values =>
    if c = '\'' then .char c :: fillFrom (!quoted) rest values
    else if c = '?' ∧ quoted = false then
      values.head?.elim (.char c) .value :: fillFrom quoted rest values.tail
    else .char c :: fillFrom quoted rest values

theorem quotedAfter_append (quoted : Bool) (cs ds : List Char) :
    quotedAfter quoted (cs ++ ds) = quotedAfter (quotedAfter quoted cs) ds := by
  induction cs generalizing quoted with
  | nil => rfl
  | cons c cs ih =>
    rw [List.cons_append, quotedAfter, quotedAfter, ih, ih]
    split <;> rfl

/-- A scan ends where it started exactly when it meets an even number of quotes. -/
theorem quotedAfter_eq_iff (quoted : Bool) (cs : List Char) :
    quotedAfter quoted cs = quoted ↔ Even (cs.count '\'') := by
  induction cs generalizing quoted with
  | nil => simp [quotedAfter]
  | cons c cs ih =>
    rw [quotedAfter, List.count_cons]
    by_cases hc : c = '\''
    · rw [if_pos hc, if_pos (by simpa using hc), Nat.even_add_one, ← ih (!quoted)]
      cases quoted <;> cases quotedAfter _ cs <;> simp
    · rw [if_neg hc, if_neg (by simpa using hc), Nat.add_zero, ih]

theorem countPlaceholders_append (quoted : Bool) (cs ds : List Char) :
    countPlaceholders quoted (cs ++ ds) =
      countPlaceholders quoted cs + countPlaceholders (quotedAfter quoted cs) ds := by
  induction cs generalizing quoted with
  | nil => rw [List.nil_append, countPlaceholders, quotedAfter, Nat.zero_add]
  | cons c cs ih =>
    rw [List.cons_append, countPlaceholders, countPlaceholders, quotedAfter, ih, ih]
    split
    · rfl
    · split
      · omega
      · rfl

/-- Text behind other text is filled with the values that are left: by induction on the text
in front, which takes one value for each of its placeholders. -/
theorem fillFrom_append {quoted : Bool} {cs : List Char} {values : List Value}
    (h : countPlaceholders quoted cs = values.length) (ds : List Char) (more : List Value) :
    fillFrom quoted (cs ++ ds) (values ++ more) =
      fillFrom quoted cs values ++ fillFrom (quotedAfter quoted cs) ds more := by
  induction cs generalizing quoted values with
  | nil =>
    obtain rfl : values = [] := List.length_eq_zero_iff.mp h.symm
    rfl
  | cons c cs ih =>
    rw [countPlaceholders] at h
    rw [List.cons_append, fillFrom, fillFrom, quotedAfter]
    by_cases hquote : c = '\''
    · rw [if_pos hquote] at h
      rw [if_pos hquote, if_pos hquote, if_pos hquote, ih h, List.cons_append]
    · rw [if_neg hquote] at h
      rw [if_neg hquote, if_neg hquote, if_neg hquote]
      by_cases hmark : c = '?' ∧ quoted = false
      · rw [if_pos hmark] at h
        rw [if_pos hmark, if_pos hmark]
        -- The placeholder takes the first value, and the rest is filled with the others.
        cases values with
        | nil => cases h
        | cons value values => exact congrArg _ (ih (Nat.succ.inj h))
      · rw [if_neg hmark] at h
        rw [if_neg hmark, if_neg hmark, ih h, List.cons_append]

/-- A text without placeholders is filled with nothing. -/
theorem fillFrom_of_none {quoted : Bool} {cs : List Char} (h : countPlaceholders quoted cs = 0)
    (values : List Value) : fillFrom quoted cs values = cs.map .char := by
  induction cs generalizing quoted with
  | nil => rfl
  | cons c cs ih =>
    rw [countPlaceholders] at h
    rw [fillFrom, List.map_cons]
    by_cases hquote : c = '\''
    · rw [if_pos hquote] at h ⊢
      rw [ih h]
    · rw [if_neg hquote] at h ⊢
      by_cases hmark : c = '?' ∧ quoted = false
      · rw [if_pos hmark] at h
        cases h
      · rw [if_neg hmark] at h ⊢
        rw [ih h]

/-! ### Balanced fragments -/

/-- All literals of a fragment are closed, and it has one value for each placeholder. -/
structure Fragment.Balanced (f : Fragment) : Prop where
  closed : Even (f.sql.toList.count '\'')
  placeholders : placeholderCount f.sql = f.values.length

/-- A text that needs no values: its literals are closed, and all its question marks are
inside them. -/
def Inert (t : String) : Prop := (Fragment.text t).Balanced

namespace Fragment

/-- The text of a fragment with its values in place of the placeholders. -/
def filled (f : Fragment) : List Piece := fillFrom false f.sql.toList f.values

/-- A balanced fragment, and what it is when filled. -/
structure Fills (f : Fragment) (pieces : List Piece) : Prop where
  balanced : f.Balanced
  filled : f.filled = pieces

variable {a b : Fragment} {as bs : List Piece}

theorem balanced_iff : a.Balanced ↔
    quotedAfter false a.sql.toList = false ∧ placeholderCount a.sql = a.values.length := by
  rw [quotedAfter_eq_iff]
  exact ⟨fun h => ⟨h.closed, h.placeholders⟩, fun h => ⟨h.1, h.2⟩⟩

/-- Balanced fragments are put together to a balanced one. -/
theorem Balanced.append (ha : a.Balanced) (hb : b.Balanced) : (a ++ b).Balanced := by
  obtain ⟨hclosed, hcount⟩ := balanced_iff.mp ha
  obtain ⟨hclosed', hcount'⟩ := balanced_iff.mp hb
  refine balanced_iff.mpr ⟨?_, ?_⟩
  · rw [sql_append, String.toList_append, quotedAfter_append, hclosed, hclosed']
  · rw [placeholderCount, sql_append, String.toList_append, countPlaceholders_append, hclosed,
      values_append, List.length_append, ← hcount, ← hcount', placeholderCount, placeholderCount]

namespace Fills

/-- Fragments are filled one behind the other. -/
theorem append (ha : a.Fills as) (hb : b.Fills bs) : (a ++ b).Fills (as ++ bs) := by
  refine ⟨ha.balanced.append hb.balanced, ?_⟩
  have hclosed := (balanced_iff.mp ha.balanced).1
  rw [← ha.filled, ← hb.filled, Fragment.filled, sql_append, String.toList_append,
    values_append, fillFrom_append ha.balanced.placeholders, hclosed]
  rfl

/-- A balanced fragment taken as it is. -/
theorem raw (h : a.Balanced) : a.Fills a.filled := ⟨h, rfl⟩

/-- A text that needs no values is filled with nothing. -/
theorem text {t : String} (h : Inert t) : (Fragment.text t).Fills (characters t) :=
  ⟨h, fillFrom_of_none h.placeholders []⟩

/-- A placeholder is filled with its value. -/
theorem placeholder (v : Value) : (Fragment.placeholder v).Fills [.value v] := by
  have hclosed : quotedAfter false "?".toList = false := by decide
  have hcount : placeholderCount "?" = 1 := by decide
  exact ⟨balanced_iff.mpr ⟨hclosed, hcount⟩, by simp [Fragment.filled, fillFrom]⟩

theorem empty : Fragment.empty.Fills [] := ⟨⟨by decide, by decide⟩, rfl⟩

/-- Joined fragments are filled part by part. -/
theorem join {separator : String} (hseparator : Inert separator) {parts : List Fragment}
    {filled : List (List Piece)} (h : List.Forall₂ Fills parts filled) :
    (Fragment.join separator parts).Fills ((characters separator).intercalate filled) := by
  induction h with
  | nil => exact empty
  | @cons part pieces parts filled hpart hrest ih =>
    cases hrest with
    | nil =>
      rw [List.intercalate_singleton]
      exact hpart
    | cons hnext hrest =>
      rw [join_cons _ _ (List.cons_ne_nil _ _), List.intercalate_cons_cons]
      exact (hpart.append (text hseparator)).append ih

/-- Without a separator they are filled one behind the other. -/
theorem join_empty {parts : List Fragment} {filled : List (List Piece)}
    (h : List.Forall₂ Fills parts filled) : (Fragment.join "" parts).Fills filled.flatten := by
  induction h with
  | nil => exact empty
  | cons hpart _ ih =>
    rw [join_empty_cons, List.flatten_cons]
    exact hpart.append ih

end Fills

end Fragment

/-! ### Texts that need no values -/

section Inert

variable {s t : String}

theorem inert_append (hs : Inert s) (ht : Inert t) : Inert (s ++ t) :=
  Fragment.Balanced.append hs ht

/-- A neutral text needs no values. -/
theorem Neutral.inert (h : Neutral t) : Inert t := by
  have hnone : ∀ cs : List Char, (∀ c ∈ cs, c ≠ '?' ∧ c ≠ '\'') →
      quotedAfter false cs = false ∧ countPlaceholders false cs = 0 := by
    intro cs
    induction cs with
    | nil => exact fun _ => ⟨rfl, rfl⟩
    | cons c cs ih =>
      intro hcs
      rw [List.forall_mem_cons] at hcs
      rw [quotedAfter, countPlaceholders, if_neg hcs.1.2, if_neg hcs.1.2,
        if_neg fun hmark => hcs.1.1 hmark.1]
      exact ih hcs.2
  exact Fragment.balanced_iff.mpr (hnone t.toList h)

/-- The text inside a literal ends inside it and has no placeholders: every quote of it is
written twice. -/
theorem scan_doubleQuotes (cs : List Char) :
    quotedAfter true (doubleQuotes cs) = true ∧ countPlaceholders true (doubleQuotes cs) = 0 := by
  induction cs with
  | nil => exact ⟨rfl, rfl⟩
  | cons c cs ih =>
    rw [doubleQuotes]
    by_cases hquote : c = '\''
    · rw [if_pos hquote, quotedAfter, quotedAfter, countPlaceholders, countPlaceholders]
      exact ih
    · rw [if_neg hquote, quotedAfter, countPlaceholders, if_neg hquote, if_neg hquote,
        if_neg fun hmark => Bool.noConfusion hmark.2]
      exact ih

/-- A literal needs no values, whatever text it stands for. -/
theorem inert_literal (t : String) : Inert (literal t) := by
  obtain ⟨hquoted, hcount⟩ := scan_doubleQuotes t.toList
  have hchars : (literal t).toList = '\'' :: (doubleQuotes t.toList ++ ['\'']) := by
    simp [literal]
  refine Fragment.balanced_iff.mpr ⟨?_, ?_⟩
  · rw [Fragment.sql_text, hchars, quotedAfter, if_pos rfl, quotedAfter_append, Bool.not_false,
      hquoted]
    rfl
  · rw [placeholderCount, Fragment.sql_text, hchars, countPlaceholders, if_pos rfl,
      countPlaceholders_append, Bool.not_false, hquoted, hcount]
    rfl

/-- Question marks and quotes inside a literal are taken as they are. -/
example : (Fragment.filled ⟨"a = 'it''s?' AND b = ?", [.null]⟩).getLast? = some (.value .null) :=
  rfl

/-- Joined texts need no values if none of them does. -/
theorem inert_joinWith (hseparator : Inert s) {parts : List String}
    (h : ∀ part ∈ parts, Inert part) : Inert (Text.joinWith s parts) :=
  joinWith_induction (Neutral.inert (by simp)) (fun _ _ => inert_append) hseparator h

end Inert

end ObjectQuery.Sql
