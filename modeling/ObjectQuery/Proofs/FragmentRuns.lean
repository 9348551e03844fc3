import Mathlib.Data.List.Induction
import ObjectQuery.Proofs.Placeholders

/-!
# Runs of operations on fragments

Fragments come out of runs of operations, each of which takes texts, values and the fragments of
other runs.  Whoever starts a run hands over pieces: texts that need no values, pairs of a text
and its values, and values for placeholders of their own.  However the operations are nested, the
fragment is its pieces one behind the other, so the k-th placeholder of its text stands in the
piece that brought the k-th value, and it is a placeholder of this piece taken alone.

The scan of a text has a state, so that it is the sum of the scans of its parts only where all
literals are closed.  Balanced pieces are what carries this through the operations.

## Main Definitions

* `PlaceholderAt` — where the placeholders of a text stand
* `Fragment.MadeOf` — a fragment is made of balanced pieces; every operation keeps it
* `Fragment.Run` — runs of operations, with their fragments and their pieces
* `Fragment.Run.Proper` — what is handed over keeps texts and values together

## Main Statements

* `exists_placeholderAt_iff` — a text has as many placeholders as the scan counts
* `Fragment.MadeOf.exists_supplier` — which piece a placeholder stands in
* `Fragment.Run.madeOf` — a run makes its fragment of its pieces
* `Fragment.Run.result_paired` — the fragment of a run is balanced, and its values are paired
-/

namespace ObjectQuery.Sql

/-! ### Positions of placeholders -/

/-- At a position of a text stands its `k`-th placeholder, counted from zero: a question mark
that has closed literals and `k` placeholders in front of it. -/
structure PlaceholderAt (cs : List Char) (k position : Nat) : Prop where
  mark : cs[position]? = some '?'
  outside : Even ((cs.take position).count '\'')
  count : countPlaceholders false (cs.take position) = k

section Positions

variable {cs ds : List Char} {k position : Nat}

theorem countPlaceholders_append_of_closed (h : Even (cs.count '\'')) (ds : List Char) :
    countPlaceholders false (cs ++ ds) =
      countPlaceholders false cs + countPlaceholders false ds := by
  rw [countPlaceholders_append, (quotedAfter_eq_iff false cs).mpr h]

namespace PlaceholderAt

theorem lt_length (h : PlaceholderAt cs k position) : position < cs.length :=
  (List.getElem?_eq_some_iff.mp h.mark).1

/-- What stands behind a text does not touch its placeholders. -/
theorem before (h : PlaceholderAt cs k position) (ds : List Char) :
    PlaceholderAt (cs ++ ds) k position := by
  have htake : (cs ++ ds).take position = cs.take position :=
    List.take_append_of_le_length (Nat.le_of_lt h.lt_length)
  refine ⟨?_, ?_, ?_⟩
  · rw [List.getElem?_append_left h.lt_length, h.mark]
  · rw [htake]
    exact h.outside
  · rw [htake, h.count]

/-- Behind a text with closed literals a placeholder is moved by the length of the text and
counted behind its placeholders. -/
theorem behind (h : PlaceholderAt ds k position) (hclosed : Even (cs.count '\'')) :
    PlaceholderAt (cs ++ ds) (countPlaceholders false cs + k) (cs.length + position) := by
  have htake : (cs ++ ds).take (cs.length + position) = cs ++ ds.take position :=
    List.take_length_add_append position
  refine ⟨?_, ?_, ?_⟩
  · rw [List.getElem?_append_right (Nat.le_add_right _ _), Nat.add_sub_cancel_left, h.mark]
  · rw [htake, List.count_append]
    exact hclosed.add h.outside
  · rw [htake, countPlaceholders_append_of_closed hclosed, h.count]

/-- The scan counts a placeholder as soon as it has passed it. -/
theorem lt_countPlaceholders_take (h : PlaceholderAt cs k position) {next : Nat}
    (hnext : position < next) : k < countPlaceholders false (cs.take next) := by
  obtain ⟨rest, hrest⟩ : cs.take (position + 1) <+: cs.take next :=
    List.take_prefix_take_left hnext
  rw [List.take_add_one, h.mark, List.append_assoc] at hrest
  rw [← hrest, countPlaceholders_append_of_closed h.outside, h.count]
  exact Nat.lt_add_of_pos_right (Nat.succ_pos _)

/-- The `k`-th placeholder stands at one position only. -/
theorem unique (h : PlaceholderAt cs k position) {other : Nat} (h' : PlaceholderAt cs k other) :
    position = other := by
  rcases Nat.lt_trichotomy position other with hlt | heq | hlt
  · exact absurd (h.lt_countPlaceholders_take hlt) (by rw [h'.count]; exact Nat.lt_irrefl k)
  · exact heq
  · exact absurd (h'.lt_countPlaceholders_take hlt) (by rw [h.count]; exact Nat.lt_irrefl k)

end PlaceholderAt

/-- A character that the scan counts is a question mark outside of literals. -/
theorem eq_of_countPlaceholders_singleton_pos {quoted : Bool} {c : Char}
    (h : 0 < countPlaceholders quoted [c]) : c = '?' ∧ quoted = false := by
  rw [countPlaceholders] at h
  split at h
  · cases h
  · split at h
    · assumption
    · cases h

/-- A text has as many placeholders as the scan counts: by induction on the text from its end,
since a placeholder is known by what stands in front of it. -/
theorem exists_placeholderAt_iff :
    (∃ position, PlaceholderAt cs k position) ↔ k < countPlaceholders false cs := by
  constructor
  · rintro ⟨position, h⟩
    simpa using h.lt_countPlaceholders_take h.lt_length
  · intro hk
    induction cs using List.reverseRecOn with
    | nil => exact absurd hk (Nat.not_lt_zero k)
    | append_singleton cs c ih =>
      by_cases hfront : k < countPlaceholders false cs
      · obtain ⟨position, h⟩ := ih hfront
        exact ⟨position, h.before [c]⟩
      · -- The last character is the placeholder that is looked for.
        rw [countPlaceholders_append] at hk
        have hlast : 0 < countPlaceholders (quotedAfter false cs) [c] := by omega
        obtain ⟨rfl, hclosed⟩ := eq_of_countPlaceholders_singleton_pos hlast
        have hone : countPlaceholders false ['?'] = 1 := rfl
        rw [hclosed, hone] at hk
        refine ⟨cs.length, ?_, ?_, ?_⟩
        · rw [List.getElem?_concat_length]
        · rw [List.take_left]
          exact (quotedAfter_eq_iff false cs).mp hclosed
        · rw [List.take_left]
          omega

end Positions

/-! ### What fragments are made of -/

namespace Fragment

section Pieces

variable {a b : Fragment} {pieces pieces' : List Fragment}

theorem push_eq (a : Fragment) (t : String) : a.push t = a ++ text t :=
  eq_of_sql_of_values rfl (List.append_nil _).symm

theorem parenthesized_eq (a : Fragment) : a.parenthesized = text "(" ++ a ++ text ")" :=
  eq_of_sql_of_values rfl (List.append_nil _).symm

/-- The characters of fragments one behind the other. -/
theorem toList_sql_join_empty (parts : List Fragment) :
    (join "" parts).sql.toList = parts.flatMap (·.sql.toList) := by
  induction parts with
  | nil => rfl
  | cons part parts ih =>
    rw [join_empty_cons, sql_append, String.toList_append, ih, List.flatMap_cons]

/-- Balanced fragments one behind the other are balanced. -/
theorem Balanced.join_empty (h : ∀ piece ∈ pieces, piece.Balanced) :
    (join "" pieces).Balanced := by
  induction pieces with
  | nil => exact Fills.empty.balanced
  | cons piece pieces ih =>
    obtain ⟨hpiece, hpieces⟩ := List.forall_mem_cons.mp h
    rw [join_empty_cons]
    exact hpiece.append (ih hpieces)

/-- A fragment is made of pieces: it is the pieces one behind the other, and each of them is
balanced. -/
structure MadeOf (a : Fragment) (pieces : List Fragment) : Prop where
  eq_join : a = join "" pieces
  balanced : ∀ piece ∈ pieces, piece.Balanced

namespace MadeOf

theorem empty : empty.MadeOf [] := ⟨rfl, List.forall_mem_nil _⟩

/-- A balanced fragment is made of itself. -/
theorem piece (h : a.Balanced) : a.MadeOf [a] := ⟨rfl, List.forall_mem_singleton.mpr h⟩

theorem append (ha : a.MadeOf pieces) (hb : b.MadeOf pieces') :
    (a ++ b).MadeOf (pieces ++ pieces') := by
  refine ⟨?_, List.forall_mem_append.mpr ⟨ha.balanced, hb.balanced⟩⟩
  rw [join_empty_append, ← ha.eq_join, ← hb.eq_join]

theorem push (ha : a.MadeOf pieces) {t : String} (ht : Inert t) :
    (a.push t).MadeOf (pieces ++ [text t]) := by
  rw [push_eq]
  exact ha.append (piece ht)

theorem parenthesized (ha : a.MadeOf pieces) :
    a.parenthesized.MadeOf ([text "("] ++ pieces ++ [text ")"]) := by
  have hmarks : Inert "(" ∧ Inert ")" := ⟨Neutral.inert (by simp), Neutral.inert (by simp)⟩
  rw [parenthesized_eq]
  exact ((piece hmarks.1).append ha).append (piece hmarks.2)

/-- The separator is a piece between the pieces of neighbours. -/
theorem join {separator : String} (hseparator : Inert separator) {parts : List Fragment}
    {made : List (List Fragment)} (h : List.Forall₂ MadeOf parts made) :
    (join separator parts).MadeOf ([text separator].intercalate made) := by
  induction h with
  | nil => exact empty
  | @cons part pieces parts made hpart hrest ih =>
    cases hrest with
    | nil =>
      rw [List.intercalate_singleton]
      exact hpart
    | cons hnext hrest =>
      rw [join_cons _ _ (List.cons_ne_nil _ _), List.intercalate_cons_cons]
      exact (hpart.append (piece hseparator)).append ih

theorem isBalanced (h : a.MadeOf pieces) : a.Balanced := by
  rw [h.eq_join]
  exact .join_empty h.balanced

theorem toList_sql (h : a.MadeOf pieces) : a.sql.toList = pieces.flatMap (·.sql.toList) := by
  rw [h.eq_join, toList_sql_join_empty]

theorem values_eq (h : a.MadeOf pieces) : a.values = pieces.flatMap (·.values) := by
  rw [h.eq_join, values_join]

end MadeOf

/-- The `k`-th of the values of some pieces is the `j`-th one of `piece`, which stands behind the
pieces `front`. -/
structure Supplies (pieces : List Fragment) (k : Nat) (front : List Fragment) (piece : Fragment)
    (j : Nat) : Prop where
  standing : front ++ [piece] <+: pieces
  index : k = (front.flatMap (·.values)).length + j
  lt_length : j < piece.values.length

theorem Supplies.getElem?_eq {k : Nat} {front : List Fragment} {piece : Fragment} {j : Nat}
    (h : Supplies pieces k front piece j) :
    (pieces.flatMap (·.values))[k]? = piece.values[j]? := by
  obtain ⟨back, rfl⟩ := h.standing
  rw [List.flatMap_append, List.flatMap_append, List.flatMap_singleton, h.index,
    List.append_assoc, List.getElem?_append_right (Nat.le_add_right _ _),
    Nat.add_sub_cancel_left, List.getElem?_append_left h.lt_length]

/-- Every value is supplied by a piece. -/
theorem exists_supplies {k : Nat} (hk : k < (pieces.flatMap (·.values)).length) :
    ∃ front piece j, Supplies pieces k front piece j := by
  induction pieces generalizing k with
  | nil => exact absurd hk (Nat.not_lt_zero k)
  | cons piece pieces ih =>
    by_cases hhere : k < piece.values.length
    · exact ⟨[], piece, k, ⟨pieces, rfl⟩, (Nat.zero_add k).symm, hhere⟩
    · rw [List.flatMap_cons, List.length_append] at hk
      obtain ⟨front, supplier, j, hstanding, hindex, hj⟩ :=
        ih (k := k - piece.values.length) (by omega)
      refine ⟨piece :: front, supplier, j, List.cons_prefix_cons.mpr ⟨rfl, hstanding⟩, ?_, hj⟩
      rw [List.flatMap_cons, List.length_append]
      omega

/-- The `k`-th placeholder of a fragment stands in the piece that supplies the `k`-th value, and
it is the placeholder of this piece for this value. -/
theorem MadeOf.exists_supplier (h : a.MadeOf pieces) {k : Nat} (hk : k < a.values.length) :
    ∃ front piece j position, Supplies pieces k front piece j ∧
      PlaceholderAt piece.sql.toList j position ∧
      PlaceholderAt a.sql.toList k ((front.flatMap (·.sql.toList)).length + position) := by
  rw [h.values_eq] at hk
  obtain ⟨front, piece, j, hsupplies⟩ := exists_supplies hk
  obtain ⟨back, hpieces⟩ := hsupplies.standing
  have hbalanced := h.balanced
  rw [← hpieces, List.forall_mem_append, List.forall_mem_append, List.forall_mem_singleton]
    at hbalanced
  obtain ⟨⟨hfront, hpiece⟩, -⟩ := hbalanced
  obtain ⟨position, hposition⟩ := exists_placeholderAt_iff.mpr
    (hpiece.placeholders ▸ hsupplies.lt_length)
  refine ⟨front, piece, j, position, hsupplies, hposition, ?_⟩
  have hmade : (Fragment.join "" front).Balanced := .join_empty hfront
  have hcount : countPlaceholders false (front.flatMap (·.sql.toList)) =
      (front.flatMap (·.values)).length := by
    rw [← toList_sql_join_empty, ← values_join]
    exact hmade.placeholders
  have hclosed := hmade.closed
  rw [toList_sql_join_empty] at hclosed
  rw [h.toList_sql, ← hpieces, List.flatMap_append, List.flatMap_append, List.flatMap_singleton,
    hsupplies.index, ← hcount]
  exact (hposition.behind hclosed).before _

end Pieces

/-! ### Runs -/

/-- A run of operations that makes a fragment.  Where an operation takes a fragment, it takes that
of another run. -/
inductive Run
  /-- The fragment without anything, which every other one may be grown from. -/
  | start
  /-- A text with its values. -/
  | given (sql : String) (values : List Value)
  | text (sql : String)
  | placeholder (value : Value)
  | push (run : Run) (sql : String)
  | append (run other : Run)
  | join (separator : String) (parts : List Run)
  | parenthesized (run : Run)

namespace Run

mutual

/-- The fragment that a run makes. -/
def result : Run → Fragment
  | start => Fragment.empty
  | given sql values => ⟨sql, values⟩
  | text sql => Fragment.text sql
  | placeholder value => Fragment.placeholder value
  | push run sql => run.result.push sql
  | append run other => run.result ++ other.result
  | join separator parts => Fragment.join separator (results parts)
  | parenthesized run => run.result.parenthesized

/-- The fragments that several runs make. -/
def results : List Run → List Fragment
  | [] => []
  | run :: runs => run.result :: results runs

end

mutual

/-- The pieces that are handed over in a run, in the order in which they stand in the text. -/
def pieces : Run → List Fragment
  | start => []
  | given sql values => [⟨sql, values⟩]
  | text sql => [Fragment.text sql]
  | placeholder value => [Fragment.placeholder value]
  | push run sql => run.pieces ++ [Fragment.text sql]
  | append run other => run.pieces ++ other.pieces
  | join separator parts => [Fragment.text separator].intercalate (piecesOfAll parts)
  | parenthesized run => [Fragment.text "("] ++ run.pieces ++ [Fragment.text ")"]

/-- The pieces of several runs. -/
def piecesOfAll : List Run → List (List Fragment)
  | [] => []
  | run :: runs => run.pieces :: piecesOfAll runs

end

mutual

/-- What is handed over in a run keeps texts and values together: texts without values need none,
and the others are balanced. -/
def Proper : Run → Prop
  | start => True
  | given sql values => Balanced ⟨sql, values⟩
  | text sql => Inert sql
  | placeholder _ => True
  | push run sql => run.Proper ∧ Inert sql
  | append run other => run.Proper ∧ other.Proper
  | join separator parts => Inert separator ∧ AllProper parts
  | parenthesized run => run.Proper

/-- It does in all of several runs. -/
def AllProper : List Run → Prop
  | [] => True
  | run :: runs => run.Proper ∧ AllProper runs

end

mutual

/-- A run makes its fragment of its pieces. -/
theorem madeOf : ∀ run : Run, run.Proper → run.result.MadeOf run.pieces
  | start, _ => .empty
  | given _ _, h => .piece h
  | text _, h => .piece h
  | placeholder value, _ => .piece (Fills.placeholder value).balanced
  | push run _, h => (run.madeOf h.1).push h.2
  | append run other, h => (run.madeOf h.1).append (other.madeOf h.2)
  | join _ parts, h => .join h.1 (allMadeOf parts h.2)
  | parenthesized run, h => (run.madeOf h).parenthesized

theorem allMadeOf : ∀ runs : List Run, AllProper runs →
    List.Forall₂ MadeOf (results runs) (piecesOfAll runs)
  | [], _ => .nil
  | run :: runs, h => .cons (run.madeOf h.1) (allMadeOf runs h.2)

end

/-- The fragment of a run is balanced.  Its text is the texts of the pieces and its values are the
values of the pieces, both in the order of the pieces; and its `k`-th placeholder stands in the
piece that supplied the `k`-th value, where it is the placeholder for this value. -/
theorem result_paired (run : Run) (h : run.Proper) :
    run.result.Balanced ∧
      run.result.sql.toList = run.pieces.flatMap (·.sql.toList) ∧
      run.result.values = run.pieces.flatMap (·.values) ∧
      ∀ k < run.result.values.length, ∃ front piece j position,
        Supplies run.pieces k front piece j ∧ run.result.values[k]? = piece.values[j]? ∧
          PlaceholderAt piece.sql.toList j position ∧
          ∀ p, PlaceholderAt run.result.sql.toList k p ↔
            p = (front.flatMap (·.sql.toList)).length + position := by
  have hmade := run.madeOf h
  refine ⟨hmade.isBalanced, hmade.toList_sql, hmade.values_eq, fun k hk => ?_⟩
  obtain ⟨front, piece, j, position, hsupplies, hpiece, hresult⟩ := hmade.exists_supplier hk
  refine ⟨front, piece, j, position, hsupplies, ?_, hpiece, fun p => ⟨fun hp => ?_, ?_⟩⟩
  · rw [hmade.values_eq, hsupplies.getElem?_eq]
  · exact hp.unique hresult
  · rintro rfl
    exact hresult

/-- A condition out of a given one and one that is grown from nothing: the question mark inside
the literal takes no value, so the second placeholder is that of the second part. -/
theorem result_paired_farm :
    let run : Run := .parenthesized (.join " AND "
      [.given "breed = 'Angus?' OR breed = ?" [.text "Galloway"],
        .append .start (.push (.placeholder (.bool true)) " = alive")])
    run.Proper ∧
      run.result.sql = "(breed = 'Angus?' OR breed = ? AND ? = alive)" ∧
      run.result.Balanced ∧
      ∃ front piece j position, Supplies run.pieces 1 front piece j ∧
        run.result.values[1]? = piece.values[j]? ∧ PlaceholderAt piece.sql.toList j position ∧
          PlaceholderAt run.result.sql.toList 1
            ((front.flatMap (·.sql.toList)).length + position) := by
  intro run
  have hgiven : Balanced ⟨"breed = 'Angus?' OR breed = ?", [.text "Galloway"]⟩ :=
    ⟨by decide, by decide⟩
  have hproper : run.Proper :=
    ⟨Neutral.inert (by decide), hgiven, ⟨trivial, trivial, Neutral.inert (by decide)⟩, trivial⟩
  obtain ⟨hbalanced, -, -, hpaired⟩ := result_paired run hproper
  obtain ⟨front, piece, j, position, hsupplies, hvalue, hpiece, hresult⟩ :=
    hpaired 1 (by decide)
  exact ⟨hproper, by decide, hbalanced, front, piece, j, position, hsupplies, hvalue, hpiece,
    (hresult _).mpr rfl⟩

end Run

end Fragment

end ObjectQuery.Sql
