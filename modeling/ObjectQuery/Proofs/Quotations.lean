import Mathlib.Algebra.Ring.Nat
import ObjectQuery.Sql.Literal

/-!
# Texts as a database reads their quotations

A database reads a text from left to right.  Some marks open a quotation, each with a mark that
closes it again; inside a quotation every character stands for itself, but the closing mark
stands for itself only when it is written twice.

## Main Definitions

* `Marks` — the marks that open quotations, with the marks that close them
* `Token` — a character outside of quotations, or a quotation with its content
* `tokens` — the tokens of a text; none for a text that ends inside a quotation
* `Marks.Plain` — texts without marks
* `Bounded` — texts that cannot double the closing mark of a quotation in front of them

## Main Statements

* `Scan.read_append` — a text that closes its quotations is read apart from what follows it
* `tokens_enclosed` — a doubled text between marks is one quotation, with the text as content
* `tokens_between_marks_iff` — without doubling this holds of texts without the closing mark only
-/

namespace ObjectQuery.Sql

/-- The marks that open a quotation, each with the mark that closes it. -/
abbrev Marks := List (Char × Char)

/-- The marks of literals alone. -/
def Marks.literals : Marks := [('\'', '\'')]

/-- A part of a text for a database: a character outside of quotations, or a quotation. -/
inductive Token
  | plain (c : Char)
  | quoted (opening : Char) (content : String)
  deriving DecidableEq, Repr

namespace Token

/-- The content of a quotation. -/
def content? : Token → Option String
  | plain _ => none
  | quoted _ content => some content

/-- The token without the content of a quotation. -/
def blank : Token → Token
  | plain c => plain c
  | quoted opening _ => quoted opening ""

end Token

/-- Where a scan stands: outside of quotations, inside of one with what was read of its
content, or behind a closing mark that may turn out to be doubled. -/
inductive Scan
  | outside
  | inside (opening : Char) (content : List Char)
  | closed (opening : Char) (content : List Char)

namespace Scan

/-- The step over a character outside of quotations. -/
def opened (d : Marks) (x : Char) : Scan × List Token :=
  if (d.lookup x).isSome then (inside x [], []) else (outside, [.plain x])

/-- The step over a character, with the tokens that it completes. -/
def step (d : Marks) : Scan → Char → Scan × List Token
  | outside, x => opened d x
  | inside o k, x => (if d.lookup o = some x then closed o k else inside o (k ++ [x]), [])
  | closed o k, x =>
    if d.lookup o = some x then (inside o (k ++ [x]), [])
    else ((opened d x).1, .quoted o (String.ofList k) :: (opened d x).2)

/-- What the end of a text completes; none inside a quotation. -/
def finish : Scan → Option (List Token)
  | outside => some []
  | inside _ _ => none
  | closed o k => some [.quoted o (String.ofList k)]

/-- The tokens of the rest of a text; none if it ends inside a quotation. -/
def read (d : Marks) (σ : Scan) : List Char → Option (List Token)
  | [] => σ.finish
  | x :: rest => (read d (σ.step d x).1 rest).map ((σ.step d x).2 ++ ·)

end Scan

/-- The tokens of a text; none if it ends inside a quotation. -/
def tokens (d : Marks) (text : String) : Option (List Token) := Scan.read d .outside text.toList

/-- The text with every occurrence of a mark written twice. -/
def doubled (c : Char) : List Char → List Char
  | [] => []
  | x :: text => if x = c then c :: c :: doubled c text else x :: doubled c text

theorem doubleQuotes_eq_doubled (text : List Char) : doubleQuotes text = doubled '\'' text := by
  induction text with
  | nil => rfl
  | cons x text ih => rw [doubleQuotes, doubled, ih]

theorem doubled_eq_self {c : Char} {text : List Char} (h : c ∉ text) : doubled c text = text := by
  induction text with
  | nil => rfl
  | cons x text ih =>
    rw [List.mem_cons, not_or] at h
    rw [doubled, if_neg (Ne.symm h.1), ih h.2]

/-- Texts without marks of either kind. -/
def Marks.Plain (d : Marks) (text : String) : Prop :=
  ∀ x ∈ text.toList, ∀ p ∈ d, x ≠ p.1 ∧ x ≠ p.2

-- Named, since characters can be decided over as a finite type as well.
instance (d : Marks) (text : String) : Decidable (d.Plain text) :=
  List.decidableBAll (fun x => ∀ p ∈ d, x ≠ p.1 ∧ x ≠ p.2) text.toList

/-- Texts that do not start with a mark that closes quotations. -/
def Marks.Bounded (d : Marks) (text : List Char) : Prop :=
  ∀ x ∈ text.head?, ∀ p ∈ d, x ≠ p.2

instance (d : Marks) (text : List Char) : Decidable (d.Bounded text) :=
  Option.decidableForallMem (p := fun x => ∀ p ∈ d, x ≠ p.2) text.head?

variable {d : Marks}

theorem Marks.mem_of_lookup {o c : Char} (h : d.lookup o = some c) : (o, c) ∈ d := by
  obtain ⟨before, after, rfl, -⟩ := List.lookup_eq_some_iff.mp h
  simp

/-- What does not start with a closing mark does not continue a quotation. -/
theorem Marks.Bounded.lookup_ne {x : Char} {rest : List Char} (h : d.Bounded (x :: rest))
    (o : Char) : d.lookup o ≠ some x :=
  fun ho => h x rfl _ (Marks.mem_of_lookup ho) rfl

/-- A plain character does not open a quotation. -/
theorem Marks.lookup_eq_none {x : Char} (h : ∀ p ∈ d, x ≠ p.1 ∧ x ≠ p.2) : d.lookup x = none :=
  List.lookup_eq_none_iff.mpr fun p hp => by simpa using (h p hp).1

@[simp] theorem Marks.plain_append {s t : String} :
    d.Plain (s ++ t) ↔ d.Plain s ∧ d.Plain t := by
  unfold Marks.Plain
  rw [String.toList_append, List.forall_mem_append]

namespace Scan

/-! ### Texts one behind the other -/

/-- Plain characters are read one by one. -/
theorem read_plain {text : List Char} (h : ∀ x ∈ text, ∀ p ∈ d, x ≠ p.1 ∧ x ≠ p.2)
    (rest : List Char) :
    read d outside (text ++ rest) = (read d outside rest).map (text.map .plain ++ ·) := by
  induction text with
  | nil => simp
  | cons x text ih =>
    rw [List.forall_mem_cons] at h
    have hstep : step d outside x = (outside, [.plain x]) := by
      rw [step, opened, Marks.lookup_eq_none h.1]
      rfl
    rw [List.cons_append, read, hstep, ih h.2, Option.map_map]
    rfl

/-- Behind a closed quotation comes what does not continue it. -/
theorem read_closed {rest : List Char} (h : d.Bounded rest) (o : Char) (k : List Char) :
    read d (closed o k) rest =
      (read d outside rest).map (.quoted o (String.ofList k) :: ·) := by
  cases rest with
  | nil => rfl
  | cons x rest =>
    have hstep : step d (closed o k) x =
        ((opened d x).1, .quoted o (String.ofList k) :: (opened d x).2) :=
      if_neg (h.lookup_ne o)
    rw [read, hstep, read, Option.map_map]
    rfl

/-- A text that closes its quotations is read apart from what follows, unless that doubles the
last mark. -/
theorem read_append {σ : Scan} {text rest : List Char} {ts : List Token}
    (h : read d σ text = some ts) (hrest : d.Bounded rest) :
    read d σ (text ++ rest) = (read d outside rest).map (ts ++ ·) := by
  induction text generalizing σ ts with
  | nil =>
    cases σ with
    | outside =>
      cases h
      simp
    | inside o k => cases h
    | closed o k =>
      cases h
      exact read_closed hrest o k
  | cons x text ih =>
    obtain ⟨us, hus, rfl⟩ := Option.map_eq_some_iff.mp h
    rw [List.cons_append, read, ih hus, Option.map_map]
    simp only [Function.comp_def, List.append_assoc]

/-! ### Doubled marks -/

/-- Inside a quotation a text with doubled closing marks stands for the text. -/
theorem read_doubled {o c : Char} (h : d.lookup o = some c) (k text rest : List Char) :
    read d (inside o k) (doubled c text ++ c :: rest) = read d (closed o (k ++ text)) rest := by
  induction text generalizing k with
  | nil => simp [doubled, read, step, h]
  | cons x text ih =>
    rw [doubled]
    split
    next hx =>
      subst hx
      simp [read, step, h, ih]
    next hx =>
      have hne : c ≠ x := fun hc => hx hc.symm
      simp [read, step, h, hne, ih]

/-! ### Lengths of texts -/

/-- The number of closing marks in the content of a quotation. -/
def marksIn (d : Marks) (o : Char) (content : List Char) : Nat :=
  (d.lookup o).elim 0 (content.count ·)

/-- The number of characters that a scan has read without completing a token. -/
def pending (d : Marks) : Scan → Nat
  | outside => 0
  | inside o k => 1 + k.length + marksIn d o k
  | closed o k => 2 + k.length + marksIn d o k

/-- The number of characters that a token is written with. -/
def width (d : Marks) : Token → Nat
  | .plain _ => 1
  | .quoted o content => 2 + content.length + marksIn d o content.toList

theorem marksIn_concat (o : Char) (k : List Char) (x : Char) :
    marksIn d o (k ++ [x]) = marksIn d o k + if d.lookup o = some x then 1 else 0 := by
  unfold marksIn
  cases d.lookup o with
  | none => simp
  | some c =>
    rw [Option.elim_some, Option.elim_some, List.count_append, List.count_singleton]
    by_cases hx : c = x
    · simp [hx]
    · simp [hx, Ne.symm hx]

theorem pending_opened (x : Char) :
    pending d (opened d x).1 + ((opened d x).2.map (width d)).sum = 1 := by
  unfold opened
  split
  · cases hc : d.lookup x <;> simp [pending, marksIn, hc]
  · rfl

/-- No character is lost. -/
theorem pending_step (σ : Scan) (x : Char) :
    pending d (σ.step d x).1 + ((σ.step d x).2.map (width d)).sum = pending d σ + 1 := by
  cases σ with
  | outside => exact (pending_opened x).trans (Nat.zero_add 1).symm
  | inside o k =>
    simp only [step]
    split
    next h => simp [pending]; omega
    next h => simp [pending, marksIn_concat, h]; omega
  | closed o k =>
    simp only [step]
    split
    next h => simp [pending, marksIn_concat, h]; omega
    next h =>
      have hopened := pending_opened (d := d) x
      show pending d (opened d x).1 + (width d (.quoted o (String.ofList k)) +
        ((opened d x).2.map (width d)).sum) = 2 + k.length + marksIn d o k + 1
      rw [width, String.length_ofList, String.toList_ofList]
      omega

/-- Quotations are written with the marks around them and every closing mark in them doubled. -/
theorem width_read {σ : Scan} {text : List Char} {ts : List Token} (h : read d σ text = some ts) :
    (ts.map (width d)).sum = pending d σ + text.length := by
  induction text generalizing σ ts with
  | nil =>
    cases σ with
    | outside =>
      cases h
      rfl
    | inside o k => cases h
    | closed o k =>
      cases h
      simp [width, pending]
  | cons x text ih =>
    obtain ⟨us, hus, rfl⟩ := Option.map_eq_some_iff.mp h
    have hstep := pending_step (d := d) σ x
    rw [List.map_append, List.sum_append, ih hus, List.length_cons]
    omega

/-! ### Texts between marks -/

/-- A text with doubled closing marks, between its marks, is one quotation. -/
theorem read_enclosed {o c : Char} (h : d.lookup o = some c) (text : List Char) :
    read d outside (o :: (doubled c text ++ [c])) = some [.quoted o (String.ofList text)] := by
  have hstep : step d outside o = (inside o [], []) := by
    rw [step, opened, h]
    rfl
  rw [read, hstep, read_doubled h]
  rfl

/-- As it is, between its marks, a text is one quotation with itself as the content exactly
when the closing mark does not occur in it. -/
theorem read_between_marks_iff {o c : Char} (h : d.lookup o = some c) (text : List Char) :
    read d outside (o :: (text ++ [c])) = some [.quoted o (String.ofList text)] ↔ c ∉ text := by
  constructor
  · -- every closing mark in the content would need one more character
    intro hread
    have hwidth := width_read hread
    simp [width, pending, marksIn, h] at hwidth
    exact List.count_eq_zero.mp (by omega)
  · intro hc
    have hread := read_enclosed h text
    rwa [doubled_eq_self hc] at hread

end Scan

/-- The tokens of a text without marks. -/
def plainTokens (text : String) : List Token := text.toList.map .plain

theorem tokens_plain_append {s : String} (h : d.Plain s) (t : String) :
    tokens d (s ++ t) = (tokens d t).map (plainTokens s ++ ·) := by
  rw [tokens, String.toList_append]
  exact Scan.read_plain h t.toList

theorem tokens_append {s t : String} {ts : List Token} (h : tokens d s = some ts)
    (ht : d.Bounded t.toList) : tokens d (s ++ t) = (tokens d t).map (ts ++ ·) := by
  rw [tokens, String.toList_append]
  exact Scan.read_append h ht

/-- A text without marks does not continue a quotation in front of it. -/
theorem Marks.Plain.bounded_append {s : String} (h : d.Plain s) (hs : s ≠ "") (t : String) :
    d.Bounded (s ++ t).toList := by
  intro x hx p hp
  obtain ⟨c, cs, hcs⟩ := List.exists_cons_of_ne_nil (mt String.toList_eq_nil_iff.mp hs)
  rw [String.toList_append, hcs] at hx
  cases hx
  exact (h x (hcs ▸ List.mem_cons_self) p hp).2

/-- A literal is one quotation, with the text that it stands for as content. -/
theorem tokens_literal (h : d.lookup '\'' = some '\'') (text : String) :
    tokens d (literal text) = some [.quoted '\'' text] := by
  have hread := Scan.read_enclosed h text.toList
  rw [String.ofList_toList] at hread
  simpa [tokens, literal, doubleQuotes_eq_doubled] using hread

end ObjectQuery.Sql
